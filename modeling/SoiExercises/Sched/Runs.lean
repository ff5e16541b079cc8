import Mathlib.Logic.Relation
import SoiExercises.Sched.Billing
import SoiExercises.Sched.Calm
import SoiExercises.Sched.HeldUp
import SoiExercises.Sched.Lifecycle
import SoiExercises.Sched.Safety

/-!
# Runs of the kernel

What holds of every state that a run reaches from a kernel in order. A run consists of traps, interrupts and
clock ticks, requests to the system task, and flushes of held-up interrupts, in any order in which they may
happen. The ready queues hold the runnable processes and the queues of senders the blocked ones, `sig_procs`
counts the pending signals, no alarm is forgotten, held-up interrupts are queued once and flushed, and the
messages are those of the rendezvous protocol. All of it is read off `Intact.act`, and off `act_mode` where
`switching` matters.
-/

namespace SoiExercises.Sched

open SoiExercises.Lib

/-- What happens to the kernel. `k_reenter` is counted by assembly code. -/
inductive Act where
  | event (e : Event)
  | request (call : SysRequest)
  | unhold (windows : List (List Int))
  | reenter (level : Int)

/-- What may happen in a state. The system task serves a request when it runs, and held-up interrupts are
flushed before a process goes on outside of any other interrupt. -/
def Act.Proper (cfg : Config) (s : Kernel) : Act → Prop
  | .event e => e.Proper cfg s
  | .request call => s.procPtr = cfg.procAddr SYSTASK ∧ (s.proc s.procPtr).isTaskp ∧ call.Proper cfg s
  | .unhold windows => s.kReenter = 0 ∧ s.heldHead ≠ none ∧
      ∀ arrivals ∈ windows, ∀ n ∈ arrivals, (s.proc (cfg.procAddr n)).isTaskp
  | .reenter _ => True

/-- The message that is sent when process `caller` runs, from one process to another. -/
def Act.sent (cfg : Config) (caller : Nat) (n : Reply) : Act → Nat → Nat → List Int
  | .event e => e.sent cfg caller n
  | _ => Post.nothing

/-- An act, with the process that runs and the reply to a trap. -/
structure Deed where
  caller : Nat
  act : Act
  reply : Reply

/-- The messages that it sends from one process to another. -/
def Deed.sent (cfg : Config) (x : Deed) : Nat → Nat → List Int := x.act.sent cfg x.caller x.reply

namespace Kernel

/-- The code that runs, with the reply to the caller of a trap. -/
def act (cfg : Config) (s : Kernel) : Act → Result (Reply × Kernel)
  | .event e => s.perform cfg e
  | .request call => do
    let r ← s.sysTask cfg call
    return (.OK, r.2)
  | .unhold windows => do
    let s ← s.unhold cfg windows
    return (.OK, s)
  | .reenter level => .ok (.OK, { s with kReenter := level })

end Kernel

/-- Something happens that may happen. -/
def DeedStep (cfg : Config) (s : Kernel) (x : Deed) (t : Kernel) : Prop :=
  x.caller = s.procPtr ∧ x.act.Proper cfg s ∧ s.act cfg x.act = .ok (x.reply, t)

namespace Kernel

/-- The invariants of the kernel hold, whatever its queues and messages are, and no process is being switched. -/
def InOrder (cfg : Config) (s : Kernel) : Prop := (∃ A P H, Intact cfg s A P H ∧ Alarms s) ∧ Mode false s

variable {cfg : Config} {s t : Kernel} {x : Deed} {xs : List Deed} {A : Scheduler} {P : Mail} {H : List Nat} {a : Act}
  {caller dest : Nat}

/-- **Whatever happens** keeps the kernel intact. -/
theorem Intact.act (h : Intact cfg s A P H) (alarms : Alarms s) (proper : a.Proper cfg s) :
    Ends Fault.Documented (fun r => Advanced cfg P (a.sent cfg s.procPtr r.1) r.2 ∧ Alarms r.2) (s.act cfg a) := by
  cases a with
  | event e => exact h.perform alarms proper
  | request call =>
    obtain ⟨-, task, proper⟩ := proper
    have isTask : (s.proc s.procPtr).priority = .task := by simpa [Proc.isTaskp] using task
    refine Ends.bind (documented (h.sysTask alarms isTask proper)) ?_
    rintro r served
    exact Ends.pure served
  | unhold windows =>
    obtain ⟨outside, some, tasks⟩ := proper
    refine .of_returns ((h.unhold outside some tasks).bind ?_)
    rintro t ⟨⟨B, P', H', intact, passes, -⟩, kept⟩
    exact Ends.pure ⟨⟨B, P', H', intact, passes⟩, alarms.settled kept.settled⟩
  | reenter level =>
    exact Ends.ok ⟨⟨A, P, H, h.of_eq rfl rfl rfl rfl rfl rfl rfl rfl, .refl P⟩, alarms.settled ⟨fun _ => rfl, fun _ => rfl, rfl, rfl⟩⟩

/-- Whatever happens, processes are not being switched afterwards. -/
theorem act_mode (h : Mode false s) (proper : a.Proper cfg s) : Completes (fun r => Mode false r.2) (s.act cfg a) := by
  cases a with
  | event e =>
    cases e with
    | sysCall => exact sysCall_mode h rfl
    | interrupt => exact .bind (interrupt_mode h) fun t h => .pure h
    | tick => exact .bind (clockTick_mode proper.1 h) fun t h => .pure h
    | clock => exact .bind (clockTask_mode proper.2.2.sound h) fun t h => .pure h
  | request call => exact .bind (sysTask_mode h) fun r h => .pure h
  | unhold windows => exact .bind (unhold_mode h) fun t h => .pure h
  | reenter level => exact .ok h

theorem Intact.step (h : Intact cfg s A P H) (alarms : Alarms s) (step : DeedStep cfg s x t) :
    Advanced cfg P (x.sent cfg) t ∧ Alarms t := by
  obtain ⟨runs, proper, done⟩ := step
  unfold Deed.sent
  rw [runs]
  exact (h.act alarms proper).completes _ done

/-- After the deeds `xs` the kernel is intact, and its messages have moved by the protocol. -/
def Reached (cfg : Config) (P : Mail) (xs : List Deed) (t : Kernel) : Prop :=
  ∃ B P' H, Intact cfg t B P' H ∧ Alarms t ∧ Passes cfg P (fun k d => xs.flatMap fun x => x.sent cfg k d) P'

theorem Reached.step (h : Reached cfg P xs s) (step : DeedStep cfg s x t) : Reached cfg P (xs ++ [x]) t := by
  obtain ⟨B, P', H, intact, alarms, passes⟩ := h
  obtain ⟨⟨C, P'', H', intact', passes'⟩, alarms'⟩ := intact.step alarms step
  refine ⟨C, P'', H', intact', alarms', ?_⟩
  have both := passes.trans passes'
  simpa [List.flatMap_append] using both

theorem InOrder.step (h : InOrder cfg s) (step : DeedStep cfg s x t) : InOrder cfg t := by
  obtain ⟨⟨A, P, H, intact, alarms⟩, mode⟩ := h
  obtain ⟨⟨B, P', H', intact', -⟩, alarms'⟩ := intact.step alarms step
  exact ⟨⟨B, P', H', intact', alarms'⟩, act_mode mode step.2.1 _ step.2.2⟩

theorem InOrder.run (h : InOrder cfg s) (run : Run (DeedStep cfg) s xs t) : InOrder cfg t :=
  run.invariant (fun h step => h.step step) h

/-- A kernel at rest: two ready processes, and the tasks and servers wait for messages. Task -5 has overrun its
stack. -/
def atRest : Kernel :=
  { twoUsers with
    proc := fun k => { twoUsers.proc k with
      stackOk := k ≠ 3
      flags := if twoPrio k = .task ∨ twoPrio k = .server then {.receiving} else ∅ } }

/-- Nothing has been sent yet. -/
def silence : Mail where
  queue _ := []
  waiting d := if twoPrio d = .task ∨ twoPrio d = .server then some ANY else none
  inbox _ := none

theorem twoPrio_cases (k : Nat) : (k < 8 ∧ (twoPrio k = .task ∨ twoPrio k = .idle)) ∨ (8 ≤ k ∧ k < 10 ∧ twoPrio k = .server) ∨
    ((k = 10 ∨ k = 11) ∧ twoPrio k = .user) ∨ 12 ≤ k ∧ twoPrio k = .none := by
  unfold twoPrio
  split_ifs
  · exact .inl ⟨by omega, .inr rfl⟩
  · exact .inl ⟨by omega, .inl rfl⟩
  · exact .inr (.inl ⟨by omega, by omega, rfl⟩)
  · exact .inr (.inr (.inl ⟨by omega, rfl⟩))
  · exact .inr (.inr (.inr ⟨by omega, rfl⟩))

theorem twoPrio_none {k : Nat} (far : 12 ≤ k) : twoPrio k = .none := by
  rcases twoPrio_cases k with ⟨_, _⟩ | ⟨_, _, _⟩ | ⟨_ | _, _⟩ | ⟨_, none⟩
  · omega
  · omega
  · omega
  · omega
  · exact none

theorem atRest_waits {k : Nat} {x : Flag} : x ∈ (atRest.proc k).flags ↔ x = .receiving ∧ (twoPrio k = .task ∨ twoPrio k = .server) := by
  show x ∈ (if twoPrio k = .task ∨ twoPrio k = .server then {.receiving} else ∅ : Finset Flag) ↔ _
  split_ifs with waits
  · simp [waits]
  · simp [waits]

theorem atRest_table : Table minix atRest where
  any := by decide
  outside {k} far := by
    have far : 40 ≤ k := far
    exact twoPrio_none (by omega)
  tasks {k} role := by
    rcases twoPrio_cases k with ⟨inside, _⟩ | ⟨_, _, other⟩ | ⟨_, other⟩ | ⟨_, other⟩
    · exact inside
    all_goals
      have role : twoPrio k = .task ∨ twoPrio k = .idle := role
      rw [other] at role
      rcases role with no | no
      all_goals cases no
  procs {k} role := by
    show 8 ≤ k
    rcases twoPrio_cases k with ⟨_, other⟩ | ⟨_, _, _⟩ | ⟨_ | _, _⟩ | ⟨_, _⟩
    · have role : twoPrio k = .server ∨ twoPrio k = .user := role
      rcases other with other | other
      all_goals
        rw [other] at role
        rcases role with no | no
        all_goals cases no
    all_goals omega
  servers {n} system := twoUsers_typed.roles.servers n system
  clock := rfl
  hardware := rfl
  idle := rfl
  live {k x} on := by
    show (twoPrio k).scheduled
    rcases (atRest_waits.1 on).2 with task | server
    · rw [task]
      rfl
    · rw [server]
      rfl
  taskFlags {k x} on _ := .inr (atRest_waits.1 on).1

theorem atRest_manned : Manned minix atRest ⟨Function.update (fun _ => []) .userQ [10, 11], 10, 10⟩
    fun k => (atRest.proc k).flags = ∅ where
  lined := by
    refine ⟨fun q => ?_, fun {q k} last => ?_, fun {q k} member => ?_, rfl, rfl⟩
    · cases q with
      | userQ => exact ⟨rfl, rfl, rfl⟩
      | taskQ => rfl
      | serverQ => rfl
    · cases q with
      | userQ => exact last
      | taskQ => cases last
      | serverQ => cases last
    · cases q with
      | userQ =>
        have member : k = 10 ∨ k = 11 := by simpa using member
        rcases member with rfl | rfl
        · rfl
        · rfl
      | taskQ => cases member
      | serverQ => cases member
  members {k} := by
    show k ∈ Function.update (fun _ => []) Queue.userQ [10, 11] (twoPrio k).queue ↔ (atRest.proc k).flags = ∅ ∧ (twoPrio k).scheduled
    have waiting (waits : twoPrio k = .task ∨ twoPrio k = .server) : (atRest.proc k).flags ≠ ∅ :=
      Finset.ne_empty_of_mem (atRest_waits.2 ⟨rfl, waits⟩)
    rcases twoPrio_cases k with ⟨_, role | role⟩ | ⟨_, _, role⟩ | ⟨here, role⟩ | ⟨_, role⟩
    · rw [role]
      exact iff_of_false List.not_mem_nil fun both => waiting (.inl role) both.1
    · rw [role]
      exact iff_of_false (by simp [Ppri.queue]; omega) fun both => Bool.false_ne_true both.2
    · rw [role]
      exact iff_of_false List.not_mem_nil fun both => waiting (.inr role) both.1
    · rw [role]
      refine iff_of_true (by simpa [Ppri.queue] using here) ⟨?_, rfl⟩
      rcases here with rfl | rfl
      · rfl
      · rfl
    · rw [role]
      exact iff_of_false (by simp [Ppri.queue]; omega) fun both => Bool.false_ne_true both.2
  current := ⟨fun first => (nomatch first), .inr rfl⟩
  inside {k} scheduled := by
    show k < 40
    by_contra far
    have scheduled : (twoPrio k).scheduled := scheduled
    rw [twoPrio_none (by omega)] at scheduled
    cases scheduled

theorem atRest_sends (k : Nat) : .sending ∉ (atRest.proc k).flags := by
  rw [atRest_waits]
  rintro ⟨no, -⟩
  cases no

theorem atRest_posted : Posted minix atRest silence where
  number _ := rfl
  queued := ⟨fun _ => rfl, fun none => nomatch none⟩
  sends {d k} := by
    rw [awaits_of_not_sending (atRest_sends k)]
    exact iff_of_false List.not_mem_nil (by simp)
  text none := nomatch none
  ending k := ⟨[k], rfl, awaits_of_not_sending (atRest_sends k)⟩
  inside sending := absurd sending (atRest_sends _)
  target sending := absurd sending (atRest_sends _)
  waiting d := by
    show (if twoPrio d = .task ∨ twoPrio d = .server then some ANY else none) =
      if .receiving ∈ (atRest.proc d).flags then some ANY else none
    refine if_congr ?_ rfl rfl
    rw [atRest_waits]
    exact (and_iff_right rfl).symm
  inbox none := nomatch none
  attentive _ _ _ _ none := nomatch none
  both _ sending := absurd sending (atRest_sends _)
  alert _ _ _ := rfl

theorem atRest_inOrder : InOrder minix atRest := by
  refine ⟨⟨_, silence, [], ⟨⟨⟨atRest_table, atRest_manned, atRest_posted⟩, ⟨?_, fun {k} pending => ?_⟩, fun _ _ => rfl⟩, ?_⟩, ?_⟩, rfl⟩
  · have none : atRest.pendings minix = ∅ := by
      rw [Finset.eq_empty_iff_forall_notMem]
      intro k member
      cases (atRest_waits.1 (mem_pendings.1 member).2).1
    rw [none]
    rfl
  · cases (atRest_waits.1 pending).1
  · exact ⟨rfl, fun none => (nomatch none), fun {k} => iff_of_false List.not_mem_nil Bool.false_ne_true, fun none => (nomatch none)⟩
  · exact ⟨fun on => absurd rfl on, fun on => absurd rfl on⟩

/-- What is left when the code has run, if it completes. -/
def after (s : Kernel) (a : Act) : Kernel :=
  match s.act minix a with
  | .ok r => r.2
  | .error _ => s

/-- What the caller of a trap gets. -/
def replyTo (s : Kernel) (a : Act) : Reply :=
  match s.act minix a with
  | .ok r => r.1
  | .error _ => .OK

theorem act_after (completes : (s.act minix a).toOption.isSome) : s.act minix a = .ok (s.replyTo a, s.after a) := by
  unfold replyTo after
  cases done : s.act minix a with
  | ok r => rfl
  | error e =>
    rw [done] at completes
    cases completes

/-- A run from the kernel at rest. -/
def Comes (t : Kernel) : Prop := ∃ xs, Run (DeedStep minix) atRest xs t

theorem atRest_comes : Comes atRest := ⟨[], .nil _⟩

theorem Comes.inOrder (h : Comes s) : InOrder minix s := by
  obtain ⟨xs, run⟩ := h
  exact atRest_inOrder.run run

theorem Comes.after (h : Comes s) (proper : a.Proper minix s) (completes : (s.act minix a).toOption.isSome) :
    Comes (s.after a) := by
  obtain ⟨xs, run⟩ := h
  have step : DeedStep minix s ⟨s.procPtr, a, s.replyTo a⟩ (s.after a) := ⟨rfl, proper, act_after completes⟩
  exact ⟨_, run.snoc step⟩

/-- When an alarm goes off, a process is signalled and a task is left alone. -/
def routine (request : Request) : Agenda := ⟨fun n => if n < 0 then some .ok else none, fun _ => false, request⟩

theorem routine_sound {request : Request} (h : Comes s) : (routine request).Sound minix s where
  watched n none := by
    have notTask : ¬ n < 0 := by
      intro negative
      rw [show (routine request).watchDog n = some .ok from if_pos negative] at none
      cases none
    obtain ⟨⟨A, P, H, intact, -⟩, -⟩ := h.inOrder
    cases task : (s.proc (minix.procAddr n)).isTaskp with
    | false => rfl
    | true =>
      have inside : minix.procAddr n < 8 := intact.table.tasks (.inl (by simpa [Proc.isTaskp] using task))
      have slot : (minix.procAddr n : Int) = n + 8 := Int.toNat_of_nonneg (by omega)
      omega
  wakes n watchDog some s t done := by
    by_cases negative : n < 0
    · rw [show (routine request).watchDog n = .some .ok from if_pos negative] at some
      obtain rfl := Option.some.inj some
      obtain rfl := Except.ok.inj done
      exact ⟨[], .nil _⟩
    · rw [show (routine request).watchDog n = none from if_neg negative] at some
      cases some

theorem routine_complete {request : Request} : (routine request).Complete minix := by
  intro n watchDog some s A P H _
  by_cases negative : n < 0
  · rw [show (routine request).watchDog n = .some .ok from if_pos negative] at some
    obtain rfl := Option.some.inj some
    exact ⟨s, rfl⟩
  · rw [show (routine request).watchDog n = none from if_neg negative] at some
    cases some

/-- The process that runs asks FS for something. -/
def ask : Act := .event (.sysCall .both FS_PROC_NR ⟨2, 3⟩ true)

/-- The first of two processes has asked FS for something, and FS runs. -/
def asked : Kernel := atRest.after ask

theorem asked_comes : Comes asked :=
  atRest_comes.after ⟨.inr (.inr rfl), fun _ => by decide⟩ (by decide)

/-- FS asks the clock task for the time and does not wait for the answer, so that the clock task is blocked in a send
to it. -/
def answered : Kernel := (asked.after (.event (.sysCall .send CLOCK ⟨1, 3⟩ true))).after (.event (.clock (routine .getUptime)))

theorem answered_comes : Comes answered := by
  have hurried : Comes (asked.after (.event (.sysCall .send CLOCK ⟨1, 3⟩ true))) :=
    asked_comes.after ⟨.inr (.inl (by decide)), fun _ => by decide⟩ (by decide)
  refine hurried.after ⟨by decide, by unfold Unserved; decide, ?_⟩ (by decide)
  exact ⟨routine_sound hurried, routine_complete, fun _ => ⟨trivial, by decide, by decide⟩⟩

/-- FS waits for MM then, and the second process asks FS for something. -/
def crowded : Kernel := (answered.after (.event (.sysCall .receive MM_PROC_NR ⟨0, 0⟩ true))).after ask

theorem crowded_comes : Comes crowded := by
  have waits := answered_comes.after (a := .event (.sysCall .receive MM_PROC_NR ⟨0, 0⟩ true))
    ⟨.inr (.inl (by decide)), fun no => absurd rfl no⟩ (by decide)
  exact waits.after ⟨.inr (.inr (by decide)), fun _ => by decide⟩ (by decide)

/-- FS has an alarm set for the first process. -/
def alarmed : Kernel := (asked.after (.event (.sysCall .both CLOCK ⟨1, 1⟩ true))).after (.event (.clock (routine (.setAlarm 2 1))))

theorem alarmed_comes : Comes alarmed := by
  have waits : Comes (asked.after (.event (.sysCall .both CLOCK ⟨1, 1⟩ true))) :=
    asked_comes.after ⟨.inr (.inl (by decide)), fun _ => by decide⟩ (by decide)
  refine waits.after ⟨by decide, by unfold Unserved; decide, ?_⟩ (by decide)
  refine ⟨routine_sound waits, routine_complete, fun _ => ⟨fun _ => ?_, by decide, by decide⟩⟩
  decide

/-- The system task is woken and signals the first of two processes, and MM is told. -/
def killed : Kernel := (atRest.after (.event (.interrupt SYSTASK))).after (.request (.kill 2 false))

theorem killed_comes : Comes killed := by
  have woken := atRest_comes.after (a := .event (.interrupt SYSTASK)) rfl (by decide)
  exact woken.after ⟨by decide, by decide, show Proc.isUserp _ by decide⟩ (by decide)

/-- The interrupt of a task comes in while another one is handled. -/
def heldUp : Kernel := ((atRest.after (.reenter 1)).after (.event (.interrupt (-4)))).after (.reenter 0)

theorem heldUp_comes : Comes heldUp := by
  have inner := atRest_comes.after (a := .reenter 1) trivial (by decide)
  have held := inner.after (a := .event (.interrupt (-4))) (show Proc.isTaskp _ by decide) (by decide)
  exact held.after trivial (by decide)

/-- A task that has overrun its stack is woken. -/
def overrun : Kernel := atRest.after (.event (.interrupt (-5)))

/-- **The ready queues over a run**: each is a list that ends in its tail and holds the runnable processes of its
kind, once each. A task runs if one is runnable, and who runs is the first of its queue, or nobody is left. -/
theorem ready_queues_exact (h : InOrder cfg s) (run : Run (DeedStep cfg) s xs t) :
    ∃ line : Queue → List Nat, (∀ q, Listed t.links (t.rdyHead q) (line q)) ∧
      (∀ q k, (line q).getLast? = some k → t.rdyTail q = some k) ∧
      (∀ q k, k ∈ line q ↔ (t.proc k).flags = ∅ ∧ (t.proc k).priority.scheduled ∧ (t.proc k).priority.queue = q) ∧
      (t.procPtr = cfg.procAddr IDLE ∨ (line (t.proc t.procPtr).priority.queue).head? = some t.procPtr) ∧
      ∀ rp, (line .taskQ).head? = some rp → t.procPtr = rp := by
  obtain ⟨⟨A, P, H, intact, -⟩, -⟩ := h.run run
  have lined := intact.manned.lined
  refine ⟨A.line, lined.listed, fun q k => lined.tail, fun q k => ?_, ?_, fun rp first => ?_⟩
  · constructor
    · intro member
      have kind := lined.kind member
      rw [← kind] at member
      obtain ⟨awake, scheduled⟩ := intact.manned.members.1 member
      exact ⟨awake, scheduled, kind⟩
    · rintro ⟨awake, scheduled, rfl⟩
      exact intact.manned.members.2 ⟨awake, scheduled⟩
  · rw [lined.procPtr]
    exact intact.manned.current.turn
  · rw [lined.procPtr]
    exact intact.manned.current.task first

theorem ready_queues_exact_calls : asked.procPtr = minix.procAddr FS_PROC_NR ∧
    ∃ line : Queue → List Nat, (∀ q, Listed asked.links (asked.rdyHead q) (line q)) ∧
      (∀ q k, (line q).getLast? = some k → asked.rdyTail q = some k) ∧
      (∀ q k, k ∈ line q ↔ (asked.proc k).flags = ∅ ∧ (asked.proc k).priority.scheduled ∧ (asked.proc k).priority.queue = q) ∧
      (asked.procPtr = minix.procAddr IDLE ∨ (line (asked.proc asked.procPtr).priority.queue).head? = some asked.procPtr) ∧
      ∀ rp, (line .taskQ).head? = some rp → asked.procPtr = rp := by
  obtain ⟨xs, run⟩ := asked_comes
  exact ⟨by decide, ready_queues_exact atRest_inOrder run⟩

/-- **The queues of senders over a run** hold the processes that are blocked in a send, in one queue each. No
process waits for a message that is in its queue, and no circle of processes is blocked in sends to each other. -/
theorem sender_queues_exact (h : InOrder cfg s) (run : Run (DeedStep cfg) s xs t) :
    ∃ queue : Nat → List Nat, (∀ d, Listed t.sendlinks (t.proc d).callerq (queue d)) ∧
      (∀ d k, k ∈ queue d ↔ .sending ∈ (t.proc k).flags ∧ cfg.procAddr (t.proc k).sendto = d) ∧
      (∀ d k, k ∈ queue d → .receiving ∈ (t.proc d).flags → ¬ cfg.accepts (t.proc d).getfrom k) ∧
      ∀ k, ¬ Relation.TransGen (fun a b => t.awaits cfg a = some b) k k := by
  obtain ⟨⟨A, P, H, intact, -⟩, -⟩ := h.run run
  have posted := intact.posted
  refine ⟨fun d => (P.queue d).map Prod.fst, posted.queued.listed, fun d k => ?_, fun d k member receiving => ?_, fun k => ?_⟩
  · rw [posted.sends, awaits_iff]
  · obtain ⟨e, he, rfl⟩ := List.mem_map.1 member
    exact posted.attentive d _ (posted.waiting_some.2 ⟨receiving, rfl⟩) e he
  · exact posted.ending.acyclic

theorem sender_queues_exact_crowded : (crowded.proc 9).callerq = some 5 ∧ (crowded.proc 5).sendlink = some 11 ∧
    ∃ queue : Nat → List Nat, (∀ d, Listed crowded.sendlinks (crowded.proc d).callerq (queue d)) ∧
      (∀ d k, k ∈ queue d ↔ .sending ∈ (crowded.proc k).flags ∧ minix.procAddr (crowded.proc k).sendto = d) ∧
      (∀ d k, k ∈ queue d → .receiving ∈ (crowded.proc d).flags → ¬ minix.accepts (crowded.proc d).getfrom k) ∧
      ∀ k, ¬ Relation.TransGen (fun a b => crowded.awaits minix a = some b) k k := by
  obtain ⟨xs, run⟩ := crowded_comes
  exact ⟨by decide, by decide, sender_queues_exact atRest_inOrder run⟩

/-- **The test for a deadlock** ends in every state of a run, and finds one exactly when the sends of `dest` and of
those for whom it is blocked lead back to the caller. When the process that runs has sent to itself, the test of any
other process that sends to it does not end. -/
theorem deadlocked_exact (h : InOrder cfg s) (run : Run (DeedStep cfg) s xs t) :
    (∀ caller dest, ∃ b, t.deadlocked cfg caller dest = .ok b ∧
      (b ↔ Relation.TransGen (fun a b => t.awaits cfg a = some b) dest caller)) ∧
    ∀ function m mapped u, function ≠ .receive →
      t.sysCall cfg (Agenda.quiet.handlers cfg) function (t.proc t.procPtr).nr m mapped = .ok (.OK, u) →
      ∀ caller, caller ≠ t.procPtr → u.deadlocked cfg caller t.procPtr = .error .endless := by
  obtain ⟨⟨A, P, H, intact, -⟩, -⟩ := h.run run
  refine ⟨fun caller dest => ?_, fun function m mapped u sends done caller other => ?_⟩
  · obtain ⟨l, path, short⟩ := intact.posted.path dest
    refine ⟨_, deadlocked_listed path short, ?_⟩
    rw [decide_eq_true_iff]
    exact path.mem_iff_transGen
  · have self := intact.toSound.sysCall_self sends _ done rfl
    exact self.endless other

theorem deadlocked_exact_answered : .sending ∈ (answered.proc 5).flags ∧ answered.procPtr = 9 ∧
    (∃ b, answered.deadlocked minix 9 5 = .ok b ∧ (b ↔ Relation.TransGen (fun a b => answered.awaits minix a = some b) 5 9)) ∧
    ∃ u, answered.sysCall minix (Agenda.quiet.handlers minix) .send FS_PROC_NR ⟨1, 3⟩ true = .ok (.OK, u) ∧
      u.deadlocked minix 10 9 = .error .endless := by
  obtain ⟨xs, run⟩ := answered_comes
  obtain ⟨test, self⟩ := deadlocked_exact atRest_inOrder run
  obtain ⟨⟨n, u⟩, done, ok⟩ := ok_of_any
    (x := answered.sysCall minix (Agenda.quiet.handlers minix) .send FS_PROC_NR ⟨1, 3⟩ true) (p := fun r => r.1 = .OK)
    (by decide)
  obtain rfl : n = .OK := of_decide_eq_true ok
  have runs : answered.procPtr = 9 := by decide
  have number : (answered.proc answered.procPtr).nr = FS_PROC_NR := by decide
  have endless := self .send ⟨1, 3⟩ true u (by decide) (by rw [number]; exact done) 10
  rw [runs] at endless
  exact ⟨by decide, runs, test 9 5, u, done, endless (by decide)⟩

/-- **Signals over a run**: `sig_procs` is the number of processes with a signal that MM does not know, and there is
none while MM waits for any message. -/
theorem signals_counted (h : InOrder cfg s) (run : Run (DeedStep cfg) s xs t) :
    t.sigProcs = (t.pendings cfg).card ∧
      (.receiving ∈ (t.proc (cfg.procAddr MM_PROC_NR)).flags → (t.proc (cfg.procAddr MM_PROC_NR)).getfrom = ANY →
        ∀ k, .pending ∉ (t.proc k).flags) := by
  obtain ⟨⟨A, P, H, intact, -⟩, -⟩ := h.run run
  refine ⟨intact.signals.count, fun receiving any k pending => ?_⟩
  have none := intact.informed receiving any
  have here : k ∈ t.pendings cfg := mem_pendings.2 ⟨intact.table.inside (intact.table.live pending), pending⟩
  have positive := Finset.card_pos.2 ⟨k, here⟩
  have count := intact.signals.count
  omega

theorem signals_counted_kills : .sigPending ∈ (killed.proc 10).flags ∧
    killed.sigProcs = (killed.pendings minix).card ∧
      (.receiving ∈ (killed.proc (minix.procAddr MM_PROC_NR)).flags → (killed.proc (minix.procAddr MM_PROC_NR)).getfrom = ANY →
        ∀ k, .pending ∉ (killed.proc k).flags) := by
  obtain ⟨xs, run⟩ := killed_comes
  exact ⟨by decide, signals_counted atRest_inOrder run⟩

/-- **Alarms over a run**: they are set for processes, and none is before `next_alarm`. When one is due at a clock
interrupt, the clock task is told. When the clock task has served the interrupt, at once or later, the alarms that
were due are off, and the others are as they were. -/
theorem alarms_met (h : InOrder cfg s) (run : Run (DeedStep cfg) s xs t) :
    (∀ k, (t.proc k).alarm ≠ 0 → (t.proc k).priority.scheduled ∧ t.nextAlarm ≤ (t.proc k).alarm) ∧
    (∀ u k, t.clockHandler cfg = .ok u → (u.proc k).alarm ≠ 0 → (u.proc k).alarm ≤ u.getUptime →
      u.Owed (cfg.procAddr CLOCK)) ∧
    (∀ a n u, (Act.event (.tick a)).Proper cfg t → t.act cfg (.event (.tick a)) = .ok (n, u) → Ticked cfg t u) ∧
    ∀ a n u, (Act.event (.clock a)).Proper cfg t → (t.proc (cfg.procAddr CLOCK)).messbuf.mType = HARD_INT →
      t.act cfg (.event (.clock a)) = .ok (n, u) → AlarmsOff t.getUptime t u := by
  obtain ⟨⟨A, P, H, intact, alarms⟩, -⟩ := h.run run
  refine ⟨fun k on => ⟨alarms.set on, alarms.early on⟩, fun u k done on due => ?_, fun a n u proper done => ?_,
    fun a n u proper message done => ?_⟩
  · obtain ⟨charged, settled⟩ := intact.charge
    have early := alarms.settled settled
    unfold clockHandler at done
    dsimp only at done
    generalize t.charge cfg = v at *
    split at done
    · have task : (v.proc (cfg.procAddr CLOCK)).isTaskp := by simp [Proc.isTaskp, charged.table.clock]
      exact (charged.interrupt_owed task).completes u done
    · rename_i quiet
      have same : u.proc = v.proc ∧ u.getUptime = v.getUptime := by
        obtain rfl := Except.ok.inj done
        split
        · exact ⟨rfl, rfl⟩
        · exact ⟨rfl, rfl⟩
      obtain ⟨proc, uptime⟩ := same
      rw [proc] at on due
      rw [uptime] at due
      exact absurd (.inl ((early.early on).trans due)) quiet
  · obtain ⟨v, ticked, same⟩ := bind_eq_ok.1 done
    obtain ⟨-, rfl⟩ := Prod.mk.inj (pure_eq_ok.1 same)
    exact ((intact.clockTick alarms proper.1 proper.2).completes v ticked).2.2
  · obtain ⟨runs, -, duty⟩ := proper
    obtain ⟨v, served, same⟩ := bind_eq_ok.1 done
    obtain ⟨-, rfl⟩ := Prod.mk.inj (pure_eq_ok.1 same)
    exact ((intact.clockTask alarms duty (intact.toSound.clockAwake runs)).completes v served).2.2 message

theorem alarms_met_alarmed : (alarmed.proc 10).alarm = 1 ∧
    (∀ k, (alarmed.proc k).alarm ≠ 0 → (alarmed.proc k).priority.scheduled ∧ alarmed.nextAlarm ≤ (alarmed.proc k).alarm) ∧
    (∀ u k, alarmed.clockHandler minix = .ok u → (u.proc k).alarm ≠ 0 → (u.proc k).alarm ≤ u.getUptime →
      u.Owed (minix.procAddr CLOCK)) ∧
    (∃ a n u, (Act.event (.tick a)).Proper minix alarmed ∧ alarmed.act minix (.event (.tick a)) = .ok (n, u) ∧
      Ticked minix alarmed u ∧ (u.proc 10).alarm = 0) ∧
    ∀ a n u, (Act.event (.clock a)).Proper minix alarmed → (alarmed.proc (minix.procAddr CLOCK)).messbuf.mType = HARD_INT →
      alarmed.act minix (.event (.clock a)) = .ok (n, u) → AlarmsOff alarmed.getUptime alarmed u := by
  obtain ⟨xs, run⟩ := alarmed_comes
  obtain ⟨early, told, ticks, served⟩ := alarms_met atRest_inOrder run
  have proper : (Act.event (.tick (routine .other))).Proper minix alarmed := ⟨routine_sound alarmed_comes, routine_complete⟩
  have done : alarmed.act minix (.event (.tick (routine .other))) = .ok _ := act_after (by decide)
  exact ⟨by decide, early, told, ⟨_, _, _, proper, done, ticks _ _ _ proper done, by decide⟩, served⟩

/-- **The queue of held-up interrupts over a run** is a list of tasks that ends in its tail, with each task that is
marked, once. -/
theorem held_up_exact (h : InOrder cfg s) (run : Run (DeedStep cfg) s xs t) :
    ∃ held : List Nat, Listed t.heldlinks t.heldHead held ∧ (∀ k, held.getLast? = some k → t.heldTail = some k) ∧
      (∀ k, k ∈ held ↔ (t.proc k).intHeld) ∧ ∀ k ∈ held, (t.proc k).priority = .task := by
  obtain ⟨⟨A, P, H, intact, -⟩, -⟩ := h.run run
  exact ⟨H, intact.holds.listed, fun k => intact.holds.tail, fun k => intact.holds.marked, fun k => intact.holds.task⟩

theorem held_up_exact_held : heldUp.heldHead = some 4 ∧
    ∃ held : List Nat, Listed heldUp.heldlinks heldUp.heldHead held ∧ (∀ k, held.getLast? = some k → heldUp.heldTail = some k) ∧
      (∀ k, k ∈ held ↔ (heldUp.proc k).intHeld) ∧ ∀ k ∈ held, (heldUp.proc k).priority = .task := by
  obtain ⟨xs, run⟩ := heldUp_comes
  exact ⟨by decide, held_up_exact atRest_inOrder run⟩

/-- **No held-up interrupt is lost**: in a state of a run where they may be flushed, `unhold` ends, whatever interrupts
come in meanwhile. No interrupt is held up then, and every task whose interrupt was held up or that had been alerted
has the message of the interrupt, or will find it when it receives next. -/
theorem unhold_alerts {windows : List (List Int)} (h : InOrder cfg s) (run : Run (DeedStep cfg) s xs t)
    (proper : (Act.unhold windows).Proper cfg t) :
    ∃ u, t.unhold cfg windows = .ok u ∧ InOrder cfg u ∧ u.heldHead = none ∧ (∀ k, (u.proc k).intHeld = false) ∧
      ∀ k, (t.proc k).intHeld ∨ t.Alerted k → u.Alerted k := by
  obtain ⟨⟨A, P, H, intact, alarms⟩, mode⟩ := h.run run
  obtain ⟨outside, some, tasks⟩ := proper
  obtain ⟨u, done, ⟨B, P', H', intact', -, flushed⟩, kept⟩ := (intact.unhold outside some tasks).returns
  obtain rfl := flushed mode
  have free (k : Nat) : (u.proc k).intHeld = false := by
    cases held : (u.proc k).intHeld with
    | false => rfl
    | true => cases intact'.holds.marked.2 held
  have order : InOrder cfg u := ⟨⟨B, P', [], intact', alarms.settled kept.settled⟩, unhold_mode mode u done⟩
  refine ⟨u, done, order, intact'.holds.head, free, fun k owed => ?_⟩
  rcases kept.owed k owed with held | alerted
  · rw [free] at held
    cases held
  · exact alerted

theorem unhold_alerts_held : heldUp.heldHead = some 4 ∧
    ∃ u, heldUp.unhold minix [[-5]] = .ok u ∧ InOrder minix u ∧ u.heldHead = none ∧ (∀ k, (u.proc k).intHeld = false) ∧
      ∀ k, (heldUp.proc k).intHeld ∨ heldUp.Alerted k → u.Alerted k := by
  obtain ⟨xs, run⟩ := heldUp_comes
  have proper : (Act.unhold [[-5]]).Proper minix heldUp := by
    refine ⟨by decide, by decide, fun arrivals member n arrival => ?_⟩
    obtain rfl : arrivals = [-5] := by simpa using member
    obtain rfl : n = -5 := by simpa using arrival
    decide
  exact ⟨by decide, unhold_alerts atRest_inOrder run proper⟩

end Kernel

end SoiExercises.Sched
