import SoiExercises.Sched.Events
import SoiExercises.Sched.Quantum

/-!
# Who is charged for a quantum

The clock compares `bill_ptr` with `prev_ptr`, and `sched` charges the head of the user queue. The two are the
same process when the tick interrupts it; while a task or a server runs, `bill_ptr` is the last process that
was picked, whether it has blocked since or another one has been readied in front of it.
-/

namespace SoiExercises.Sched

open SoiExercises.Lib

namespace Kernel

/-- The time passes that the interrupt handler has counted. -/
def advance (s : Kernel) : Kernel := { s with realtime := s.realtime + s.pendingTicks, pendingTicks := 0 }

/-- `do_clocktick`, started in `s`, calls `lock_sched` in `u` since the quantum has ended with `bill_ptr` at
`prev_ptr`, and the call leads to `v`. -/
def CallsSched (cfg : Config) (hs : Handlers) (s u v : Kernel) : Prop :=
  ∃ t, s.checkAlarms cfg hs = .ok t ∧ u = { t with schedTicks := t.schedTicks - 1 } ∧ u.schedTicks = 0 ∧
    u.prevPtr = some u.billPtr ∧ u.lockSched cfg = .ok v

/-- The clock task serves a tick, and calls `lock_sched`. -/
def ServesSched (cfg : Config) (hs : Handlers) (s u v : Kernel) : Prop :=
  s.procPtr = cfg.procAddr CLOCK ∧ (s.proc (cfg.procAddr CLOCK)).messbuf.mType = HARD_INT ∧
    s.advance.CallsSched cfg hs u v

/-- `sched` has charged process `k`: it has counted a quantum, or moved the process from the head to the tail
of the user queue with its counter reset. -/
def Charged (k : Nat) (s t : Kernel) : Prop :=
  (t.proc k).timeCounter = (s.proc k).timeCounter + 1 ∨ s.Rotated k t

/-- The test for `sched` in `clock_handler`: the quantum ends, the billed process has had all of it, and a
user process is ready. -/
def EndsQuantum (s : Kernel) : Prop := s.schedTicks = 1 ∧ s.prevPtr = some s.billPtr ∧ s.rdyHead .userQ ≠ none

/-- The time of the turn of the clock task that the next tick leads to. -/
def nextTurn (s : Kernel) : Int := s.realtime + (s.pendingTicks + (s.lostTicks + 1))

/-- Neither a task nor a server is ready, a user process runs, and its alarm does not go off at the next tick. -/
structure Interruptible (s : Kernel) : Prop where
  taskQ : s.rdyHead .taskQ = none
  serverQ : s.rdyHead .serverQ = none
  user : (s.proc s.procPtr).isUserp
  notDue : (s.proc s.procPtr).alarm ≠ 0 → s.nextTurn < (s.proc s.procPtr).alarm

/-- The user process that is billed has neither blocked nor been preceded by another one, and its alarm does not
go off by `time`. -/
structure StillFirst (s : Kernel) (time : Int) : Prop where
  head : s.rdyHead .userQ = some s.billPtr
  user : (s.proc s.billPtr).isUserp
  notDue : (s.proc s.billPtr).alarm ≠ 0 → time < (s.proc s.billPtr).alarm

end Kernel

/-- In the event from `s`, `do_clocktick` calls `lock_sched` in `u`, which leads to `v`. -/
def SchedCall (cfg : Config) (s : Kernel) (e : Event) (u v : Kernel) : Prop :=
  match e with
  | .tick a => s.procPtr ≠ cfg.procAddr CLOCK ∧
      ∃ t, s.clockHandler cfg = .ok t ∧ t.ServesSched cfg (a.handlers cfg) u v
  | .clock a => s.ServesSched cfg (a.handlers cfg) u v
  | _ => False

/-- A quantum ends with a tick that interrupts a user process, or while the process that is billed is still the
first of the user queue. -/
def Event.Plain (s : Kernel) : Event → Prop
  | .tick _ => s.EndsQuantum → s.Interruptible ∨ s.StillFirst s.nextTurn
  | .clock _ => s.EndsQuantum → s.StillFirst (s.realtime + s.pendingTicks)
  | _ => True

namespace Kernel

variable {cfg : Config} {prio : Nat → Ppri} {s t u v : Kernel} {a : Agenda} {k : Nat}

/-- `sched` charges the head of the user queue. -/
theorem Charged.head (locked : u.lockSched cfg = .ok v) (charged : Charged k u v) : u.rdyHead .userQ = some k := by
  obtain ⟨t, called, done⟩ := bind_eq_ok.1 locked
  obtain rfl := pure_eq_ok.1 done
  rcases charged with counted | rotated
  · have counted : (t.proc k).timeCounter = (u.proc k).timeCounter + 1 := counted
    -- any other process keeps its counter
    have otherwise (kept : (t.proc k).timeCounter = (u.proc k).timeCounter) : u.rdyHead .userQ = some k := by omega
    rcases sched_cases called with ⟨-, rfl⟩ | ⟨head, first, -, rfl⟩ | ⟨head, first, spent, -, same⟩
    · exact otherwise rfl
    · by_cases hk : k = head
      · rw [hk]
        exact first
      · exact otherwise (congrArg Proc.timeCounter (update_proc_ne hk))
    · by_cases hk : k = head
      · rw [hk]
        exact first
      · exact otherwise ((same sameShare_frame k).timeCounter.trans (congrArg Proc.timeCounter (update_proc_ne hk)))
  · exact rotated.first

namespace Consistent

/-- The alarms of a tick leave alone what is watched. -/
theorem watchedAlarms {head : Option (Option Nat)} (h : Consistent cfg prio none s) (tasks : s.rdyHead .taskQ ≠ none)
    (sound : a.Sound cfg s) (first : ∀ b, head = some b → s.rdyHead .userQ = b)
    (notDue : ∀ b, head = some (some b) → (s.proc b).alarm ≠ 0 → s.realtime < (s.proc b).alarm)
    (other : head ≠ some (some (cfg.procAddr HARDWARE))) :
    Completes (Watched (s.watch head)) (s.checkAlarms cfg (a.handlers cfg)) := by
  intro t alarms
  have watched : Consistent cfg prio (some (s.watch head)) s := h.watch tasks first notDue
  refine (watched.checkAlarms sound (fun x hx pinned => ?_) t alarms).watched _ rfl
  obtain rfl := Option.some.inj hx
  exact other pinned

/-- If the quantum ends in a state in which the head of the user queue is billed, and its alarm is not due, the
head is still billed when `lock_sched` is called. -/
theorem callsSched (h : Consistent cfg prio none s) (tasks : s.rdyHead .taskQ ≠ none) (sound : a.Sound cfg s)
    (calls : s.CallsSched cfg (a.handlers cfg) u v)
    (billed : s.EndsQuantum → s.StillFirst s.realtime) : ∀ k, u.rdyHead .userQ = some k → k = u.billPtr := by
  intro k head
  obtain ⟨t, alarms, rfl, ended, same, -⟩ := calls
  have ended : t.schedTicks - 1 = 0 := ended
  have same : t.prevPtr = some t.billPtr := same
  have head : t.rdyHead .userQ = some k := head
  show k = t.billPtr
  cases first : s.rdyHead .userQ with
  | none =>
    -- nobody is readied by an alarm
    have empty : Watched (s.watch (some none)) t :=
      h.watchedAlarms tasks sound (fun b hb => Option.some.inj hb ▸ first) nofun nofun t alarms
    have kept := empty.head none rfl
    rw [head] at kept
    cases kept
  | some b =>
    have quiet : Completes (Watched (s.watch none)) (s.checkAlarms cfg (a.handlers cfg)) :=
      h.watchedAlarms tasks sound nofun nofun nofun
    have free := quiet t alarms
    have billPtr : t.billPtr = s.billPtr := free.billPtr
    have ends : s.EndsQuantum := by
      refine ⟨?_, ?_, ?_⟩
      · have schedTicks : t.schedTicks = s.schedTicks := free.schedTicks
        omega
      · have prevPtr : t.prevPtr = s.prevPtr := free.prevPtr
        rw [← prevPtr, ← billPtr]
        exact same
      · rw [first]
        exact Option.some_ne_none b
    obtain ⟨billed, user, notDue⟩ := billed ends
    have other : some (some s.billPtr) ≠ some (some (cfg.procAddr HARDWARE)) := by
      intro hardware
      unfold Proc.isUserp at user
      rw [h.typed.priority, Option.some.inj (Option.some.inj hardware), h.typed.roles.hardware] at user
      cases user
    have pinned : Watched (s.watch (some (some s.billPtr))) t := by
      refine h.watchedAlarms tasks sound (fun b' hb => Option.some.inj hb ▸ billed) (fun b' hb => ?_) other t alarms
      rw [← Option.some.inj (Option.some.inj hb)]
      exact notDue
    rw [billPtr]
    exact Option.some.inj (head.symm.trans (pinned.head _ rfl))

end Consistent

/-- The billing, the clock and the head of the user queue are as they were. -/
structure Apart (s t : Kernel) : Prop extends Alike s t where
  pendingTicks : t.pendingTicks = s.pendingTicks
  userQ : t.rdyHead .userQ = s.rdyHead .userQ

namespace Apart

theorem update {f : Proc → Proc} (h : Apart s t) (alarm : ∀ p, (f p).alarm = p.alarm) : Apart s (t.update k f) :=
  ⟨h.toAlike.update (.inr (alarm _)), h.pendingTicks, h.userQ⟩

theorem hold {rp : Nat} (h : Apart s t) : Completes (Apart s) (t.hold rp) := by
  have held : Apart s (t.update rp fun p => { p with intHeld := true }) := h.update fun _ => rfl
  have last {t : Kernel} (h : Apart s t) :
      Apart s ({ t with heldTail := some rp }.update rp fun p => { p with nextheld := none }) := by
    have tail : Apart s { t with heldTail := some rp } :=
      ⟨⟨h.billPtr, h.schedTicks, h.prevPtr, h.realtime, h.alarm⟩, h.pendingTicks, h.userQ⟩
    exact tail.update fun _ => rfl
  unfold Kernel.hold
  refine .ite (.ok h) ?_
  dsimp only
  split
  · split
    · exact .bind (.ok (held.update fun _ => rfl)) fun _ h₁ => .pure (last h₁)
    · exact .bind .error fun _ h₁ => .pure (last h₁)
  · have head : Apart s { t.update rp fun p => { p with intHeld := true } with heldHead := some rp } :=
      ⟨⟨held.billPtr, held.schedTicks, held.prevPtr, held.realtime, held.alarm⟩, held.pendingTicks, held.userQ⟩
    exact .bind (.ok head) fun _ h₁ => .pure (last h₁)

theorem append {q : Queue} {rp : Nat} (h : Apart s t) (system : q ≠ .userQ) : Completes (Apart s) (t.append q rp) := by
  refine Completes.bind (Q := Apart s) ?_ fun t h => .pure ?_
  · unfold linkLast
    split
    · unfold setTailNextready
      split
      · exact .ok (h.update fun _ => rfl)
      · exact .error
    · refine .ok ⟨⟨h.billPtr, h.schedTicks, h.prevPtr, h.realtime, h.alarm⟩, h.pendingTicks, ?_⟩
      exact (setHead_rdyHead_ne system.symm).trans h.userQ
  · have tail : Apart s (t.setTail q (some rp)) := ⟨h.toAlike.setTail, h.pendingTicks, h.userQ⟩
    exact tail.update fun _ => rfl

theorem interrupt {task : Int} (h : Apart s t) : Completes (Apart s) (t.interrupt cfg task) := by
  have woken : Apart s (t.update (cfg.procAddr task) fun p => { p with
      messbuf := ⟨HARDWARE, HARD_INT⟩
      flags := p.flags.erase .receiving
      intBlocked := false }) := h.update fun _ => rfl
  unfold Kernel.interrupt
  exact .ite h.hold (.ite (.ok (h.update fun _ => rfl)) (woken.append (by decide)))

end Apart

/-- A tick that lets the clock task run, which did not run before, has woken it and done nothing else. -/
theorem clockHandler_wakes (done : s.clockHandler cfg = .ok t) (before : s.procPtr ≠ cfg.procAddr CLOCK)
    (runs : t.procPtr = cfg.procAddr CLOCK) : Apart (s.charge cfg) t := by
  obtain ⟨proc, charged⟩ := charge_eq cfg s
  have running : (s.charge cfg).procPtr = s.procPtr := by rw [charged]
  have start : Apart (s.charge cfg) (s.charge cfg) := ⟨.refl, rfl, rfl⟩
  unfold clockHandler at done
  dsimp only at done
  split at done
  · exact start.interrupt t done
  · obtain rfl := Except.ok.inj done
    refine absurd ?_ before
    rw [← running, ← runs]
    split
    · rfl
    · rfl

/-- A user process that is interrupted is the head of the user queue, and is billed. -/
theorem Consistent.stillFirst (h : Consistent cfg prio none s) (ready : s.rdyHead .userQ ≠ none)
    (quiet : s.Interruptible) : s.StillFirst s.nextTurn := by
  obtain ⟨noTask, noServer, user, notDue⟩ := quiet
  obtain ⟨running, billed⟩ := h.settled noTask noServer
  obtain ⟨b, first⟩ := Option.ne_none_iff_exists'.1 ready
  have chosen : s.choice cfg = b := by
    unfold choice
    rw [first]
    rfl
  rw [running, chosen] at user notDue
  rw [chosen] at billed
  refine ⟨?_, ?_, ?_⟩
  · rw [first, billed]
  · rwa [billed]
  · rwa [billed]

/-- The process that is still the first when the handler is entered is so when the clock task serves the tick. -/
theorem StillFirst.advance (apart : Apart (s.charge cfg) t) (priority : ∀ k, (t.proc k).priority = (s.proc k).priority)
    (first : s.EndsQuantum → s.StillFirst s.nextTurn) (ends : t.advance.EndsQuantum) :
    t.advance.StillFirst t.advance.realtime := by
  obtain ⟨proc, charge⟩ := charge_eq cfg s
  have billPtr : t.billPtr = s.billPtr := apart.billPtr.trans (by rw [charge])
  have userQ : t.rdyHead .userQ = s.rdyHead .userQ := apart.userQ.trans (by rw [charge])
  have ends : s.EndsQuantum := by
    obtain ⟨schedTicks, prevPtr, ready⟩ := ends
    have schedTicks : t.schedTicks = 1 := schedTicks
    have prevPtr : t.prevPtr = some t.billPtr := prevPtr
    have ready : t.rdyHead .userQ ≠ none := ready
    rw [apart.schedTicks, charge] at schedTicks
    rw [apart.prevPtr, billPtr, charge] at prevPtr
    rw [userQ] at ready
    exact ⟨schedTicks, prevPtr, ready⟩
  obtain ⟨head, user, notDue⟩ := first ends
  refine ⟨?_, ?_, ?_⟩
  · show t.rdyHead .userQ = some t.billPtr
    rw [userQ, billPtr, head]
  · show (t.proc t.billPtr).isUserp
    unfold Proc.isUserp at user ⊢
    rwa [billPtr, priority]
  · show (t.proc t.billPtr).alarm ≠ 0 → t.realtime + t.pendingTicks < (t.proc t.billPtr).alarm
    rw [billPtr]
    intro set
    have same : ((s.charge cfg).proc s.billPtr).alarm = (s.proc s.billPtr).alarm :=
      bill_field Proc.alarm (fun _ _ => rfl) (fun _ _ => rfl) _
    rcases apart.alarm s.billPtr with off | kept
    · exact absurd off set
    · have realtime : t.realtime = s.realtime := apart.realtime.trans (by rw [charge])
      have pendingTicks : t.pendingTicks = s.pendingTicks + (s.lostTicks + 1) := apart.pendingTicks.trans (by rw [charge])
      rw [kept, same] at set ⊢
      rw [realtime, pendingTicks]
      exact notDue set

/-- **In a run of the kernel, an event that is plain charges the billed process only.** -/
theorem billed_is_charged {s₀ : Kernel} {es : List Event} (typed : Typed cfg prio s₀)
    (run : Run (EventStep cfg) (s₀.pickProc cfg) es s) :
    ∀ e t, EventStep cfg s e t → e.Plain s → ∀ u v, SchedCall cfg s e u v →
      ∀ k, Charged k u v → k = u.billPtr := by
  intro e t step plain u v call k charged
  have h : Consistent cfg prio none s := run.invariant Consistent.step (typed.pickProc nofun)
  have advanced {t : Kernel} (h : Consistent cfg prio none t) : Consistent cfg prio none t.advance :=
    h.renumber (h.typed.of_proc rfl h.typed.head h.typed.tail) rfl rfl rfl
  cases e with
  | sysCall => exact call.elim
  | interrupt => exact call.elim
  | clock a =>
    obtain ⟨runs, -, calls⟩ := call
    obtain ⟨t, -, -, -, -, locked⟩ := id calls
    refine (advanced h).callsSched (h.clockReady runs) ?_ calls (fun ends => ?_) k (charged.head locked)
    · exact h.typed.sound (advanced h).typed step.1
    · obtain ⟨head, user, notDue⟩ := plain ends
      exact ⟨head, user, notDue⟩
  | tick a =>
    obtain ⟨before, t₁, handled, runs, -, calls⟩ := call
    obtain ⟨t, -, -, -, -, locked⟩ := id calls
    have h₁ := advanced (h.clockHandler t₁ handled)
    have apart := clockHandler_wakes handled before runs
    have ready := (h.clockHandler t₁ handled).clockReady runs
    have kept (k : Nat) : (t₁.proc k).priority = (s.proc k).priority := by
      rw [h.typed.priority, (h.clockHandler t₁ handled).typed.priority]
    refine h₁.callsSched ready (h.typed.sound h₁.typed step.1) calls ?_ k (charged.head locked)
    refine StillFirst.advance apart kept fun ends => ?_
    rcases plain ends with interrupted | first
    · exact h.stillFirst ends.2.2 interrupted
    · exact first

/-- The tasks, the servers and two user processes. -/
def twoPrio (k : Nat) : Ppri :=
  if k = 2 ∨ k = 7 then .idle
  else if k < 8 then .task
  else if k < 10 then .server
  else if k < 12 then .user
  else .none

/-- Two ready processes; the tasks and the servers wait for messages. -/
def twoUsers : Kernel :=
  { initAt 0 10 with
    proc := fun k => { Proc.unused with
      nr := k - 8
      priority := twoPrio k
      userPriority := 10
      flags := if k < 10 then {.receiving} else ∅
      getfrom := ANY
      nextready := if k = 10 then some 11 else none }
    rdyTail := Function.update (fun _ => none) .userQ (some 11)
    nextAlarm := LONG_MAX
    schedTicks := minix.SCHED_RATE }

theorem twoUsers_typed : Typed minix twoPrio twoUsers where
  roles := {
    servers := fun n system => by
      have either : n = FS_PROC_NR ∨ n = MM_PROC_NR := by simpa [isSysentn] using system
      rcases either with rfl | rfl
      · rfl
      · rfl
    clock := rfl
    hardware := rfl
    idle := rfl }
  priority _ := rfl
  number _ := rfl
  head {q k} first := by
    cases q with
    | userQ =>
      obtain rfl : 10 = k := Option.some.inj first
      rfl
    | taskQ => cases first
    | serverQ => cases first
  tail {q k} last := by
    cases q with
    | userQ =>
      obtain rfl : 11 = k := Option.some.inj last
      rfl
    | taskQ => cases last
    | serverQ => cases last
  link {j k} linked := by
    have linked : (if j = 10 then some 11 else none) = some k := linked
    split at linked
    · obtain rfl : 11 = k := Option.some.inj linked
      subst j
      rfl
    · cases linked

theorem quiet_sound : Agenda.quiet.Sound cfg s where
  watched _ none := nomatch none
  wakes _ watchDog known s t done := by
    obtain rfl : Except.ok = watchDog := Option.some.inj known
    obtain rfl := Except.ok.inj done
    exact ⟨[], .nil s⟩

/-- `n` ticks. -/
def ticks : Nat → Kernel → Result Kernel
  | 0, s => .ok s
  | n + 1, s => do
    let s ← s.clockTick minix (Agenda.quiet.handlers minix)
    ticks n s

theorem run_ticks {n : Nat} (h : ticks n s = .ok t) :
    Run (EventStep minix) s (List.replicate n (.tick .quiet)) t := by
  induction n generalizing s with
  | zero =>
    obtain rfl := Except.ok.inj h
    exact .nil s
  | succ n ih =>
    obtain ⟨u, first, rest⟩ := bind_eq_ok.1 h
    exact Run.cons ⟨quiet_sound, first⟩ (ih rest)

/-- The kernel of `twoUsers` when the second quantum of the first process has one tick left. -/
def lastTick : Kernel :=
  match ticks 11 (twoUsers.pickProc minix) with
  | .ok s => s
  | .error _ => twoUsers

theorem lastTick_run : Run (EventStep minix) (twoUsers.pickProc minix) (List.replicate 11 (.tick .quiet)) lastTick :=
  run_ticks rfl

/-- The states of a tick: when the handler has woken the clock task, and around the call of `lock_sched`. -/
def aroundSched (s : Kernel) : Result (Kernel × Kernel × Kernel) := do
  let t ← s.clockHandler minix
  let u ← t.advance.checkAlarms minix (Agenda.quiet.handlers minix)
  let u := { u with schedTicks := u.schedTicks - 1 }
  let v ← u.lockSched minix
  return (t, u, v)

/-- The next tick counts a quantum of process `k`, while process `b` is billed. -/
def counts (b k : Nat) (s : Kernel) : Bool :=
  s.procPtr ≠ minix.procAddr CLOCK && (s.clockTick minix (Agenda.quiet.handlers minix)).toOption.isSome &&
    (aroundSched s).toOption.any fun (t, u, v) =>
      t.procPtr = minix.procAddr CLOCK && (t.proc (minix.procAddr CLOCK)).messbuf.mType = HARD_INT &&
        u.schedTicks = 0 && u.prevPtr = some u.billPtr &&
        (v.proc k).timeCounter = (u.proc k).timeCounter + 1 && u.billPtr = b

theorem schedCall_of_counts {b : Nat} (h : counts b k s) : ∃ t u v, EventStep minix s (.tick .quiet) t ∧
    SchedCall minix s (.tick .quiet) u v ∧ Charged k u v ∧ u.billPtr = b := by
  unfold counts at h
  simp only [Bool.and_eq_true, decide_eq_true_eq] at h
  obtain ⟨⟨before, completes⟩, around⟩ := h
  obtain ⟨⟨t, u, v⟩, done, facts⟩ := ok_of_any around
  obtain ⟨next, ticked⟩ : ∃ next, s.clockTick minix (Agenda.quiet.handlers minix) = .ok next := by
    cases h : s.clockTick minix (Agenda.quiet.handlers minix) with
    | error e =>
      rw [h] at completes
      cases completes
    | ok next => exact ⟨next, rfl⟩
  unfold aroundSched at done
  simp only [bind_eq_ok, pure_eq_ok, Prod.mk.injEq] at done
  obtain ⟨_, handled, _, alarms, _, locked, rfl, rfl, rfl⟩ := done
  simp only [Bool.and_eq_true, decide_eq_true_eq] at facts
  obtain ⟨⟨⟨⟨⟨runs, message⟩, ended⟩, same⟩, counted⟩, billed⟩ := facts
  exact ⟨next, _, _, ⟨quiet_sound, ticked⟩, ⟨before, _, handled, runs, message, _, alarms, rfl, ended, same, locked⟩,
    .inl counted, billed⟩

/-- The first of two processes runs to the end of its quantum, and is counted. -/
theorem billed_is_charged_first : ∃ t u v, EventStep minix lastTick (.tick .quiet) t ∧
    SchedCall minix lastTick (.tick .quiet) u v ∧ Charged 10 u v ∧ ∀ k, Charged k u v → k = u.billPtr := by
  obtain ⟨t, u, v, step, call, charged, -⟩ := schedCall_of_counts (show counts 10 10 lastTick by decide +kernel)
  refine ⟨t, u, v, step, call, charged, billed_is_charged twoUsers_typed lastTick_run _ t step ?_ u v call⟩
  refine fun _ => .inl ⟨by decide +kernel, by decide +kernel, by decide +kernel, fun set => absurd ?_ set⟩
  decide +kernel

/-- The first of two processes calls FS just before the end of its quantum. The tick then finds FS running and
the other process, which has not run at all, at the head of the user queue. -/
theorem charged_for_another : Typed minix twoPrio twoUsers ∧ ∃ s t u v,
    Run (EventStep minix) (twoUsers.pickProc minix)
      (List.replicate 11 (.tick .quiet) ++ [.sysCall .both FS_PROC_NR ⟨2, 3⟩ true]) s ∧
    EventStep minix s (.tick .quiet) t ∧ SchedCall minix s (.tick .quiet) u v ∧
    Charged 11 u v ∧ u.billPtr = 10 := by
  have blocked : (lastTick.sysCall minix (Agenda.quiet.handlers minix) .both FS_PROC_NR ⟨2, 3⟩ true).toOption.any
      fun r => counts 10 11 r.2 := by decide +kernel
  obtain ⟨⟨n, s⟩, called, charges⟩ := ok_of_any blocked
  obtain ⟨t, u, v, step, call, charged, billed⟩ := schedCall_of_counts charges
  have caller : (lastTick.proc lastTick.procPtr).isUserp := by decide +kernel
  exact ⟨twoUsers_typed, s, t, u, v, lastTick_run.snoc ⟨.inr (.inr caller), n, called⟩, step, call, charged, billed⟩

end Kernel

end SoiExercises.Sched
