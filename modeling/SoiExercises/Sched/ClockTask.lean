import SoiExercises.Sched.Calls
import SoiExercises.Sched.Events

/-!
# The clock task

Alarms, the end of a tick and the requests to the clock task lead from an intact kernel to an intact one.
`Alarms` says that `next_alarm` is not later than any alarm, so the alarms that are due at a tick that the
clock task serves go off, and no others (`AlarmsOff`).
-/

namespace SoiExercises.Sched

open SoiExercises.Lib

/-- On an intact kernel the watch dogs complete. -/
def Agenda.Complete (cfg : Config) (a : Agenda) : Prop :=
  ∀ n watchDog, a.watchDog n = some watchDog → ∀ s A P H, Kernel.Intact cfg s A P H → ∃ t, watchDog s = .ok t

/-- The ways in which the kernel panics by design. -/
def Fault.Documented (e : Fault) : Prop := e.Overrun ∨ e = .panic "clock task got bad message"

/-- An alarm is set for a process. -/
def Request.Proper (cfg : Config) (s : Kernel) : Request → Prop
  | .setAlarm proc_nr delta_ticks | .setSyncAl proc_nr delta_ticks =>
      delta_ticks ≠ 0 → (s.proc (cfg.procAddr proc_nr)).priority.scheduled
  | _ => True

namespace Kernel

/-- Alarms are set for processes, and none of them is before `next_alarm`. -/
structure Alarms (s : Kernel) : Prop where
  set : ∀ {k}, (s.proc k).alarm ≠ 0 → (s.proc k).priority.scheduled
  early : ∀ {k}, (s.proc k).alarm ≠ 0 → s.nextAlarm ≤ (s.proc k).alarm

variable {cfg : Config} {s t u : Kernel} {A B : Scheduler} {P P' : Mail} {H : List Nat} {k rp : Nat} {a : Agenda} {n : Int}

theorem Alarms.settled (h : Alarms s) (settled : Settled s t) : Alarms t where
  set {k} alarm := by
    rw [settled.alarm] at alarm
    rw [settled.priority]
    exact h.set alarm
  early {k} alarm := by
    rw [settled.alarm] at alarm ⊢
    rw [settled.nextAlarm]
    exact h.early alarm

theorem NobodyBlocked.tasksRun (h : NobodyBlocked s t) : TasksRun s t := fun k _ => h k

/-- The kernel went on by the protocol, and everybody has his role and his alarm still. -/
structure Onward (cfg : Config) (s : Kernel) (P : Mail) (t : Kernel) : Prop where
  advanced : Advanced cfg P Post.nothing t
  settled : Settled s t
  tasks : TasksRun s t

theorem Advanced.after (h : Advanced cfg P' Post.nothing t) (run : Passes cfg P Post.nothing P') :
    Advanced cfg P Post.nothing t := by
  obtain ⟨B, P'', H, intact, run'⟩ := h
  exact ⟨B, P'', H, intact, run.silently run'⟩

theorem TasksRun.trans (h : TasksRun s t) (priority : ∀ k, (t.proc k).priority = (s.proc k).priority) (h' : TasksRun t u) :
    TasksRun s u := fun k task => (h' k ((priority k).trans task)).trans (h k task)

/-- The clock task is not blocked. -/
def ClockAwake (cfg : Config) (s : Kernel) : Prop := (s.proc (cfg.procAddr CLOCK)).flags = ∅

theorem Sound.clockAwake (h : Sound cfg s A P) (runs : s.procPtr = cfg.procAddr CLOCK) : ClockAwake cfg s := by
  have running := h.running
  rw [runs, h.table.clock] at running
  exact running rfl

theorem TasksRun.clockAwake (h : TasksRun s t) (table : Table cfg s) (awake : ClockAwake cfg s) : ClockAwake cfg t := by
  have fewer := h _ table.clock
  rw [show (s.proc (cfg.procAddr CLOCK)).flags = ∅ from awake] at fewer
  exact Finset.subset_empty.1 fewer

/-- A task that is awake has the turn, or another task has it. -/
theorem Sound.task_inSystem (h : Sound cfg s A P) (task : (s.proc k).priority = .task) (awake : (s.proc k).flags = ∅) :
    s.InSystem := by
  have here : k ∈ A.line .taskQ := by
    have member := h.manned.members (k := k)
    rw [task] at member
    exact member.2 ⟨awake, rfl⟩
  obtain ⟨rp, first⟩ : ∃ rp, (A.line .taskQ).head? = some rp := by
    cases line : A.line .taskQ with
    | nil => simp [line] at here
    | cons rp l => exact ⟨rp, rfl⟩
  have runs : s.procPtr = rp := h.manned.lined.procPtr.trans (h.manned.current.task first)
  unfold InSystem
  rw [runs, h.manned.lined.kind (List.mem_of_head? first)]
  decide

theorem Sound.inSystem (h : Sound cfg s A P) (awake : ClockAwake cfg s) : s.InSystem :=
  h.task_inSystem h.table.clock awake

namespace Intact

/-- A message of the clock task to a process that waits for it. -/
theorem reply {m : Message} (h : Intact cfg s A P H) (awake : ClockAwake cfg s)
    (waits : (s.proc (cfg.procAddr n)).waitsFor (s.proc (cfg.procAddr CLOCK)).nr) :
    Returns (fun r => Onward cfg s P r.2) (s.miniSend cfg (cfg.procAddr CLOCK) n m true) := by
  have free : .sending ∉ (s.proc (cfg.procAddr CLOCK)).flags := by
    rw [show (s.proc (cfg.procAddr CLOCK)).flags = ∅ from awake]
    exact Finset.notMem_empty _
  have clock : (s.proc (cfg.procAddr CLOCK)).isUserp = false := by simp [Proc.isUserp, h.table.clock]
  have present : (s.proc (cfg.procAddr n)).isEmptyp = false := by
    obtain ⟨receiving, -⟩ := (waitsFor_iff (h.posted.number _)).1 waits
    have scheduled := h.table.live receiving
    cases priority : (s.proc (cfg.procAddr n)).priority with
    | none => simp [priority, Ppri.scheduled] at scheduled
    | _ => simp [Proc.isEmptyp, priority]
  rw [miniSend_waits clock present waits]
  refine (h.toSound.deliver free waits fun _ => h.toSound.inSystem awake).bind ?_
  rintro t ⟨⟨B, sound⟩, step, steady, waits', others, here, -⟩
  refine Ends.pure ⟨⟨B, _, H, ⟨⟨sound, h.signals.steady steady, h.informed.noNewWaits waits' steady.sigProcs⟩,
    h.holds.stable steady.toStable⟩, .hand_of_other step fun counts => counts.2 rfl⟩, steady.toStable.settled, fun k _ => ?_⟩
  by_cases hk : k = cfg.procAddr n
  · rw [hk, here]
    exact Finset.erase_subset ..
  · rw [others k hk]

/-- A watch dog wakes a task. -/
theorem wakes {task : Int} (h : Intact cfg s A P H) (awake : ClockAwake cfg s) (step : Wakes cfg s task t) :
    Onward cfg s P t := by
  cases step with
  | interrupt isTask done =>
    obtain ⟨advanced, settled, nobody, -⟩ := (h.interrupt isTask).completes t done
    exact ⟨advanced, settled, nobody.tasksRun⟩
  | send isTask waits done =>
    exact (h.reply awake waits).completes (.OK, t) done

theorem onward (h : Intact cfg s A P H) : Onward cfg s P s :=
  ⟨⟨A, P, H, h, .refl P⟩, (Stable.refl s).settled, .refl s⟩

end Intact

theorem Onward.trans (h : Onward cfg s P t) (next : ∀ A P H, Intact cfg t A P H → Onward cfg t P u) : Onward cfg s P u := by
  obtain ⟨⟨A, P', H, intact, run⟩, settled, tasks⟩ := h
  have onward := next A P' H intact
  exact ⟨onward.advanced.after run, settled.trans onward.settled, tasks.trans settled.priority onward.tasks⟩

theorem Onward.clockAwake (h : Onward cfg s P t) (table : Table cfg s) (awake : ClockAwake cfg s) : ClockAwake cfg t :=
  h.tasks.clockAwake table awake

namespace Intact

/-- **An alarm goes off**: its watch dog runs, or the process is signalled. -/
theorem alarm (h : Intact cfg s A P H) (sound : a.Sound cfg s) (complete : a.Complete cfg) (awake : ClockAwake cfg s)
    (scheduled : (s.proc (cfg.procAddr n)).priority.scheduled) :
    Ends Fault.Overrun (Onward cfg s P) ((a.handlers cfg).alarm n s) := by
  unfold Agenda.handlers
  dsimp only
  cases known : a.watchDog n with
  | some watchDog =>
    obtain ⟨t, done⟩ := complete n watchDog known s A P H h
    obtain ⟨tasks, run⟩ := sound.wakes n watchDog known s t done
    dsimp only
    rw [done]
    have next {s₁ s₂ : Kernel} {task : Int} (onward : Onward cfg s P s₁) (step : Wakes cfg s₁ task s₂) : Onward cfg s P s₂ :=
      onward.trans fun A₁ P₁ H₁ intact => intact.wakes (onward.clockAwake h.table awake) step
    have woken : Onward cfg s P t := run.invariant next h.onward
    exact Ends.ok woken
  | none =>
    have notTask : (s.proc (cfg.procAddr n)).priority ≠ .task := by simpa [Proc.isTaskp] using sound.watched n known
    refine (h.toValid.causeSig scheduled notTask).imp ?_
    rintro t ⟨⟨B, P', valid, run, stable⟩, tasks, -⟩
    exact ⟨⟨B, P', H, ⟨valid, h.holds.stable stable⟩, run⟩, stable.settled, tasks⟩

/-- Variables that the invariants are not about have changed. -/
theorem of_eq (h : Intact cfg s A P H) (proc : t.proc = s.proc) (rdyHead : t.rdyHead = s.rdyHead)
    (rdyTail : t.rdyTail = s.rdyTail) (procPtr : t.procPtr = s.procPtr) (billPtr : t.billPtr = s.billPtr)
    (sigProcs : t.sigProcs = s.sigProcs) (heldHead : t.heldHead = s.heldHead) (heldTail : t.heldTail = s.heldTail) :
    Intact cfg t A P H where
  toValid := h.toValid.aside (.of_eq proc rdyHead rdyTail procPtr billPtr sigProcs)
  holds := by
    refine ⟨?_, fun last => ?_, fun {k} => ?_, fun {k} hk => ?_⟩
    · unfold heldlinks
      rw [proc, heldHead]
      exact h.holds.listed
    · rw [heldTail]
      exact h.holds.tail last
    · rw [proc]
      exact h.holds.marked
    · rw [proc]
      exact h.holds.task hk

theorem update {f : Proc → Proc} (h : Intact cfg s A P H) (same : SamePart (s.proc k) (f (s.proc k)))
    (intHeld : (f (s.proc k)).intHeld = (s.proc k).intHeld) (nextheld : (f (s.proc k)).nextheld = (s.proc k).nextheld) :
    Intact cfg (s.update k f) A P H :=
  ⟨h.toValid.aside (.update same), h.holds.update intHeld nextheld same.priority⟩

theorem onward_of_aside (h : Intact cfg s A P H) (aside : Aside s t) (holds : Holds t H) :
    Advanced cfg P Post.nothing t ∧ TasksRun s t :=
  ⟨⟨A, P, H, ⟨h.toValid.aside aside, holds⟩, .refl P⟩, fun k _ => by rw [(aside.proc k).flags]⟩

end Intact

/-- The alarm of `rp` has gone off if it was due, and counts for `next_alarm` if not. -/
structure Checked (rp : Nat) (s t : Kernel) : Prop where
  priority : ∀ k, (t.proc k).priority = (s.proc k).priority
  realtime : t.realtime = s.realtime
  others : ∀ k, k ≠ rp → (t.proc k).alarm = (s.proc k).alarm
  alarm : (t.proc rp).alarm = if (s.proc rp).alarm ≤ s.realtime then 0 else (s.proc rp).alarm
  next : t.nextAlarm ≤ s.nextAlarm
  early : (t.proc rp).alarm ≠ 0 → t.nextAlarm ≤ (t.proc rp).alarm

theorem Intact.checkAlarm (h : Intact cfg s A P H) (sound : a.Sound cfg s) (complete : a.Complete cfg)
    (awake : ClockAwake cfg s) (set : (s.proc rp).alarm ≠ 0 → (s.proc rp).priority.scheduled) :
    Ends Fault.Overrun (fun t => Advanced cfg P Post.nothing t ∧ TasksRun s t ∧ Checked rp s t) (checkAlarm (a.handlers cfg) s rp) := by
  unfold Kernel.checkAlarm
  refine .ite (fun off => ?_) fun on => ?_
  · refine Ends.ok ⟨h.onward.advanced, .refl s, fun _ => rfl, rfl, fun _ _ => rfl, ?_, le_refl _, fun on => absurd off on⟩
    rw [off]
    simp
  · split
    · rename_i due
      have slot : cfg.procAddr (s.proc rp).nr = rp := by
        unfold Config.procAddr
        rw [h.posted.number]
        omega
      refine Ends.bind (h.alarm (n := (s.proc rp).nr) sound complete awake (by rw [slot]; exact set on))
        fun t onward => Ends.pure ?_
      obtain ⟨⟨B, P', H', intact, run⟩, settled, tasks⟩ := onward
      have aside : Aside t (t.update rp fun p => { p with alarm := 0 }) :=
        .update ⟨⟨rfl, rfl, rfl, rfl, rfl, Iff.rfl, Iff.rfl⟩, rfl, rfl, rfl, rfl, rfl⟩
      have stopped : ((t.update rp fun p => { p with alarm := 0 }).proc rp).alarm = 0 := by rw [update_proc_self]
      obtain ⟨advanced, still⟩ := intact.onward_of_aside aside (intact.holds.update rfl rfl rfl)
      refine ⟨advanced.after run, tasks.trans settled.priority still, ?_⟩
      constructor
      case priority => exact fun k => (update_field Proc.priority (by rfl) k).trans (settled.priority k)
      case realtime => exact settled.realtime
      case others =>
        intro k hk
        rw [update_proc_ne hk]
        exact settled.alarm k
      case alarm => rw [stopped, if_pos due]
      case next => exact settled.nextAlarm.le
      case early => exact fun on => absurd stopped on
    · rename_i early
      refine Ends.bind (Ends.ok (Q := fun t => s = t) rfl) ?_
      rintro _ rfl
      have kept : (s.proc rp).alarm = if (s.proc rp).alarm ≤ s.realtime then 0 else (s.proc rp).alarm := by rw [if_neg early]
      split
      · rename_i sooner
        have aside : Aside s { s with nextAlarm := (s.proc rp).alarm } := .of_eq rfl rfl rfl rfl rfl rfl
        obtain ⟨advanced, still⟩ := h.onward_of_aside aside ⟨h.holds.listed, h.holds.tail, h.holds.marked, h.holds.task⟩
        exact Ends.pure ⟨advanced, still, fun _ => rfl, rfl, fun _ _ => rfl, kept, sooner.2.le, fun _ => le_refl _⟩
      · rename_i later
        refine Ends.pure ⟨h.onward.advanced, .refl s, fun _ => rfl, rfl, fun _ _ => rfl, kept, le_refl _, fun on => ?_⟩
        by_contra sooner
        exact later ⟨on, by omega⟩

/-- The alarms of the processes `done` have been checked since `s`. -/
structure Fired (s : Kernel) (done : List Nat) (t : Kernel) : Prop where
  priority : ∀ k, (t.proc k).priority = (s.proc k).priority
  realtime : t.realtime = s.realtime
  alarm : ∀ k, (t.proc k).alarm = if k ∈ done ∧ (s.proc k).alarm ≤ s.realtime then 0 else (s.proc k).alarm
  early : ∀ k ∈ done, (t.proc k).alarm ≠ 0 → t.nextAlarm ≤ (t.proc k).alarm

theorem Fired.check {done : List Nat} (h : Fired s done t) (fresh : rp ∉ done) (checked : Checked rp t u) :
    Fired s (done ++ [rp]) u where
  priority k := (checked.priority k).trans (h.priority k)
  realtime := checked.realtime.trans h.realtime
  alarm k := by
    by_cases hk : k = rp
    · subst hk
      have same : (t.proc k).alarm = (s.proc k).alarm := by rw [h.alarm, if_neg fun both => fresh both.1]
      rw [checked.alarm, same, h.realtime]
      simp
    · rw [checked.others k hk, h.alarm]
      simp [hk]
  early k hk on := by
    rcases List.mem_append.1 hk with old | new
    · have ne : k ≠ rp := by
        rintro rfl
        exact fresh old
      rw [checked.others k ne] at on ⊢
      exact checked.next.trans (h.early k old on)
    · obtain rfl := List.mem_singleton.1 new
      exact checked.early on

/-- **The loop over the alarms**: the alarms that are due go off, and `next_alarm` is not after the others. -/
theorem Intact.checkAlarms (h : Intact cfg s A P H) (alarms : Alarms s) (sound : a.Sound cfg s) (complete : a.Complete cfg)
    (awake : ClockAwake cfg s) :
    Ends Fault.Overrun (fun t => Advanced cfg P Post.nothing t ∧ TasksRun s t ∧ (∀ k, (t.proc k).priority = (s.proc k).priority) ∧
      Alarms t ∧ t.realtime = s.realtime ∧
      ∀ k, (t.proc k).alarm = if (s.proc k).alarm ≤ s.realtime then 0 else (s.proc k).alarm)
      (s.checkAlarms cfg (a.handlers cfg)) := by
  unfold Kernel.checkAlarms
  have inside {k : Nat} (on : (s.proc k).alarm ≠ 0) : k < cfg.endProcAddr := h.table.inside (alarms.set on)
  refine .ite (fun due => ?_) fun notDue => ?_
  · refine (Ends.foldlM (Q := fun done t => Advanced cfg P Post.nothing t ∧ TasksRun s t ∧ Fired s done t) ?init ?kept).imp ?done
    case init =>
      have aside : Aside s { s with nextAlarm := LONG_MAX } := .of_eq rfl rfl rfl rfl rfl rfl
      obtain ⟨advanced, tasks⟩ := h.onward_of_aside aside ⟨h.holds.listed, h.holds.tail, h.holds.marked, h.holds.task⟩
      refine ⟨advanced, tasks, fun _ => rfl, rfl, fun k => ?_, fun k hk => absurd hk List.not_mem_nil⟩
      simp
    case kept =>
      rintro done rp rest t split ⟨⟨B, P', H', intact, run⟩, tasks, fired⟩
      have fresh : rp ∉ done := by
        have distinct := List.nodup_range (n := cfg.endProcAddr)
        rw [split, List.nodup_append] at distinct
        exact fun again => distinct.2.2 rp again rp List.mem_cons_self rfl
      have sound' : a.Sound cfg t := by
        refine ⟨fun n none => ?_, sound.wakes⟩
        unfold Proc.isTaskp
        rw [fired.priority]
        exact sound.watched n none
      have set (on : (t.proc rp).alarm ≠ 0) : (t.proc rp).priority.scheduled := by
        rw [fired.alarm, if_neg fun both => fresh both.1] at on
        rw [fired.priority]
        exact alarms.set on
      refine (intact.checkAlarm sound' complete (tasks.clockAwake h.table awake) set).imp ?_
      rintro u ⟨advanced, tasks', checked⟩
      exact ⟨advanced.after run, tasks.trans fired.priority tasks', fired.check fresh checked⟩
    case done =>
      rintro t ⟨advanced, tasks, fired⟩
      have alarm (k : Nat) : (t.proc k).alarm = if (s.proc k).alarm ≤ s.realtime then 0 else (s.proc k).alarm := by
        rw [fired.alarm]
        by_cases on : (s.proc k).alarm = 0
        · simp [on]
        · simp [inside on]
      have still {k : Nat} (on : (t.proc k).alarm ≠ 0) : (s.proc k).alarm ≠ 0 := by
        intro off
        rw [alarm, off] at on
        simp at on
      refine ⟨advanced, tasks, fired.priority, ⟨fun {k} on => ?_, fun {k} on => ?_⟩, fired.realtime, alarm⟩
      · rw [fired.priority]
        exact alarms.set (still on)
      · exact fired.early k (List.mem_range.2 (inside (still on))) on
  · refine Ends.ok ⟨h.onward.advanced, .refl s, fun _ => rfl, alarms, rfl, fun k => ?_⟩
    split
    · rename_i due
      by_contra on
      have early := alarms.early on
      omega
    · rfl

/-- The queues have changed, and hold who is awake still. -/
theorem Intact.requeued (h : Intact cfg s A P H) (manned : Manned cfg t B fun k => (s.proc k).flags = ∅)
    (requeued : Requeued s t) : Intact cfg t B P H where
  table := h.table.requeued requeued
  manned := by
    refine manned.congr rfl (fun _ => rfl) rfl rfl rfl rfl fun k _ => ?_
    rw [requeued_flags requeued]
  posted := h.posted.requeued requeued
  signals := h.signals.steady (.requeued requeued)
  informed := by
    refine h.informed.noNewWaits (fun k receiving => ?_) (Steady.requeued requeued).sigProcs
    rw [requeued_flags requeued] at receiving
    exact ⟨receiving, requeued_getfrom requeued k⟩
  holds := h.holds.stable (.requeued requeued)

theorem Requeued.onward (h : Requeued s t) : Settled s t ∧ TasksRun s t :=
  ⟨(Stable.requeued h).settled, fun k _ => by rw [requeued_flags h]⟩

/-- **The end of a tick**: the quantum may be over. -/
theorem Intact.endTick (h : Intact cfg s A P H) : Returns (Onward cfg s P) (s.endTick cfg) := by
  have counted : Intact cfg { s with schedTicks := s.schedTicks - 1 } A P H := h.of_eq rfl rfl rfl rfl rfl rfl rfl rfl
  -- whatever `sched` did, the numbers of the quantum are set afterwards
  have last {t : Kernel} {B : Scheduler} (intact : Intact cfg t B P H) (settled : Settled s t) (tasks : TasksRun s t) :
      Onward cfg s P { t with schedTicks := cfg.SCHED_RATE, prevPtr := some t.billPtr } := by
    refine ⟨⟨B, P, H, intact.of_eq rfl rfl rfl rfl rfl rfl rfl rfl, .refl P⟩, ?_, tasks⟩
    exact ⟨settled.priority, settled.alarm, settled.realtime, settled.nextAlarm⟩
  have settled : Settled s { s with schedTicks := s.schedTicks - 1 } := ⟨fun _ => rfl, fun _ => rfl, rfl, rfl⟩
  unfold Kernel.endTick
  dsimp only
  split
  · split
    · unfold lockSched
      have locked : Intact cfg { s with schedTicks := s.schedTicks - 1, switching := true } A P H :=
        counted.of_eq rfl rfl rfl rfl rfl rfl rfl rfl
      refine Ends.bind (Ends.bind locked.manned.sched fun t ⟨B, manned, requeued⟩ => Ends.pure
        (Q := fun t' => ∃ t B, Manned cfg t B (fun k => (s.proc k).flags = ∅) ∧
          Requeued { s with schedTicks := s.schedTicks - 1, switching := true } t ∧ t' = { t with switching := false })
        ⟨t, B, manned, requeued, rfl⟩) ?_
      rintro _ ⟨t, B, manned, requeued, rfl⟩
      obtain ⟨settled', tasks⟩ := requeued.onward
      refine Ends.pure (last ((locked.requeued manned requeued).of_eq rfl rfl rfl rfl rfl rfl rfl rfl) ?_ tasks)
      exact ⟨settled'.priority, settled'.alarm, settled'.realtime, settled'.nextAlarm⟩
    · refine Ends.bind (Ends.ok (Q := fun t => t = { s with schedTicks := s.schedTicks - 1 }) rfl) ?_
      rintro _ rfl
      exact Ends.pure (last counted settled (.refl _))
  · exact Ends.pure ⟨⟨A, P, H, counted, .refl P⟩, settled, .refl _⟩

/-- The search for the next alarm finds one that is not after any that is set. -/
theorem foldl_early {s : Kernel} {rps : List Nat} {v : Int} :
    let found := rps.foldl (fun next rp => if (s.proc rp).alarm ≠ 0 ∧ (s.proc rp).alarm < next then (s.proc rp).alarm else next) v
    found ≤ v ∧ ∀ rp ∈ rps, (s.proc rp).alarm ≠ 0 → found ≤ (s.proc rp).alarm := by
  induction rps generalizing v with
  | nil => exact ⟨le_refl _, fun rp hrp => absurd hrp List.not_mem_nil⟩
  | cons x rps ih =>
    dsimp only
    rw [List.foldl_cons]
    obtain ⟨bound, early⟩ := ih (v := if (s.proc x).alarm ≠ 0 ∧ (s.proc x).alarm < v then (s.proc x).alarm else v)
    refine ⟨bound.trans ?_, fun rp hrp on => ?_⟩
    · split
      · rename_i sooner
        exact sooner.2.le
      · exact le_refl _
    · rcases List.mem_cons.1 hrp with rfl | later
      · refine bound.trans ?_
        split
        · exact le_refl _
        · rename_i notSooner
          by_contra sooner
          exact notSooner ⟨on, by omega⟩
      · exact early rp later on

/-- **An alarm is set**, and `next_alarm` is computed anew. -/
theorem Intact.setalarm {delta : Int} (h : Intact cfg s A P H) (alarms : Alarms s)
    (scheduled : delta ≠ 0 → (s.proc (cfg.procAddr n)).priority.scheduled) :
    Intact cfg (s.commonSetalarm cfg n delta) A P H ∧ Alarms (s.commonSetalarm cfg n delta) ∧
      Aside s (s.commonSetalarm cfg n delta) := by
  have intact : Intact cfg (s.update (cfg.procAddr n) fun p => { p with
      alarm := if delta = 0 then 0 else s.realtime + delta }) A P H :=
    h.update ⟨⟨rfl, rfl, rfl, rfl, rfl, Iff.rfl, Iff.rfl⟩, rfl, rfl, rfl, rfl, rfl⟩ rfl rfl
  have set {k : Nat} (on : ((s.update (cfg.procAddr n) fun p => { p with
      alarm := if delta = 0 then 0 else s.realtime + delta }).proc k).alarm ≠ 0) : (s.proc k).priority.scheduled := by
    by_cases hk : k = cfg.procAddr n
    · subst hk
      rw [update_proc_self] at on
      apply scheduled
      rintro rfl
      exact on rfl
    · rw [update_proc_ne hk] at on
      exact alarms.set on
  have aside : Aside s (s.update (cfg.procAddr n) fun p => { p with
      alarm := if delta = 0 then 0 else s.realtime + delta }) :=
    .update ⟨⟨rfl, rfl, rfl, rfl, rfl, Iff.rfl, Iff.rfl⟩, rfl, rfl, rfl, rfl, rfl⟩
  unfold commonSetalarm
  refine ⟨intact.of_eq rfl rfl rfl rfl rfl rfl rfl rfl, ⟨fun {k} on => ?_, fun {k} on => ?_⟩,
    aside.trans (.of_eq rfl rfl rfl rfl rfl rfl)⟩
  · dsimp only
    rw [update_field Proc.priority (by rfl)]
    exact set on
  · exact foldl_early.2 k (List.mem_range.2 (h.table.inside (set on))) on

theorem documented {α : Type} {Q : α → Prop} {x : Result α} (h : Ends Fault.Overrun Q x) : Ends Fault.Documented Q x :=
  h.mono (fun _ overrun => .inl overrun) fun _ holds => holds

/-- The clock task is awake, or blocked in `send`. -/
def ClockAnswers (cfg : Config) (s : Kernel) : Prop :=
  ClockAwake cfg s ∨ .sending ∈ (s.proc (cfg.procAddr CLOCK)).flags

/-- **The clock task answers**: the message passes, or it is blocked until the other process receives, or the other
process is not there any more. -/
theorem Intact.answer {m : Message} (h : Intact cfg s A P H) (awake : ClockAwake cfg s) (valid : 0 ≤ n + cfg.NR_TASKS)
    (other : cfg.procAddr n ≠ cfg.procAddr CLOCK) :
    Ends Fault.Overrun (fun r => Advanced cfg P Post.nothing r.2 ∧ Settled s r.2 ∧ ClockAnswers cfg r.2)
      (s.miniSend cfg (cfg.procAddr CLOCK) n m true) := by
  have scheduled : (s.proc (cfg.procAddr CLOCK)).priority.scheduled := by
    rw [h.table.clock]
    rfl
  refine (h.toSound.miniSend awake valid other (.inl scheduled) fun _ _ => h.toSound.inSystem awake).imp ?_
  rintro r sent
  obtain ⟨B, P', intact, run, stable⟩ := sent.moved.carried h.signals h.informed sent.waits
  have silent : Passes cfg P Post.nothing P' := by
    split at run
    · exact run.of_other fun counts => counts.2 rfl
    · exact run
  refine ⟨⟨B, P', H, ⟨intact, h.holds.stable stable⟩, silent⟩, stable.settled, ?_⟩
  by_cases ok : r.1 = .OK
  · rcases (sent.ok ok).2 with ⟨free, -⟩ | ⟨sending, -⟩
    · exact .inl free
    · right
      rw [sending]
      exact Finset.mem_singleton_self _
  · rw [sent.refused ok]
    exact .inl awake

/-- **A request to the clock task** is served and answered. -/
theorem Intact.serveRequest {request : Request} (h : Intact cfg s A P H) (alarms : Alarms s) (awake : ClockAwake cfg s)
    (proper : request.Proper cfg s) (valid : 0 ≤ (s.proc (cfg.procAddr CLOCK)).messbuf.mSource + cfg.NR_TASKS)
    (other : cfg.procAddr (s.proc (cfg.procAddr CLOCK)).messbuf.mSource ≠ cfg.procAddr CLOCK) :
    Ends Fault.Documented (fun t => Advanced cfg P Post.nothing t ∧ Alarms t ∧ ClockAnswers cfg t) (s.serveRequest cfg request) := by
  -- whatever the request was, the clock task answers
  have answered {s₁ : Kernel} (intact : Intact cfg s₁ A P H) (alarms₁ : Alarms s₁)
      (flags : ∀ k, (s₁.proc k).flags = (s.proc k).flags) (text : ∀ k, SameText (s.proc k) (s₁.proc k)) :
      Ends Fault.Documented (fun t => Advanced cfg P Post.nothing t ∧ Alarms t ∧ ClockAnswers cfg t)
        (let mc := (s₁.proc (cfg.procAddr CLOCK)).messbuf
        s₁.miniSend cfg (cfg.procAddr CLOCK) mc.mSource ⟨mc.mSource, 0⟩ true >>= fun r => return r.2) := by
    have message := (text (cfg.procAddr CLOCK)).messbuf
    rw [← message] at valid other
    refine Ends.bind (documented (intact.answer ((flags _).trans awake) valid other)) ?_
    rintro r ⟨advanced, settled, answers⟩
    exact Ends.pure ⟨advanced, alarms₁.settled settled, answers⟩
  have alarm {n delta : Int} (scheduled : delta ≠ 0 → (s.proc (cfg.procAddr n)).priority.scheduled) :
      Ends Fault.Documented (fun t => Advanced cfg P Post.nothing t ∧ Alarms t ∧ ClockAnswers cfg t)
        (let mc := ((s.commonSetalarm cfg n delta).proc (cfg.procAddr CLOCK)).messbuf
        (s.commonSetalarm cfg n delta).miniSend cfg (cfg.procAddr CLOCK) mc.mSource ⟨mc.mSource, 0⟩ true >>=
          fun r => return r.2) := by
    obtain ⟨intact, alarms₁, aside⟩ := h.setalarm alarms scheduled
    exact answered intact alarms₁ (fun k => (aside.proc k).flags) fun k => (aside.proc k).toSameText
  cases request with
  | getUptime => exact answered h alarms (fun _ => rfl) fun _ => .refl _
  | getTime => exact answered h alarms (fun _ => rfl) fun _ => .refl _
  | setTime => exact answered h alarms (fun _ => rfl) fun _ => .refl _
  | setAlarm proc_nr delta_ticks => exact alarm proper
  | setSyncAl proc_nr delta_ticks => exact alarm proper
  | other => exact Ends.error (.inr rfl)

/-- What the clock task may assume about the message that it has: a request has come from another process. -/
structure ClockDuty (cfg : Config) (a : Agenda) (s : Kernel) : Prop where
  sound : a.Sound cfg s
  complete : a.Complete cfg
  request : (s.proc (cfg.procAddr CLOCK)).messbuf.mType ≠ HARD_INT → a.request.Proper cfg s ∧
    0 ≤ (s.proc (cfg.procAddr CLOCK)).messbuf.mSource + cfg.NR_TASKS ∧
      cfg.procAddr (s.proc (cfg.procAddr CLOCK)).messbuf.mSource ≠ cfg.procAddr CLOCK

/-- `get_uptime` -/
def getUptime (s : Kernel) : Int := s.realtime + s.pendingTicks

/-- The alarms that are due at `time` are off, and the others are as they were. -/
def AlarmsOff (time : Int) (s t : Kernel) : Prop :=
  ∀ k, (t.proc k).alarm = if (s.proc k).alarm ≤ time then 0 else (s.proc k).alarm

/-- **The clock task** serves its message, and receives again if it is not blocked. -/
theorem Intact.clockTask (h : Intact cfg s A P H) (alarms : Alarms s) (duty : ClockDuty cfg a s) (awake : ClockAwake cfg s) :
    Ends Fault.Documented (fun t => Advanced cfg P Post.nothing t ∧ Alarms t ∧
      ((s.proc (cfg.procAddr CLOCK)).messbuf.mType = HARD_INT → AlarmsOff s.getUptime s t))
      (s.clockTask cfg (a.handlers cfg)) := by
  have intact : Intact cfg { s with realtime := s.realtime + s.pendingTicks, pendingTicks := 0 } A P H :=
    h.of_eq rfl rfl rfl rfl rfl rfl rfl rfl
  have alarms₁ : Alarms { s with realtime := s.realtime + s.pendingTicks, pendingTicks := 0 } := ⟨alarms.set, alarms.early⟩
  have sound : a.Sound cfg { s with realtime := s.realtime + s.pendingTicks, pendingTicks := 0 } := ⟨duty.sound.watched, duty.sound.wakes⟩
  have awake₁ : ClockAwake cfg { s with realtime := s.realtime + s.pendingTicks, pendingTicks := 0 } := awake
  have request := duty.request
  -- after its message the clock task is awake, and receives
  have receive {t : Kernel} {served : Prop} (advanced : Advanced cfg P Post.nothing t) (alarms : Alarms t)
      (awake : ClockAwake cfg t) (off : served → AlarmsOff s.getUptime s t) :
      Ends Fault.Documented (fun u => Advanced cfg P Post.nothing u ∧ Alarms u ∧ (served → AlarmsOff s.getUptime s u))
        (t.miniRec cfg (a.handlers cfg) (cfg.procAddr CLOCK) ANY) := by
    obtain ⟨B, P', H', intact, run⟩ := advanced
    have scheduled : (t.proc (cfg.procAddr CLOCK)).priority.scheduled := by
      rw [intact.table.clock]
      rfl
    refine documented ((intact.toValid.miniRec (fun _ => rfl) scheduled (.inl awake)
      fun _ _ _ _ => intact.toSound.inSystem awake).imp ?_)
    rintro u ⟨C, P'', valid, run', stable⟩
    refine ⟨⟨C, P'', H', ⟨valid, intact.holds.stable stable⟩, run.rest run'⟩, alarms.settled stable.settled, fun yes k => ?_⟩
    rw [stable.alarm]
    exact off yes k
  unfold Kernel.clockTask
  dsimp only
  split
  · rename_i hardInt
    rw [doClocktick_eq, bind_assoc]
    refine Ends.bind (documented (intact.checkAlarms alarms₁ sound duty.complete awake₁)) ?_
    rintro t ⟨⟨B, P', H', intact₂, run⟩, tasks, priority, alarms₂, realtime, alarm⟩
    refine Ends.bind (.of_returns intact₂.endTick) fun u onward => ?_
    refine receive (onward.advanced.after run) (alarms₂.settled onward.settled)
      (onward.clockAwake intact₂.table (tasks.clockAwake intact.table awake₁)) fun _ k => ?_
    rw [onward.settled.alarm]
    exact alarm k
  · rename_i notHardInt
    obtain ⟨proper, valid, other⟩ := request notHardInt
    refine Ends.bind (intact.serveRequest alarms₁ awake₁ ?_ valid other) ?_
    · exact proper
    · rintro t ⟨advanced, alarms₂, answers⟩
      refine .ite (fun _ => Ends.ok ⟨advanced, alarms₂, fun yes => absurd yes notHardInt⟩) fun free => ?_
      exact receive advanced alarms₂ (answers.resolve_right free) fun yes => absurd yes notHardInt

end Kernel

end SoiExercises.Sched
