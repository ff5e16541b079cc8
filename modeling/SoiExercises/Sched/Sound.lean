import SoiExercises.Sched.Exchange
import SoiExercises.Sched.Lines

/-!
# What holds of the kernel between two calls

`Sound cfg s A P`: the table is in order (`Table`), the ready queues are the lines of the scheduler `A` and
hold exactly the processes without a flag (`Manned`), and the messages are in the state `P` of the
rendezvous protocol (`Posted`). A process is made runnable and is blocked in one way each, whatever the
reason (`Manned.wake`, `Manned.sleep`). `mini_send` and `mini_rec` keep all of it and move the protocol.
-/

namespace SoiExercises.Sched

open SoiExercises.Lib

/-- The process is one that the scheduler runs. -/
def Ppri.scheduled : Ppri → Bool
  | .task | .server | .user => true
  | _ => false

/-- The slot after it has got `m`, which it waited for. -/
def Proc.received (p : Proc) (m : Message) : Proc := { p with messbuf := m, flags := p.flags.erase .receiving }

namespace Kernel

/-- The process table is in order. -/
structure Table (cfg : Config) (s : Kernel) : Prop where
  any : (cfg.NR_PROCS : Int) ≤ ANY
  outside : ∀ {k}, cfg.endProcAddr ≤ k → (s.proc k).priority = .none
  tasks : ∀ {k}, (s.proc k).priority = .task ∨ (s.proc k).priority = .idle → k < cfg.NR_TASKS
  procs : ∀ {k}, (s.proc k).priority = .server ∨ (s.proc k).priority = .user → cfg.NR_TASKS ≤ k
  servers : ∀ {n}, isSysentn n → (s.proc (cfg.procAddr n)).priority = .server
  clock : (s.proc (cfg.procAddr CLOCK)).priority = .task
  hardware : (s.proc (cfg.procAddr HARDWARE)).priority = .idle
  idle : (s.proc (cfg.procAddr IDLE)).priority = .idle
  live : ∀ {k x}, x ∈ (s.proc k).flags → (s.proc k).priority.scheduled
  taskFlags : ∀ {k x}, x ∈ (s.proc k).flags → (s.proc k).priority = .task → x = .sending ∨ x = .receiving

/-- The ready queues hold the processes that are awake. -/
structure Manned (cfg : Config) (s : Kernel) (A : Scheduler) (awake : Nat → Prop) : Prop where
  lined : Lined s A
  members : ∀ {k}, k ∈ A.line (s.proc k).priority.queue ↔ awake k ∧ (s.proc k).priority.scheduled
  current : A.Current cfg fun k => (s.proc k).priority.queue
  inside : ∀ {k}, (s.proc k).priority.scheduled → k < cfg.endProcAddr

/-- A task or a server runs. -/
def InSystem (s : Kernel) : Prop := (s.proc s.procPtr).priority.queue ≠ .userQ

/-- What the calls of the kernel leave alone, but for the requests that are about it. -/
structure Stable (s t : Kernel) : Prop where
  priority : ∀ k, (t.proc k).priority = (s.proc k).priority
  alarm : ∀ k, (t.proc k).alarm = (s.proc k).alarm
  intHeld : ∀ k, (t.proc k).intHeld = (s.proc k).intHeld
  nextheld : ∀ k, (t.proc k).nextheld = (s.proc k).nextheld
  heldHead : t.heldHead = s.heldHead
  heldTail : t.heldTail = s.heldTail
  realtime : t.realtime = s.realtime
  nextAlarm : t.nextAlarm = s.nextAlarm

/-- What the exchange of messages leaves alone: signals too. -/
structure Steady (s t : Kernel) : Prop extends Stable s t where
  flags : ∀ k x, x ≠ .sending → x ≠ .receiving → (x ∈ (t.proc k).flags ↔ x ∈ (s.proc k).flags)
  sigProcs : t.sigProcs = s.sigProcs

/-- The kernel between two calls, with its ready queues and its messages. -/
structure Sound (cfg : Config) (s : Kernel) (A : Scheduler) (P : Mail) : Prop where
  table : Table cfg s
  manned : Manned cfg s A fun k => (s.proc k).flags = ∅
  posted : Posted cfg s P

/-- The kernel is sound again, and its messages have moved by the protocol. -/
def Moved (cfg : Config) (s : Kernel) (P : Mail) (sent : Nat → Nat → List Int) (t : Kernel) : Prop :=
  ∃ B P', Sound cfg t B P' ∧ Passes cfg P sent P' ∧ Steady s t

variable {cfg : Config} {s t u : Kernel} {A B : Scheduler} {P : Mail} {k j rp caller dest sender : Nat} {q : Queue}
  {f : Proc → Proc} {awake awake' : Nat → Prop} {m : Message} {src : Int}

namespace Stable

theorem refl (s : Kernel) : Stable s s :=
  ⟨fun _ => rfl, fun _ => rfl, fun _ => rfl, fun _ => rfl, rfl, rfl, rfl, rfl⟩

theorem trans (h : Stable s t) (h' : Stable t u) : Stable s u where
  priority k := (h'.priority k).trans (h.priority k)
  alarm k := (h'.alarm k).trans (h.alarm k)
  intHeld k := (h'.intHeld k).trans (h.intHeld k)
  nextheld k := (h'.nextheld k).trans (h.nextheld k)
  heldHead := h'.heldHead.trans h.heldHead
  heldTail := h'.heldTail.trans h.heldTail
  realtime := h'.realtime.trans h.realtime
  nextAlarm := h'.nextAlarm.trans h.nextAlarm

theorem update (priority : (f (s.proc k)).priority = (s.proc k).priority)
    (alarm : (f (s.proc k)).alarm = (s.proc k).alarm) (intHeld : (f (s.proc k)).intHeld = (s.proc k).intHeld)
    (nextheld : (f (s.proc k)).nextheld = (s.proc k).nextheld) : Stable s (s.update k f) where
  priority := update_field Proc.priority priority
  alarm := update_field Proc.alarm alarm
  intHeld := update_field Proc.intHeld intHeld
  nextheld := update_field Proc.nextheld nextheld
  heldHead := rfl
  heldTail := rfl
  realtime := rfl
  nextAlarm := rfl

theorem requeued (h : Requeued s t) : Stable s t := by
  obtain ⟨r, rfl⟩ := h
  exact ⟨fun _ => rfl, fun _ => rfl, fun _ => rfl, fun _ => rfl, rfl, rfl, rfl, rfl⟩

theorem relinked (h : Relinked s t) : Stable s t := by
  obtain ⟨r, rfl⟩ := h
  exact ⟨fun _ => rfl, fun _ => rfl, fun _ => rfl, fun _ => rfl, rfl, rfl, rfl, rfl⟩

end Stable

namespace Steady

theorem refl (s : Kernel) : Steady s s := ⟨.refl s, fun _ _ _ _ => Iff.rfl, rfl⟩

theorem trans (h : Steady s t) (h' : Steady t u) : Steady s u where
  toStable := h.toStable.trans h'.toStable
  flags k x hs hr := (h'.flags k x hs hr).trans (h.flags k x hs hr)
  sigProcs := h'.sigProcs.trans h.sigProcs

theorem requeued (h : Requeued s t) : Steady s t := by
  have stable := Stable.requeued h
  obtain ⟨r, rfl⟩ := h
  exact ⟨stable, fun _ _ _ _ => Iff.rfl, rfl⟩

theorem relinked (h : Relinked s t) : Steady s t := by
  have stable := Stable.relinked h
  obtain ⟨r, rfl⟩ := h
  exact ⟨stable, fun _ _ _ _ => Iff.rfl, rfl⟩

theorem update (stable : Stable s (s.update k f))
    (flags : ∀ x, x ≠ .sending → x ≠ .receiving → (x ∈ (f (s.proc k)).flags ↔ x ∈ (s.proc k).flags)) :
    Steady s (s.update k f) where
  toStable := stable
  flags j x hs hr := by
    by_cases hj : j = k
    · subst hj
      rw [update_proc_self]
      exact flags x hs hr
    · rw [update_proc_ne hj]
  sigProcs := rfl

end Steady

namespace Table

/-- Priorities are the same, and a slot has no flag that it had not, unless it may have it. -/
theorem congr (h : Table cfg s) (priority : ∀ k, (t.proc k).priority = (s.proc k).priority)
    (flags : ∀ k x, x ∈ (t.proc k).flags → x ∈ (s.proc k).flags ∨
      (s.proc k).priority.scheduled ∧ ((s.proc k).priority = .task → x = .sending ∨ x = .receiving)) : Table cfg t where
  any := h.any
  outside hk := by
    rw [priority]
    exact h.outside hk
  tasks hk := by
    rw [priority] at hk
    exact h.tasks hk
  procs hk := by
    rw [priority] at hk
    exact h.procs hk
  servers hn := by
    rw [priority]
    exact h.servers hn
  clock := by
    rw [priority]
    exact h.clock
  hardware := by
    rw [priority]
    exact h.hardware
  idle := by
    rw [priority]
    exact h.idle
  live {k x} hx := by
    rw [priority]
    exact (flags k x hx).elim h.live And.left
  taskFlags {k x} hx task := by
    rw [priority] at task
    exact (flags k x hx).elim (fun old => h.taskFlags old task) fun new => new.2 task

theorem of_flags (h : Table cfg s) (priority : ∀ k, (t.proc k).priority = (s.proc k).priority)
    (flags : ∀ k, (t.proc k).flags ⊆ (s.proc k).flags) : Table cfg t :=
  h.congr priority fun k _ hx => .inl (flags k hx)

theorem update (h : Table cfg s) (priority : (f (s.proc k)).priority = (s.proc k).priority)
    (flags : ∀ x, x ∈ (f (s.proc k)).flags → x ∈ (s.proc k).flags ∨
      (s.proc k).priority.scheduled ∧ ((s.proc k).priority = .task → x = .sending ∨ x = .receiving)) :
    Table cfg (s.update k f) := by
  refine h.congr (update_field Proc.priority priority) fun j x hx => ?_
  by_cases hj : j = k
  · subst hj
    rw [update_proc_self] at hx
    exact flags x hx
  · rw [update_proc_ne hj] at hx
    exact .inl hx

theorem requeued (h : Table cfg s) (same : Requeued s t) : Table cfg t := by
  obtain ⟨r, rfl⟩ := same
  exact h.of_flags (fun _ => rfl) fun _ => Finset.Subset.refl _

theorem inside (h : Table cfg s) (scheduled : (s.proc k).priority.scheduled) : k < cfg.endProcAddr := by
  by_contra outside
  rw [h.outside (Nat.le_of_not_lt outside)] at scheduled
  cases scheduled

end Table

namespace Manned

theorem kinds (h : Manned cfg s A awake) (q : Queue) : ∀ k ∈ A.line q, (s.proc k).priority.queue = q :=
  fun _ hk => h.lined.kind hk

theorem nodup (h : Manned cfg s A awake) (q : Queue) : (A.line q).Nodup := (h.lined.listed q).nodup

theorem short (h : Manned cfg s A awake) (q : Queue) : (A.line q).length ≤ cfg.endProcAddr := by
  have inside : A.line q ⊆ List.range cfg.endProcAddr := by
    intro k hk
    rw [List.mem_range]
    refine h.inside (h.members.1 ?_).2
    rw [h.lined.kind hk]
    exact hk
  simpa using ((h.nodup q).subperm inside).length_le

/-- Nothing that the ready queues are about has changed. -/
theorem congr (h : Manned cfg s A awake) (links : t.links = s.links)
    (priority : ∀ k, (t.proc k).priority = (s.proc k).priority) (rdyHead : t.rdyHead = s.rdyHead)
    (rdyTail : t.rdyTail = s.rdyTail) (procPtr : t.procPtr = s.procPtr) (billPtr : t.billPtr = s.billPtr)
    (same : ∀ k, (s.proc k).priority.scheduled → (awake' k ↔ awake k)) : Manned cfg t A awake' where
  lined := h.lined.of_eq (fun _ k _ => congrFun links k) (fun _ k _ => priority k) rdyHead rdyTail procPtr billPtr
  members {k} := by
    rw [priority, h.members]
    exact and_congr_left fun scheduled => (same k scheduled).symm
  current := by
    have kinds : (fun k => (t.proc k).priority.queue) = fun k => (s.proc k).priority.queue :=
      funext fun k => congrArg Ppri.queue (priority k)
    rw [kinds]
    exact h.current
  inside {k} scheduled := by
    rw [priority] at scheduled
    exact h.inside scheduled

theorem update (h : Manned cfg s A awake) (nextready : (f (s.proc k)).nextready = (s.proc k).nextready)
    (priority : (f (s.proc k)).priority = (s.proc k).priority)
    (same : ∀ k, (s.proc k).priority.scheduled → (awake' k ↔ awake k)) : Manned cfg (s.update k f) A awake' :=
  h.congr (funext (update_field Proc.nextready nextready)) (update_field Proc.priority priority) rfl rfl rfl rfl same

theorem requeued_priority (h : Requeued s t) (k : Nat) : (t.proc k).priority = (s.proc k).priority := by
  obtain ⟨r, rfl⟩ := h
  rfl

/-- **A process becomes runnable.** A user process may do so while a task or a server runs, and then one
still runs. -/
theorem wake (h : Manned cfg s A awake) (asleep : ¬ awake k) (scheduled : (s.proc k).priority.scheduled)
    (turn : (s.proc k).priority.queue = .userQ → s.InSystem) :
    Returns (fun t => ∃ B, Manned cfg t B (fun j => awake j ∨ j = k) ∧ Requeued s t ∧ (s.InSystem → t.InSystem))
      (s.ready k) := by
  have fresh : k ∉ A.line (s.proc k).priority.queue := fun again => asleep (h.members.1 again).1
  refine (h.lined.ready rfl fresh).imp fun t ⟨lined, requeued⟩ => ⟨_, ⟨lined, ?_, ?_, ?_⟩, requeued, ?_⟩
  · intro j
    rw [requeued_priority requeued, Scheduler.mem_ready, h.members]
    constructor
    · rintro (⟨old, ok⟩ | ⟨-, rfl⟩)
      · exact ⟨.inl old, ok⟩
      · exact ⟨.inr rfl, scheduled⟩
    · rintro ⟨old | rfl, ok⟩
      · exact .inl ⟨old, ok⟩
      · exact .inr ⟨rfl, rfl⟩
  · have kinds : (fun k => (t.proc k).priority.queue) = fun k => (s.proc k).priority.queue :=
      funext fun k => congrArg Ppri.queue (requeued_priority requeued k)
    rw [kinds]
    refine h.current.ready rfl h.kinds fun user => ?_
    have busy := turn user
    unfold InSystem at busy
    rw [h.lined.procPtr] at busy
    exact busy
  · intro j ok
    rw [requeued_priority requeued] at ok
    exact h.inside ok
  · intro busy
    unfold InSystem at busy ⊢
    rw [requeued_priority requeued, lined.procPtr]
    rw [h.lined.procPtr] at busy
    unfold Scheduler.ready
    split
    · rename_i task
      dsimp only
      split
      · rw [task]
        decide
      · exact busy
    · exact busy
    · exact busy

/-- **A process is no longer runnable.** Only a task whose stack is overrun makes the kernel panic. -/
theorem sleep (h : Manned cfg s A awake) :
    Ends Fault.Overrun
      (fun t => ∃ B, Manned cfg t B (fun j => awake j ∧ j ≠ k) ∧ Requeued s t) (s.unready cfg k) := by
  refine (h.lined.unready rfl (h.short _)).imp fun t ⟨lined, requeued⟩ => ⟨_, ⟨lined, ?_, ?_, ?_⟩, requeued⟩
  · intro j
    rw [requeued_priority requeued, Scheduler.mem_unready (h.nodup _), h.members]
    constructor
    · rintro ⟨⟨old, ok⟩, other⟩
      refine ⟨⟨old, ?_⟩, ok⟩
      rintro rfl
      exact other ⟨rfl, rfl⟩
    · rintro ⟨⟨old, other⟩, ok⟩
      exact ⟨⟨old, ok⟩, fun both => other both.2⟩
  · have kinds : (fun k => (t.proc k).priority.queue) = fun k => (s.proc k).priority.queue :=
      funext fun k => congrArg Ppri.queue (requeued_priority requeued k)
    rw [kinds]
    exact h.current.unready h.kinds
  · intro j ok
    rw [requeued_priority requeued] at ok
    exact h.inside ok

/-- The end of a quantum. -/
theorem sched (h : Manned cfg s A awake) :
    Returns (fun t => ∃ B, Manned cfg t B awake ∧ Requeued s t) (s.sched cfg) := by
  refine h.lined.sched.imp fun t ⟨B, choice, lined, requeued⟩ => ⟨B, ⟨lined, ?_, ?_, ?_⟩, requeued⟩
  · intro j
    rw [requeued_priority requeued, ← h.members]
    rcases choice with rfl | rfl
    · rfl
    · exact Scheduler.mem_rotate
  · have kinds : (fun k => (t.proc k).priority.queue) = fun k => (s.proc k).priority.queue :=
      funext fun k => congrArg Ppri.queue (requeued_priority requeued k)
    rw [kinds]
    rcases choice with rfl | rfl
    · exact h.current
    · exact h.current.rotate h.kinds
  · intro j ok
    rw [requeued_priority requeued] at ok
    exact h.inside ok

theorem pickProc (h : Manned cfg s A awake) : Manned cfg (s.pickProc cfg) (A.pick cfg) awake where
  lined := h.lined.pickProc
  members {k} := by
    rw [pickProc_proc, Scheduler.pick_line]
    exact h.members
  current := by
    rw [pickProc_proc]
    exact Scheduler.pick_current h.kinds
  inside {k} ok := by
    rw [pickProc_proc] at ok
    exact h.inside ok

end Manned

theorem SameText.requeued (h : Requeued s t) (k : Nat) : SameText (s.proc k) (t.proc k) := by
  obtain ⟨r, rfl⟩ := h
  exact ⟨rfl, rfl, rfl, rfl, rfl, Iff.rfl, Iff.rfl⟩

theorem SameText.relinked (h : Relinked s t) (k : Nat) : SameText (s.proc k) (t.proc k) := by
  obtain ⟨r, rfl⟩ := h
  exact ⟨rfl, rfl, rfl, rfl, rfl, Iff.rfl, Iff.rfl⟩

theorem Posted.requeued (h : Posted cfg s P) (same : Requeued s t) : Posted cfg t P := by
  obtain ⟨r, rfl⟩ := same
  exact h.congr (fun _ => ⟨rfl, rfl, rfl, rfl, rfl, Iff.rfl, Iff.rfl⟩) (fun _ => rfl) fun _ => rfl

theorem requeued_flags (h : Requeued s t) (k : Nat) : (t.proc k).flags = (s.proc k).flags := by
  obtain ⟨r, rfl⟩ := h
  rfl

theorem requeued_getfrom (h : Requeued s t) (k : Nat) : (t.proc k).getfrom = (s.proc k).getfrom := by
  obtain ⟨r, rfl⟩ := h
  rfl

/-- Nobody waits who did not wait for the same before. -/
def NoNewWaits (s t : Kernel) : Prop :=
  ∀ k, .receiving ∈ (t.proc k).flags → .receiving ∈ (s.proc k).flags ∧ (t.proc k).getfrom = (s.proc k).getfrom

theorem waitsFor_iff (number : (s.proc caller).nr = caller - cfg.NR_TASKS) :
    (s.proc dest).waitsFor (s.proc caller).nr ↔ .receiving ∈ (s.proc dest).flags ∧ .sending ∉ (s.proc dest).flags ∧
      cfg.accepts (s.proc dest).getfrom caller := by
  unfold Proc.waitsFor Config.accepts
  rw [number]
  simp [and_assoc]

theorem deliver_eq : s.deliver caller dest m =
    let s₁ := s.update dest fun p => p.received ⟨(s.proc caller).nr, m.mType⟩
    if (s₁.proc dest).flags = ∅ then s₁.ready dest else .ok s₁ := rfl

namespace Sound

/-- The destination gets the message that it waits for. -/
theorem deliver (h : Sound cfg s A P) (free : .sending ∉ (s.proc caller).flags)
    (waits : (s.proc dest).waitsFor (s.proc caller).nr)
    (turn : (s.proc dest).priority.queue = .userQ → s.InSystem) :
    Returns (fun t => (∃ B, Sound cfg t B (P.deliver caller dest m.mType)) ∧
      P.Step cfg.accepts (.hand caller dest m.mType) (P.deliver caller dest m.mType) ∧ Steady s t ∧ NoNewWaits s t ∧
      (∀ j, j ≠ dest → (t.proc j).flags = (s.proc j).flags) ∧ (t.proc dest).flags = (s.proc dest).flags.erase .receiving ∧
      (s.InSystem → t.InSystem) ∧ t.kReenter = s.kReenter ∧ t.switching = s.switching) (s.deliver caller dest m) := by
  obtain ⟨receiving, open_, ok⟩ := (waitsFor_iff (h.posted.number caller)).1 waits
  rw [deliver_eq]
  have others {j : Nat} (hj : j ≠ dest) :
      (s.update dest fun p => p.received ⟨(s.proc caller).nr, m.mType⟩).proc j = s.proc j := update_proc_ne hj
  have here : ((s.update dest fun p => p.received ⟨(s.proc caller).nr, m.mType⟩).proc dest).flags =
      (s.proc dest).flags.erase .receiving := by
    rw [update_proc_self]
    rfl
  obtain ⟨step, posted⟩ := h.posted.hand (t := s.update dest fun p => p.received ⟨(s.proc caller).nr, m.mType⟩)
    (a := m.mType) free open_ receiving ok (fun j hj => others hj) (update_field Proc.nr (by rfl) dest)
    (update_field Proc.callerq (by rfl) dest) (update_field Proc.sendlink (by rfl) dest) here
    (by rw [update_proc_self, ← h.posted.number caller]; rfl)
  have table : Table cfg (s.update dest fun p => p.received ⟨(s.proc caller).nr, m.mType⟩) :=
    h.table.update rfl fun x hx => .inl (Finset.mem_of_mem_erase hx)
  have manned : Manned cfg (s.update dest fun p => p.received ⟨(s.proc caller).nr, m.mType⟩) A
      fun k => (s.proc k).flags = ∅ := h.manned.update rfl rfl fun _ _ => Iff.rfl
  have steady : Steady s (s.update dest fun p => p.received ⟨(s.proc caller).nr, m.mType⟩) :=
    .update (.update rfl rfl rfl rfl) fun x _ hr => by simp [Proc.received, hr]
  have waits' : NoNewWaits s (s.update dest fun p => p.received ⟨(s.proc caller).nr, m.mType⟩) := by
    intro j hj
    by_cases hd : j = dest
    · rw [hd, here] at hj
      exact absurd hj (Finset.notMem_erase _ _)
    · rw [others hd] at hj ⊢
      exact ⟨hj, rfl⟩
  have busy : s.InSystem → (s.update dest fun p => p.received ⟨(s.proc caller).nr, m.mType⟩).InSystem := by
    intro busy
    unfold InSystem
    rw [steady.priority]
    exact busy
  have scheduled : (s.proc dest).priority.scheduled := h.table.live receiving
  have asleep : ¬ (s.proc dest).flags = ∅ := fun none => by simp [none] at receiving
  have modes : (s.update dest fun p => p.received ⟨(s.proc caller).nr, m.mType⟩).kReenter = s.kReenter ∧
      (s.update dest fun p => p.received ⟨(s.proc caller).nr, m.mType⟩).switching = s.switching := ⟨rfl, rfl⟩
  dsimp only
  generalize s.update dest (fun p => p.received ⟨(s.proc caller).nr, m.mType⟩) = s₁ at *
  refine .ite (fun runnable => ?_) fun blocked => ?_
  · have turn₁ : (s₁.proc dest).priority.queue = .userQ → s₁.InSystem := by
      rw [steady.priority]
      exact fun user => busy (turn user)
    refine (manned.wake asleep (by rw [steady.priority]; exact scheduled) turn₁).imp
      fun t ⟨B, manned, requeued, system⟩ => ⟨⟨B, table.requeued requeued, ?_, posted.requeued requeued⟩, step, ?_⟩
    · refine manned.congr rfl (fun _ => rfl) rfl rfl rfl rfl fun j _ => ?_
      rw [requeued_flags requeued]
      by_cases hd : j = dest
      · simp [hd, runnable]
      · rw [others hd]
        simp [hd]
    · refine ⟨steady.trans (.requeued requeued), fun j hj => ?_, fun j hj => ?_, (requeued_flags requeued dest).trans here,
        fun b => system (busy b), ?_⟩
      · rw [requeued_flags requeued] at hj
        rw [requeued_getfrom requeued]
        exact waits' j hj
      · rw [requeued_flags requeued, others hj]
      · obtain ⟨r, rfl⟩ := requeued
        exact modes
  · refine Ends.ok ⟨⟨A, table, ?_, posted⟩, step, steady, waits', fun j hj => by rw [others hj], here, busy, modes⟩
    refine manned.congr rfl (fun _ => rfl) rfl rfl rfl rfl fun j _ => ?_
    by_cases hd : j = dest
    · rw [hd]
      exact ⟨fun none => absurd none blocked, fun none => absurd none asleep⟩
    · rw [others hd]

/-- The caller is blocked and joins the queue of the destination. -/
theorem blockSender {dest : Int} {l : List Nat} (h : Sound cfg s A P) (idle : (s.proc caller).flags = ∅)
    (scheduled : (s.proc caller).priority.scheduled) (valid : 0 ≤ dest + cfg.NR_TASKS)
    (there : cfg.procAddr dest < cfg.endProcAddr) (path : Listed (s.awaits cfg) (some (cfg.procAddr dest)) l)
    (apart : caller ∉ l) (notWaits : ∀ src, P.waiting (cfg.procAddr dest) = some src → ¬ cfg.accepts src caller) :
    Ends Fault.Overrun
      (fun t => (∃ B, Sound cfg t B (P.enqueue caller (cfg.procAddr dest) m.mType)) ∧
        P.Step cfg.accepts (.post caller (cfg.procAddr dest) m.mType) (P.enqueue caller (cfg.procAddr dest) m.mType) ∧
        Steady s t ∧ NoNewWaits s t ∧ (t.proc caller).flags = {.sending} ∧ (t.proc caller).sendto = dest)
      (s.blockSender cfg caller dest m) := by
  have free : .sending ∉ (s.proc caller).flags := by simp [idle]
  have awake : .receiving ∉ (s.proc caller).flags := by simp [idle]
  have manned : Manned cfg (s.update caller fun p => { p with messbuf := m }) A fun k => (s.proc k).flags = ∅ :=
    h.manned.update rfl rfl fun _ _ => Iff.rfl
  unfold Kernel.blockSender
  dsimp only
  have runnable : ((s.update caller fun p => { p with messbuf := m }).proc caller).flags = ∅ := by
    rw [update_proc_self]
    exact idle
  rw [if_pos runnable]
  refine Ends.bind manned.sleep fun s₂ ⟨B, manned₂, requeued⟩ => ?_
  -- up to here only the buffer of the caller and the ready queues have changed
  have text₂ (j : Nat) (hj : j ≠ caller) : SameText (s.proc j) (s₂.proc j) := by
    have same := SameText.requeued requeued j
    rw [update_proc_ne hj] at same
    exact same
  have flags₂ (j : Nat) : (s₂.proc j).flags = (s.proc j).flags :=
    (requeued_flags requeued j).trans (update_field Proc.flags (by rfl) j)
  have links₂ : s₂.sendlinks = s.sendlinks := by
    obtain ⟨r, rfl⟩ := requeued
    exact funext (update_field Proc.sendlink (by rfl))
  have callerq₂ (j : Nat) : (s₂.proc j).callerq = (s.proc j).callerq := by
    obtain ⟨r, rfl⟩ := requeued
    exact update_field Proc.callerq (by rfl) j
  have nr₂ (j : Nat) : (s₂.proc j).nr = (s.proc j).nr := by
    obtain ⟨r, rfl⟩ := requeued
    exact update_field Proc.nr (by rfl) j
  have messbuf₂ : (s₂.proc caller).messbuf = m := by
    obtain ⟨r, rfl⟩ := requeued
    show ((s.update caller fun p => { p with messbuf := m }).proc caller).messbuf = m
    rw [update_proc_self]
  have steady₂ : Steady s s₂ := (Steady.update (.update rfl rfl rfl rfl) fun _ _ _ => Iff.rfl).trans (.requeued requeued)
  have table₂ : Table cfg s₂ := (h.table.update rfl fun x hx => .inl hx).requeued requeued
  have queued₂ : Queued (s₂.update caller fun p => { p with flags := insert .sending p.flags, sendto := dest })
      fun d => (P.queue d).map Prod.fst := by
    refine ⟨fun d => ?_, h.posted.queued.once⟩
    have links : (s₂.update caller fun p => { p with flags := insert .sending p.flags, sendto := dest }).sendlinks =
        s.sendlinks := (funext (update_field Proc.sendlink (by rfl))).trans links₂
    rw [links, update_field Proc.callerq (by rfl), callerq₂]
    exact h.posted.queued.listed d
  have fresh (d : Nat) : caller ∉ (P.queue d).map Prod.fst := fun again => free (awaits_iff.1 (h.posted.sends.1 again)).1
  refine .of_returns ((queued₂.enqueueSender fresh (h.posted.queue_short _)).imp fun t ⟨queued, relinked⟩ => ?_)
  have text (j : Nat) (hj : j ≠ caller) : SameText (s.proc j) (t.proc j) := by
    have same := SameText.relinked relinked j
    rw [update_proc_ne hj] at same
    exact (text₂ j hj).trans same
  have here : ∃ c l, t.proc caller = { s₂.proc caller with
      callerq := c, sendlink := l, flags := insert .sending (s₂.proc caller).flags, sendto := dest } := by
    obtain ⟨r, rfl⟩ := relinked
    refine ⟨r.callerq caller, r.sendlink caller, ?_⟩
    show { (s₂.update caller fun p => { p with flags := insert .sending p.flags, sendto := dest }).proc caller with
      callerq := r.callerq caller, sendlink := r.sendlink caller } = _
    rw [update_proc_self]
  obtain ⟨c, l, here⟩ := here
  have flags : (t.proc caller).flags = insert .sending (s.proc caller).flags := by
    rw [here, flags₂]
  have nr : (t.proc caller).nr = (s.proc caller).nr := by
    rw [here]
    exact nr₂ caller
  have messbuf : (t.proc caller).messbuf = m := by
    rw [here]
    exact messbuf₂
  have sendto : (t.proc caller).sendto = dest := by rw [here]
  obtain ⟨step, posted⟩ := h.posted.post free awake (h.table.inside scheduled) notWaits path apart queued text nr flags
    messbuf (sendto ▸ valid) (by rw [sendto]) there
  have relinked_flags (j : Nat) (hj : j ≠ caller) : (t.proc j).flags = (s.proc j).flags := by
    obtain ⟨r, rfl⟩ := relinked
    show ((s₂.update caller fun p => { p with flags := insert .sending p.flags, sendto := dest }).proc j).flags = _
    rw [update_proc_ne hj, flags₂]
  have steady₃ : Steady s₂ (s₂.update caller fun p => { p with flags := insert .sending p.flags, sendto := dest }) :=
    .update (.update rfl rfl rfl rfl) fun x hs _ => by simp [hs]
  have steady : Steady s t := (steady₂.trans steady₃).trans (.relinked relinked)
  refine ⟨⟨B, ?_, ?_, posted⟩, step, steady, fun j hj => ?_, by rw [flags, idle]; rfl, sendto⟩
  · refine h.table.congr steady.priority fun j x hx => ?_
    by_cases hj : j = caller
    · subst hj
      rw [flags, Finset.mem_insert] at hx
      rcases hx with rfl | old
      · exact .inr ⟨scheduled, fun _ => .inl rfl⟩
      · exact .inl old
    · rw [relinked_flags j hj] at hx
      exact .inl hx
  · have links : t.links = s₂.links := by
      obtain ⟨r, rfl⟩ := relinked
      exact funext (update_field Proc.nextready (by rfl))
    have rest : t.rdyHead = s₂.rdyHead ∧ t.rdyTail = s₂.rdyTail ∧ t.procPtr = s₂.procPtr ∧ t.billPtr = s₂.billPtr := by
      obtain ⟨r, rfl⟩ := relinked
      exact ⟨rfl, rfl, rfl, rfl⟩
    refine manned₂.congr links (steady₃.trans (.relinked relinked)).priority rest.1 rest.2.1 rest.2.2.1 rest.2.2.2
      fun j _ => ?_
    by_cases hj : j = caller
    · subst hj
      rw [flags]
      simp
    · rw [relinked_flags j hj]
      simp [hj]
  · have ne : j ≠ caller := by
      rintro rfl
      rw [flags, idle] at hj
      simp at hj
    exact ⟨(text j ne).receiving.1 hj, (text j ne).getfrom⟩

/-- What `mini_send` leaves. When it returns `OK`, the caller still runs, or is blocked in the send; when it does not,
nothing has happened. -/
structure Sent (cfg : Config) (s : Kernel) (P : Mail) (caller : Nat) (dest : Int) (m : Message) (r : Reply × Kernel) : Prop where
  moved : Moved cfg s P (if r.1 = .OK then Post.only caller (cfg.procAddr dest) m.mType else Post.nothing) r.2
  waits : NoNewWaits s r.2
  ok : r.1 = .OK → ((s.proc caller).isUserp → isSysentn dest) ∧
    ((r.2.proc caller).flags = ∅ ∧ (s.InSystem → r.2.InSystem) ∨
      (r.2.proc caller).flags = {.sending} ∧ (r.2.proc caller).sendto = dest)
  refused : r.1 ≠ .OK → r.2 = s

/-- **`mini_send`**: the message passes, or the caller is blocked, or nothing happens. -/
theorem miniSend {dest : Int} {mapped : Bool} (h : Sound cfg s A P) (idle : (s.proc caller).flags = ∅)
    (valid : 0 ≤ dest + cfg.NR_TASKS) (other : cfg.procAddr dest ≠ caller)
    (able : (s.proc caller).priority.scheduled ∨ (s.proc (cfg.procAddr dest)).waitsFor (s.proc caller).nr)
    (turn : (s.proc caller).isUserp = false → (s.proc (cfg.procAddr dest)).priority.queue = .userQ → s.InSystem) :
    Ends Fault.Overrun (Sent cfg s P caller dest m) (s.miniSend cfg caller dest m mapped) := by
  have free : .sending ∉ (s.proc caller).flags := by simp [idle]
  have refused (n : Reply) (hn : n ≠ .OK) : Ends Fault.Overrun (Sent cfg s P caller dest m) (.ok (n, s)) :=
    Ends.ok ⟨⟨A, P, h, by rw [if_neg hn]; exact .refl P, .refl s⟩, fun _ hj => ⟨hj, rfl⟩, fun ok => absurd ok hn,
      fun _ => rfl⟩
  unfold Kernel.miniSend
  refine .ite (fun _ => refused _ (by decide)) fun allowed => ?_
  refine .ite (fun _ => refused _ (by decide)) fun present => ?_
  refine .ite (fun _ => refused _ (by decide)) fun _ => ?_
  have system : (s.proc caller).isUserp → isSysentn dest := by
    intro user
    by_contra notSystem
    exact allowed (by simp [user, notSystem])
  obtain ⟨l, path, short⟩ := h.posted.path (cfg.procAddr dest)
  rw [deadlocked_listed path short, ok_bind]
  by_cases locked : caller ∈ l
  · simp only [locked, decide_true, if_true]
    exact refused _ (by decide)
  · simp only [locked, decide_false, Bool.false_eq_true, if_false]
    by_cases waits : (s.proc (cfg.procAddr dest)).waitsFor (s.proc caller).nr
    · rw [if_pos waits]
      have turn' : (s.proc (cfg.procAddr dest)).priority.queue = .userQ → s.InSystem := by
        intro user
        by_cases isUser : (s.proc caller).isUserp
        · rw [h.table.servers (system isUser)] at user
          cases user
        · exact turn (by simpa using isUser) user
      refine .of_returns (Ends.bind (h.deliver free waits turn') fun t ⟨⟨B, sound⟩, step, steady, waits', flags, _, busy, _⟩ => ?_)
      refine Ends.pure ⟨⟨B, _, sound, .hand step, steady⟩, waits', fun _ => ⟨system, .inl ⟨?_, busy⟩⟩,
        fun notOk => absurd rfl notOk⟩
      rw [flags caller (Ne.symm other)]
      exact idle
    · rw [if_neg waits]
      have there : cfg.procAddr dest < cfg.endProcAddr := by
        by_contra outside
        apply present
        exact decide_eq_true (h.table.outside (Nat.le_of_not_lt outside))
      have number : dest = cfg.procAddr dest - cfg.NR_TASKS := by
        unfold Config.procAddr
        omega
      have apart : caller ∉ cfg.procAddr dest :: l := by
        rw [List.mem_cons, not_or]
        exact ⟨Ne.symm other, locked⟩
      -- a destination that waits for the caller is itself blocked in a send to the caller
      have notWaits : ∀ src, P.waiting (cfg.procAddr dest) = some src → ¬ cfg.accepts src caller := by
        intro src waiting ok
        obtain ⟨receiving, rfl⟩ := h.posted.waiting_some.1 waiting
        by_cases sending : .sending ∈ (s.proc (cfg.procAddr dest)).flags
        · have target := h.posted.target sending
          rw [h.posted.both receiving sending] at ok
          apply locked
          obtain ⟨-, rest⟩ := path
          rw [awaits_of_sending sending] at rest
          have slot : cfg.procAddr (s.proc (cfg.procAddr dest)).sendto = caller := by
            rcases ok with any | same
            · rw [any] at target
              have out := h.table.any
              unfold Config.procAddr Config.endProcAddr at target
              omega
            · rw [same]
              unfold Config.procAddr
              omega
          rw [slot] at rest
          exact rest.start.resolve_right (fun none => by cases none)
        · exact waits ((waitsFor_iff (h.posted.number caller)).2 ⟨receiving, sending, ok⟩)
      refine Ends.bind (h.blockSender idle (able.resolve_right waits) valid there path apart notWaits)
        fun t ⟨⟨B, sound⟩, step, steady, waits', flags, sendto⟩ => ?_
      exact Ends.pure ⟨⟨B, _, sound, .post step, steady⟩, waits', fun _ => ⟨system, .inr ⟨flags, sendto⟩⟩,
        fun notOk => absurd rfl notOk⟩

end Sound

end Kernel

end SoiExercises.Sched
