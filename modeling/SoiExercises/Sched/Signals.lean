import Mathlib.Data.Finset.Card
import Mathlib.Data.Finset.Filter
import Mathlib.Data.Finset.Range
import SoiExercises.Sched.Receive

/-!
# Signals

`sig_procs` counts the processes with a signal that MM has not been told about, and whenever MM waits for
any message there is none: `inform` is called when a signal arrives while MM waits (`cause_sig`) and when MM
begins to wait (`mini_rec`). `Valid` is a sound kernel of which this holds.
-/

namespace SoiExercises.Sched

open SoiExercises.Lib

/-- The slot of a process with a new signal. -/
def Proc.noticed (p : Proc) : Proc := { p with flags := insert .pending (insert .sigPending p.flags) }

namespace Kernel

/-- The processes with a signal that MM does not know. -/
def pendings (cfg : Config) (s : Kernel) : Finset Nat :=
  (Finset.range cfg.endProcAddr).filter fun k => .pending ∈ (s.proc k).flags

/-- `sig_procs` is right, and a process is held until MM has dealt with its signals. -/
structure Signals (cfg : Config) (s : Kernel) : Prop where
  count : s.sigProcs = (s.pendings cfg).card
  held : ∀ {k}, .pending ∈ (s.proc k).flags → .sigPending ∈ (s.proc k).flags

/-- MM does not wait for any message while there is a signal that it does not know. -/
def Informed (cfg : Config) (s : Kernel) : Prop :=
  .receiving ∈ (s.proc (cfg.procAddr MM_PROC_NR)).flags → (s.proc (cfg.procAddr MM_PROC_NR)).getfrom = ANY → s.sigProcs = 0

/-- A sound kernel between two calls, with its signals. -/
structure Valid (cfg : Config) (s : Kernel) (A : Scheduler) (P : Mail) : Prop extends Sound cfg s A P where
  signals : Signals cfg s
  informed : Informed cfg s

/-- No task has been blocked. -/
def TasksRun (s t : Kernel) : Prop := ∀ k, (s.proc k).priority = .task → (t.proc k).flags ⊆ (s.proc k).flags

/-- The kernel is valid again, and its messages have moved by the protocol. -/
def Carried (cfg : Config) (s : Kernel) (P : Mail) (sent : Nat → Nat → List Int) (t : Kernel) : Prop :=
  ∃ B P', Valid cfg t B P' ∧ Passes cfg P sent P' ∧ Stable s t

/-- Processes other than MM wait still. -/
def OthersWait (cfg : Config) (s t : Kernel) : Prop :=
  ∀ k, k ≠ cfg.procAddr MM_PROC_NR → .receiving ∈ (s.proc k).flags → .receiving ∈ (t.proc k).flags

variable {cfg : Config} {s t u : Kernel} {A B : Scheduler} {P P' : Mail} {k j rp caller dest : Nat} {m : Message}
  {src : Int} {f : Proc → Proc}

theorem mem_pendings : k ∈ s.pendings cfg ↔ k < cfg.endProcAddr ∧ .pending ∈ (s.proc k).flags := by
  unfold pendings
  rw [Finset.mem_filter, Finset.mem_range]

theorem Signals.steady (h : Signals cfg s) (steady : Steady s t) : Signals cfg t where
  count := by
    have same : t.pendings cfg = s.pendings cfg := by
      ext k
      rw [mem_pendings, mem_pendings, steady.flags k .pending (by decide) (by decide)]
    rw [steady.sigProcs, same]
    exact h.count
  held {k} pending := by
    rw [steady.flags k .pending (by decide) (by decide)] at pending
    rw [steady.flags k .sigPending (by decide) (by decide)]
    exact h.held pending

theorem Signals.of_eq (h : Signals cfg s) (proc : t.proc = s.proc) (sigProcs : t.sigProcs = s.sigProcs) : Signals cfg t where
  count := by
    unfold pendings
    rw [proc, sigProcs]
    exact h.count
  held pending := by
    rw [proc] at pending ⊢
    exact h.held pending

theorem Informed.noNewWaits (h : Informed cfg s) (waits : NoNewWaits s t) (sigProcs : t.sigProcs = s.sigProcs) :
    Informed cfg t := by
  intro receiving any
  obtain ⟨old, same⟩ := waits _ receiving
  rw [sigProcs]
  exact h old (same ▸ any)

/-- The fields that a sound kernel is about are the same. -/
theorem Sound.of_eq (h : Sound cfg s A P) (proc : t.proc = s.proc) (rdyHead : t.rdyHead = s.rdyHead)
    (rdyTail : t.rdyTail = s.rdyTail) (procPtr : t.procPtr = s.procPtr) (billPtr : t.billPtr = s.billPtr) :
    Sound cfg t A P where
  table := h.table.of_flags (fun k => by rw [proc]) fun k => by rw [proc]
  manned := by
    refine h.manned.congr ?_ (fun k => by rw [proc]) rdyHead rdyTail procPtr billPtr fun k _ => by rw [proc]
    unfold links
    rw [proc]
  posted := h.posted.congr (fun k => by rw [proc]; exact .refl _) (fun k => by rw [proc]) fun k => by rw [proc]

theorem Stable.of_eq (proc : t.proc = s.proc) (heldHead : t.heldHead = s.heldHead) (heldTail : t.heldTail = s.heldTail)
    (realtime : t.realtime = s.realtime) (nextAlarm : t.nextAlarm = s.nextAlarm) : Stable s t := by
  refine ⟨fun k => ?_, fun k => ?_, fun k => ?_, fun k => ?_, heldHead, heldTail, realtime, nextAlarm⟩
  all_goals rw [proc]

theorem Moved.carried {sent : Nat → Nat → List Int} (h : Moved cfg s P sent t) (signals : Signals cfg s) (informed : Informed cfg s)
    (waits : NoNewWaits s t) : Carried cfg s P sent t := by
  obtain ⟨B, P', sound, run, steady⟩ := h
  exact ⟨B, P', ⟨sound, signals.steady steady, informed.noNewWaits waits steady.sigProcs⟩, run, steady.toStable⟩

/-- A flag other than those of the exchange of messages belongs to a server or user process. -/
theorem Table.signalled {x : Flag} (h : Table cfg s) (hx : x ∈ (s.proc k).flags) (hs : x ≠ .sending) (hr : x ≠ .receiving) :
    cfg.NR_TASKS ≤ k ∧ k < cfg.endProcAddr := by
  have scheduled := h.live hx
  refine ⟨h.procs ?_, h.inside scheduled⟩
  have notTask : (s.proc k).priority ≠ .task := fun task => (h.taskFlags hx task).elim hs hr
  cases priority : (s.proc k).priority with
  | none => simp [priority, Ppri.scheduled] at scheduled
  | task => exact absurd priority notTask
  | server => exact .inl rfl
  | user => exact .inr rfl
  | idle => simp [priority, Ppri.scheduled] at scheduled

/-- `inform` finds a process with a signal when there is one. -/
theorem findPending_none (h : Table cfg s) (none : s.findPending cfg = none) : s.pendings cfg = ∅ := by
  unfold findPending at none
  rw [List.find?_range'_eq_none] at none
  rw [Finset.eq_empty_iff_forall_notMem]
  intro k hk
  obtain ⟨-, pending⟩ := mem_pendings.1 hk
  obtain ⟨low, high⟩ := h.signalled pending (by decide) (by decide)
  have absent := none k low high
  simp [pending] at absent

namespace Manned

/-- `stopRunning`: a process that runs no longer does. -/
theorem stop (h : Manned cfg s A fun k => (s.proc k).flags = ∅) :
    Ends Fault.Overrun (fun t => ∃ B b, Manned cfg t B (fun k => (s.proc k).flags = ∅ ∧ k ≠ rp) ∧
      Requeued { s with switching := b } t) (s.stopRunning cfg rp) := by
  unfold Kernel.stopRunning
  refine .ite (fun _ => ?_) fun asleep => ?_
  · have locked : Manned cfg { s with switching := true } A fun k => (s.proc k).flags = ∅ :=
      h.congr rfl (fun _ => rfl) rfl rfl rfl rfl fun _ _ => Iff.rfl
    unfold Kernel.lockUnready
    refine Ends.bind locked.sleep fun t ⟨B, manned, requeued⟩ => Ends.pure ⟨B, false, ?_, ?_⟩
    · exact manned.congr rfl (fun _ => rfl) rfl rfl rfl rfl fun _ _ => Iff.rfl
    · obtain ⟨r, rfl⟩ := requeued
      exact ⟨r, rfl⟩
  · refine Ends.ok ⟨A, s.switching, ?_, .refl s⟩
    refine h.congr rfl (fun _ => rfl) rfl rfl rfl rfl fun k _ => ?_
    exact ⟨fun both => both.1, fun awake => ⟨awake, fun same => asleep (same ▸ awake)⟩⟩

end Manned

/-- A message to a process that waits for it. -/
theorem miniSend_waits {n : Int} (allowed : (s.proc caller).isUserp = false) (present : (s.proc (cfg.procAddr n)).isEmptyp = false)
    (waits : (s.proc (cfg.procAddr n)).waitsFor (s.proc caller).nr) :
    s.miniSend cfg caller n m true = do
      let s ← s.deliver caller (cfg.procAddr n) m
      return (.OK, s) := by
  have open_ : .sending ∉ (s.proc (cfg.procAddr n)).flags := by
    unfold Proc.waitsFor at waits
    simp only [Bool.and_eq_true, decide_eq_true_eq] at waits
    exact waits.1.2
  unfold miniSend deadlocked
  simp [allowed, present, waits, open_]

theorem update_flags_subset (fewer : (f (s.proc k)).flags ⊆ (s.proc k).flags) (j : Nat) :
    ((s.update k f).proc j).flags ⊆ (s.proc j).flags := by
  by_cases hj : j = k
  · subst hj
    rw [update_proc_self]
    exact fewer
  · rw [update_proc_ne hj]

/-- `inform` sends a message that MM waits for. -/
theorem inform_eq (found : s.findPending cfg = some rp) (allowed : (s.proc (cfg.procAddr HARDWARE)).isUserp = false)
    (present : (s.proc (cfg.procAddr MM_PROC_NR)).isEmptyp = false)
    (waits : (s.proc (cfg.procAddr MM_PROC_NR)).waitsFor (s.proc (cfg.procAddr HARDWARE)).nr) :
    s.inform cfg = do
      let t ← { s with sigProcs := s.sigProcs - 1, switching := true }.deliver (cfg.procAddr HARDWARE)
        (cfg.procAddr MM_PROC_NR) ⟨HARDWARE, KSIG⟩
      return ({ t with switching := false }.update rp fun p => { p with flags := p.flags.erase .pending }).lockPickProc cfg := by
  have sent := miniSend_waits (s := { s with sigProcs := s.sigProcs - 1, switching := true }) (m := ⟨HARDWARE, KSIG⟩)
    allowed present waits
  unfold inform lockMiniSend
  rw [found]
  dsimp only
  rw [sent, bind_assoc, bind_assoc]
  rfl

namespace Sound

/-- Marks other than those of the exchange of messages are set or cleared on a process that stays blocked,
or stays awake. -/
theorem mark (h : Sound cfg s A P) {g : Finset Flag → Finset Flag} (same : g (s.proc k).flags = ∅ ↔ (s.proc k).flags = ∅)
    (sending : .sending ∈ g (s.proc k).flags ↔ .sending ∈ (s.proc k).flags)
    (receiving : .receiving ∈ g (s.proc k).flags ↔ .receiving ∈ (s.proc k).flags)
    (may : ∀ x ∈ g (s.proc k).flags, x ∈ (s.proc k).flags ∨
      (s.proc k).priority.scheduled ∧ (s.proc k).priority ≠ .task) :
    Sound cfg (s.update k fun p => { p with flags := g p.flags }) A P where
  table := h.table.update rfl fun x hx => (may x hx).imp_right fun new => ⟨new.1, fun task => absurd task new.2⟩
  manned := by
    refine h.manned.update rfl rfl fun j _ => ?_
    by_cases hj : j = k
    · subst hj
      rw [update_proc_self]
      exact same
    · rw [update_proc_ne hj]
  posted := h.posted.update ⟨rfl, rfl, rfl, rfl, rfl, sending, receiving⟩ rfl rfl

/-- A process that has been stopped is marked. -/
theorem halt {b : Bool} (h : Sound cfg s A P) (manned : Manned cfg t B fun j => (s.proc j).flags = ∅ ∧ j ≠ rp)
    (requeued : Requeued { s with switching := b } t) {g : Finset Flag → Finset Flag} (blocked : g (s.proc rp).flags ≠ ∅)
    (sending : .sending ∈ g (s.proc rp).flags ↔ .sending ∈ (s.proc rp).flags)
    (receiving : .receiving ∈ g (s.proc rp).flags ↔ .receiving ∈ (s.proc rp).flags)
    (may : ∀ x ∈ g (s.proc rp).flags, x ∈ (s.proc rp).flags ∨
      (s.proc rp).priority.scheduled ∧ (s.proc rp).priority ≠ .task) :
    Sound cfg (t.update rp fun p => { p with flags := g p.flags }) B P := by
  obtain ⟨r, rfl⟩ := requeued
  refine ⟨?_, ?_, ?_⟩
  · have table : Table cfg ({ s with switching := b }.place r) := h.table.of_flags (fun _ => rfl) fun _ => Finset.Subset.refl _
    exact table.update rfl fun x hx => (may x hx).imp_right fun new => ⟨new.1, fun task => absurd task new.2⟩
  · refine manned.update rfl rfl fun j _ => ?_
    by_cases hj : j = rp
    · subst hj
      rw [update_proc_self]
      exact ⟨fun none => absurd none blocked, fun both => absurd rfl both.2⟩
    · rw [update_proc_ne hj]
      exact ⟨fun none => ⟨none, hj⟩, fun both => both.1⟩
  · have posted : Posted cfg ({ s with switching := b }.place r) P :=
      h.posted.congr (fun _ => ⟨rfl, rfl, rfl, rfl, rfl, Iff.rfl, Iff.rfl⟩) (fun _ => rfl) fun _ => rfl
    exact posted.update ⟨rfl, rfl, rfl, rfl, rfl, sending, receiving⟩ rfl rfl

/-- When MM waits for any message it is not blocked in a send. -/
theorem mm_open (h : Sound cfg s A P) (receiving : .receiving ∈ (s.proc k).flags) (any : (s.proc k).getfrom = ANY) :
    .sending ∉ (s.proc k).flags := by
  intro sending
  have target := h.posted.target sending
  rw [← h.posted.both receiving sending, any] at target
  have out := h.table.any
  unfold Config.procAddr Config.endProcAddr at target
  omega

/-- A mark is cleared on a process that keeps another flag. -/
theorem clear {x y : Flag} (h : Sound cfg s A P) (kept : y ∈ (s.proc k).flags) (ne : y ≠ x) (hs : .sending ≠ x)
    (hr : .receiving ≠ x) : Sound cfg (s.update k fun p => { p with flags := p.flags.erase x }) A P := by
  refine h.mark (g := fun flags => flags.erase x) ?_ ?_ ?_ fun z hz => .inl (Finset.mem_of_mem_erase hz)
  · have left : y ∈ (s.proc k).flags.erase x := Finset.mem_erase.2 ⟨ne, kept⟩
    exact iff_of_false (Finset.ne_empty_of_mem left) (Finset.ne_empty_of_mem kept)
  · simp [hs]
  · simp [hr]

/-- `lock_pick_proc` -/
theorem lockPickProc (h : Sound cfg s A P) : Sound cfg (s.lockPickProc cfg) (A.pick cfg) P := by
  have locked : Sound cfg { s with switching := true } A P := h.of_eq rfl rfl rfl rfl rfl
  have picked : Sound cfg ({ s with switching := true }.pickProc cfg) (A.pick cfg) P :=
    ⟨locked.table.requeued ((Requeued.refl _).pickProc cfg), locked.manned.pickProc.congr rfl (fun _ => rfl) rfl rfl rfl rfl
      fun k _ => by rw [pickProc_proc], locked.posted.requeued ((Requeued.refl _).pickProc cfg)⟩
  exact picked.of_eq rfl rfl rfl rfl rfl

end Sound

@[simp] theorem lockPickProc_proc : (s.lockPickProc cfg).proc = s.proc := by
  unfold Kernel.lockPickProc
  dsimp only
  rw [pickProc_proc]

@[simp] theorem lockPickProc_sigProcs : (s.lockPickProc cfg).sigProcs = s.sigProcs := by
  obtain ⟨r, same⟩ := (Requeued.refl { s with switching := true }).pickProc cfg
  unfold Kernel.lockPickProc
  rw [same]
  rfl

theorem lockPickProc_stable : Stable s (s.lockPickProc cfg) := by
  obtain ⟨r, same⟩ := (Requeued.refl { s with switching := true }).pickProc cfg
  unfold Kernel.lockPickProc
  rw [same]
  exact ⟨fun _ => rfl, fun _ => rfl, fun _ => rfl, fun _ => rfl, rfl, rfl, rfl, rfl⟩

/-- MM has been told about the process `rp`: one signal less is pending. -/
theorem Signals.told {f : Proc → Proc} (h : Signals cfg s) (pending : .pending ∈ (s.proc rp).flags) (inside : rp < cfg.endProcAddr)
    (flags : ∀ k x, x ≠ .sending → x ≠ .receiving → (x ∈ (t.proc k).flags ↔ x ∈ (s.proc k).flags))
    (cleared : (f (t.proc rp)).flags = (t.proc rp).flags.erase .pending) (sigProcs : t.sigProcs = s.sigProcs - 1) :
    Signals cfg (t.update rp f) where
  count := by
    have same : (t.update rp f).pendings cfg = (s.pendings cfg).erase rp := by
      ext k
      rw [Finset.mem_erase, mem_pendings, mem_pendings]
      by_cases hk : k = rp
      · subst hk
        rw [update_proc_self, cleared]
        simp
      · rw [update_proc_ne hk, flags k .pending (by decide) (by decide)]
        simp [hk]
    have here : rp ∈ s.pendings cfg := mem_pendings.2 ⟨inside, pending⟩
    have positive : 0 < (s.pendings cfg).card := Finset.card_pos.2 ⟨rp, here⟩
    have count := h.count
    rw [same, Finset.card_erase_of_mem here]
    show t.sigProcs = _
    omega
  held {k} hk := by
    by_cases same : k = rp
    · subst same
      rw [update_proc_self, cleared] at hk
      exact absurd hk (Finset.notMem_erase _ _)
    · rw [update_proc_ne same] at hk ⊢
      exact (flags k .sigPending (by decide) (by decide)).2 (h.held ((flags k .pending (by decide) (by decide)).1 hk))

namespace Sound

/-- **`inform`**: MM, which waits for any message, is told about a signal if there is one. -/
theorem inform (h : Sound cfg s A P) (signals : Signals cfg s)
    (receiving : .receiving ∈ (s.proc (cfg.procAddr MM_PROC_NR)).flags)
    (any : (s.proc (cfg.procAddr MM_PROC_NR)).getfrom = ANY) :
    Returns (fun t => Carried cfg s P Post.nothing t ∧ TasksRun s t ∧ OthersWait cfg s t) (s.inform cfg) := by
  have server : (s.proc (cfg.procAddr MM_PROC_NR)).priority = .server := h.table.servers rfl
  have hardware : (s.proc (cfg.procAddr HARDWARE)).priority = .idle := h.table.hardware
  have idle : (s.proc (cfg.procAddr HARDWARE)).flags = ∅ := by
    rw [Finset.eq_empty_iff_forall_notMem]
    intro x hx
    have scheduled := h.table.live hx
    rw [hardware] at scheduled
    cases scheduled
  cases found : s.findPending cfg with
  | none =>
    unfold Kernel.inform
    rw [found]
    have zero : s.sigProcs = 0 := by
      rw [signals.count, findPending_none h.table found]
      rfl
    exact Ends.ok ⟨⟨A, P, ⟨h, signals, fun _ _ => zero⟩, .refl P, .refl s⟩, fun _ _ => Finset.Subset.refl _, fun _ _ waits => waits⟩
  | some rp =>
    have pending : .pending ∈ (s.proc rp).flags := by
      have holds := List.find?_some found
      exact of_decide_eq_true holds
    have waits : (s.proc (cfg.procAddr MM_PROC_NR)).waitsFor (s.proc (cfg.procAddr HARDWARE)).nr :=
      (waitsFor_iff (h.posted.number _)).2 ⟨receiving, h.mm_open receiving any, .inl any⟩
    have inside : rp < cfg.endProcAddr := h.table.inside (h.table.live pending)
    rw [inform_eq found (by simp [Proc.isUserp, hardware]) (by simp [Proc.isEmptyp, server]) waits]
    -- the state in which the message is sent
    have sound₁ : Sound cfg { s with sigProcs := s.sigProcs - 1, switching := true } A P := h.of_eq rfl rfl rfl rfl rfl
    have stable₁ : Stable s { s with sigProcs := s.sigProcs - 1, switching := true } := .of_eq rfl rfl rfl rfl rfl
    refine (sound₁.deliver (by simp [idle]) waits fun user => by rw [server] at user; cases user).bind ?_
    rintro t ⟨⟨B, sound⟩, step, steady, waits', others, -, -⟩
    have held : .sigPending ∈ (t.proc rp).flags :=
      (steady.flags rp .sigPending (by decide) (by decide)).2 (signals.held pending)
    have notWaiting : .receiving ∉ (t.proc (cfg.procAddr MM_PROC_NR)).flags :=
      sound.posted.waiting_none.1 (Function.update_self ..)
    have unlocked : Sound cfg { t with switching := false } B _ := sound.of_eq rfl rfl rfl rfl rfl
    have stable : Stable s { t with switching := false } := (stable₁.trans steady.toStable).trans (.of_eq rfl rfl rfl rfl rfl)
    have told : Signals cfg
        ({ t with switching := false }.update rp fun p => { p with flags := p.flags.erase .pending }) :=
      signals.told pending inside steady.flags rfl steady.sigProcs
    have fewer := update_flags_subset (s := { t with switching := false }) (k := rp)
      (f := fun p => { p with flags := p.flags.erase .pending }) (Finset.erase_subset ..)
    refine Ends.pure ⟨⟨_, _, ⟨(unlocked.clear held (by decide) (by decide) (by decide)).lockPickProc,
      told.of_eq lockPickProc_proc lockPickProc_sigProcs, ?_⟩, .hand_of_other step fun counts => counts.1 rfl,
      (stable.trans (.update rfl rfl rfl rfl)).trans lockPickProc_stable⟩, ?_, ?_⟩
    · intro receiving
      rw [lockPickProc_proc] at receiving
      exact absurd (fewer _ receiving) notWaiting
    · intro k task
      rw [lockPickProc_proc]
      have other : k ≠ cfg.procAddr MM_PROC_NR := by
        rintro rfl
        rw [server] at task
        cases task
      exact (fewer k).trans (others k other).subset
    · intro k other receiving
      rw [lockPickProc_proc]
      rw [← others k other] at receiving
      by_cases hk : k = rp
      · subst hk
        rw [update_proc_self]
        exact Finset.mem_erase.2 ⟨by decide, receiving⟩
      · rw [update_proc_ne hk]
        exact receiving

end Sound

/-- One more process has a signal that MM does not know. -/
theorem Signals.caused (h : Signals cfg s) (fresh : .pending ∉ (s.proc rp).flags) (inside : rp < cfg.endProcAddr)
    (proc : ∀ k, k ≠ rp → (t.proc k).flags = (s.proc k).flags)
    (caused : (t.proc rp).flags = insert .pending (insert .sigPending (s.proc rp).flags))
    (sigProcs : t.sigProcs = s.sigProcs + 1) : Signals cfg t where
  count := by
    have same : t.pendings cfg = insert rp (s.pendings cfg) := by
      ext k
      rw [Finset.mem_insert, mem_pendings, mem_pendings]
      by_cases hk : k = rp
      · subst hk
        rw [caused]
        simp [inside]
      · rw [proc k hk]
        simp [hk]
    have absent : rp ∉ s.pendings cfg := fun here => fresh (mem_pendings.1 here).2
    have count := h.count
    rw [same, Finset.card_insert_of_notMem absent]
    omega
  held {k} pending := by
    by_cases hk : k = rp
    · subst hk
      rw [caused]
      simp
    · rw [proc k hk] at pending ⊢
      exact h.held pending

theorem Carried.refl (h : Valid cfg s A P) : Carried cfg s P Post.nothing s := ⟨A, P, h, .refl P, .refl s⟩

theorem TasksRun.refl (s : Kernel) : TasksRun s s := fun _ _ => Finset.Subset.refl _

/-- The process `rp` has a signal that MM does not know. -/
def notice (s : Kernel) (rp : Nat) : Kernel := { s.update rp Proc.noticed with sigProcs := s.sigProcs + 1 }

theorem notice_flags_self : ((s.notice rp).proc rp).flags = insert .pending (insert .sigPending (s.proc rp).flags) := by
  show ((s.update rp Proc.noticed).proc rp).flags = _
  rw [update_proc_self]
  rfl

theorem notice_flags_ne (h : k ≠ rp) : ((s.notice rp).proc k).flags = (s.proc k).flags := by
  show ((s.update rp Proc.noticed).proc k).flags = _
  rw [update_proc_ne h]

theorem notice_field {β : Type} (g : Proc → β) (kept : ∀ p v, g { p with flags := v } = g p) (k : Nat) :
    g ((s.notice rp).proc k) = g (s.proc k) :=
  update_field (s := s) (k := rp) (f := Proc.noticed) g (kept _ _) k

theorem causeSig_eq {n : Int} {known : Bool} : s.causeSig cfg n known =
    if known then .ok s
    else if .pending ∈ (s.proc (cfg.procAddr n)).flags then .ok s
    else s.stopRunning cfg (cfg.procAddr n) >>= fun t =>
      let u := t.notice (cfg.procAddr n)
      if .receiving ∉ (u.proc (cfg.procAddr MM_PROC_NR)).flags ∨ (u.proc (cfg.procAddr MM_PROC_NR)).getfrom ≠ ANY then return u
      else u.inform cfg := by
  unfold causeSig stopRunning
  dsimp only
  split
  · rfl
  · split
    · rfl
    · split
      · rfl
      · rfl

/-- **`cause_sig`**: a server or user process is held, and MM is told if it waits. -/
theorem Valid.causeSig {n : Int} {known : Bool} (h : Valid cfg s A P)
    (scheduled : (s.proc (cfg.procAddr n)).priority.scheduled) (notTask : (s.proc (cfg.procAddr n)).priority ≠ .task) :
    Ends Fault.Overrun (fun t => Carried cfg s P Post.nothing t ∧ TasksRun s t ∧ OthersWait cfg s t)
      (s.causeSig cfg n known) := by
  rw [causeSig_eq]
  refine .ite (fun _ => Ends.ok ⟨.refl h, .refl s, fun _ _ waits => waits⟩) fun _ => ?_
  refine .ite (fun _ => Ends.ok ⟨.refl h, .refl s, fun _ _ waits => waits⟩) fun fresh => ?_
  refine Ends.bind h.manned.stop fun t ⟨B, b, manned, requeued⟩ => ?_
  dsimp only
  have held := h.halt manned requeued (g := fun flags => insert .pending (insert .sigPending flags))
    (Finset.insert_nonempty ..).ne_empty (by simp) (by simp) fun _ _ => .inr ⟨scheduled, notTask⟩
  have sound : Sound cfg (t.notice (cfg.procAddr n)) B P := held.of_eq rfl rfl rfl rfl rfl
  have here : ((t.notice (cfg.procAddr n)).proc (cfg.procAddr n)).flags =
      insert .pending (insert .sigPending (s.proc (cfg.procAddr n)).flags) := by
    rw [notice_flags_self, requeued_flags requeued]
  have others {k : Nat} (hk : k ≠ cfg.procAddr n) : ((t.notice (cfg.procAddr n)).proc k).flags = (s.proc k).flags := by
    rw [notice_flags_ne hk, requeued_flags requeued]
  have stable : Stable s (t.notice (cfg.procAddr n)) := by
    obtain ⟨r, rfl⟩ := requeued
    exact ⟨notice_field Proc.priority fun _ _ => rfl, notice_field Proc.alarm fun _ _ => rfl,
      notice_field Proc.intHeld fun _ _ => rfl, notice_field Proc.nextheld fun _ _ => rfl, rfl, rfl, rfl, rfl⟩
  have signals : Signals cfg (t.notice (cfg.procAddr n)) := by
    refine h.signals.caused fresh (h.table.inside scheduled) (fun k hk => others hk) here ?_
    obtain ⟨r, rfl⟩ := requeued
    rfl
  have tasks : TasksRun s (t.notice (cfg.procAddr n)) := by
    intro k task
    have other : k ≠ cfg.procAddr n := by
      rintro rfl
      exact notTask task
    rw [others other]
  have wait : OthersWait cfg s (t.notice (cfg.procAddr n)) := by
    intro k _ receiving
    by_cases hk : k = cfg.procAddr n
    · subst hk
      rw [here]
      exact Finset.mem_insert_of_mem (Finset.mem_insert_of_mem receiving)
    · rw [others hk]
      exact receiving
  generalize t.notice (cfg.procAddr n) = u at *
  refine .ite (fun busy => ?_) fun waiting => ?_
  · refine Ends.pure ⟨⟨B, P, ⟨sound, signals, fun receiving any => ?_⟩, .refl P, stable⟩, tasks, wait⟩
    exact absurd any (busy.resolve_left (not_not.2 receiving))
  · rw [not_or, not_not, not_not] at waiting
    refine .of_returns ((sound.inform signals waiting.1 waiting.2).imp fun v ⟨⟨C, P', valid, run, stable'⟩, tasks', wait'⟩ => ?_)
    refine ⟨⟨C, P', valid, run, stable.trans stable'⟩, fun k task => ?_, fun k other receiving => wait' k other (wait k other receiving)⟩
    exact (tasks' k ((stable.priority k).trans task)).trans (tasks k task)

end Kernel

end SoiExercises.Sched
