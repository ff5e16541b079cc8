import SoiExercises.Sched.Sound

/-!
# Receiving

The two ways in which `mini_rec` ends, apart from an interrupt that was held back: a message is taken from
the queue (`acceptFrom`), or the caller is blocked (`awaitMessage`, the first part of `blockReceiver`).
-/

namespace SoiExercises.Sched

open SoiExercises.Lib

/-- The slot with `m` in its buffer. -/
def Proc.copied (p : Proc) (m : Message) : Proc := { p with messbuf := m }

/-- The slot of a sender whose message has been taken. -/
def Proc.released (p : Proc) : Proc := { p with flags := p.flags.erase .sending }

namespace Kernel

variable {cfg : Config} {s t u : Kernel} {A B : Scheduler} {P : Mail} {k j rp caller dest sender : Nat} {m : Message}
  {src a : Int}

/-- `blockReceiver` up to the question whether MM is to be informed. -/
def awaitMessage (cfg : Config) (s : Kernel) (caller : Nat) (src : Int) : Result Kernel := do
  let s := s.update caller fun p => { p with getfrom := src }
  let s ← if (s.proc caller).flags = ∅ then s.unready cfg caller else .ok s
  return s.update caller fun p => { p with flags := insert .receiving p.flags }

theorem blockReceiver_eq (hs : Handlers) : s.blockReceiver cfg hs caller src = s.awaitMessage cfg caller src >>= fun s =>
    if 0 < s.sigProcs ∧ (s.proc caller).nr = MM_PROC_NR ∧ src = ANY then hs.inform s else return s := by
  unfold blockReceiver awaitMessage
  dsimp only
  split
  · rw [bind_assoc]
    rfl
  · rfl

/-- A scheduled process is not the hardware. -/
theorem Table.not_hardware (h : Table cfg s) (scheduled : (s.proc k).priority.scheduled) :
    isRxHardware (k - cfg.NR_TASKS) = false := by
  have inside := h.inside scheduled
  have any := h.any
  unfold Config.endProcAddr at inside
  have notAny : (k : Int) - cfg.NR_TASKS ≠ ANY := by omega
  have notHardware : (k : Int) - cfg.NR_TASKS ≠ HARDWARE := by
    intro same
    have slot : cfg.procAddr HARDWARE = k := by
      unfold Config.procAddr
      rw [← same]
      omega
    rw [← slot, h.hardware] at scheduled
    cases scheduled
  unfold isRxHardware
  simp [notAny, notHardware]

namespace Sound

/-- A message is taken from the queue of the caller. -/
theorem acceptFrom {before after : List (Nat × Int)} (h : Sound cfg s A P) (idle : (s.proc caller).flags = ∅)
    (scheduled : (s.proc caller).priority.scheduled) (split : P.queue caller = before ++ (sender, a) :: after)
    (ok : cfg.accepts src sender) (earlier : ∀ e ∈ before, ¬ cfg.accepts src e.1)
    (turn : (s.proc sender).priority.queue = .userQ → s.InSystem) :
    Returns (fun t => Moved cfg s P Post.nothing t ∧ NoNewWaits s t) (s.acceptFrom caller (before.map Prod.fst).getLast? sender) := by
  have here : (sender, a) ∈ P.queue caller := by
    rw [split]
    simp
  obtain ⟨sends, -⟩ := awaits_iff.1 (h.posted.sends.1 (List.mem_map_of_mem here))
  have ne : sender ≠ caller := by
    rintro rfl
    simp [idle] at sends
  have mType : (s.proc sender).messbuf.mType = a := h.posted.text here
  have alive : (s.proc sender).priority.scheduled := h.table.live sends
  have asleep : ¬ (s.proc sender).flags = ∅ := fun none => by simp [none] at sends
  have accepted : s.acceptFrom caller (before.map Prod.fst).getLast? sender = do
      let s₂ ← (s.update caller fun p => p.copied ⟨sender - cfg.NR_TASKS, a⟩).dequeueSender caller
        (before.map Prod.fst).getLast? sender
      let s₃ := s₂.update sender Proc.released
      if (s₃.proc sender).flags = ∅ then s₃.ready sender else return s₃ := by
    rw [← mType, ← h.posted.number]
    rfl
  rw [accepted]
  have queued₁ : Queued (s.update caller fun p => p.copied ⟨sender - cfg.NR_TASKS, a⟩)
      fun d => (P.queue d).map Prod.fst := by
    refine ⟨fun d => ?_, h.posted.queued.once⟩
    have links : (s.update caller fun p => p.copied ⟨sender - cfg.NR_TASKS, a⟩).sendlinks = s.sendlinks :=
      funext (update_field Proc.sendlink (by rfl))
    rw [links, update_field Proc.callerq (by rfl)]
    exact h.posted.queued.listed d
  have steady₁ : Steady s (s.update caller fun p => p.copied ⟨sender - cfg.NR_TASKS, a⟩) :=
    .update (.update rfl rfl rfl rfl) fun _ _ _ => Iff.rfl
  have manned₁ : Manned cfg (s.update caller fun p => p.copied ⟨sender - cfg.NR_TASKS, a⟩) A
      fun k => (s.proc k).flags = ∅ := h.manned.update rfl rfl fun _ _ => Iff.rfl
  have others₁ {j : Nat} (hj : j ≠ caller) :
      (s.update caller fun p => p.copied ⟨sender - cfg.NR_TASKS, a⟩).proc j = s.proc j := update_proc_ne hj
  have here₁ : (s.update caller fun p => p.copied ⟨sender - cfg.NR_TASKS, a⟩).proc caller =
      (s.proc caller).copied ⟨sender - cfg.NR_TASKS, a⟩ := update_proc_self
  have procPtr₁ : (s.update caller fun p => p.copied ⟨sender - cfg.NR_TASKS, a⟩).procPtr = s.procPtr := rfl
  generalize s.update caller (fun p => p.copied ⟨sender - cfg.NR_TASKS, a⟩) = s₁ at *
  have split₁ : (P.queue caller).map Prod.fst = before.map Prod.fst ++ sender :: after.map Prod.fst := by
    rw [split, List.map_append, List.map_cons]
  refine (queued₁.dequeueSender split₁).bind fun s₂ ⟨queued₂, relinked⟩ => ?_
  have flags₂ (j : Nat) : (s₂.proc j).flags = (s₁.proc j).flags := by
    obtain ⟨r, rfl⟩ := relinked
    rfl
  have text₂ (j : Nat) : SameText (s₁.proc j) (s₂.proc j) := SameText.relinked relinked j
  have manned₂ : Manned cfg s₂ A fun k => (s.proc k).flags = ∅ := by
    obtain ⟨r, rfl⟩ := relinked
    exact manned₁.congr rfl (fun _ => rfl) rfl rfl rfl rfl fun _ _ => Iff.rfl
  have steady₂ : Steady s s₂ := steady₁.trans (.relinked relinked)
  have procPtr₂ : s₂.procPtr = s.procPtr := by
    obtain ⟨r, rfl⟩ := relinked
    exact procPtr₁
  -- the state after the sender has lost its flag
  have released : ((s₂.update sender Proc.released).proc sender).flags =
      (s.proc sender).flags.erase .sending := by
    rw [update_proc_self]
    show (s₂.proc sender).flags.erase .sending = _
    rw [flags₂, others₁ ne]
  have others₃ {j : Nat} (hj : j ≠ sender) : (s₂.update sender Proc.released).proc j =
      s₂.proc j := update_proc_ne hj
  have flags₃ {j : Nat} (hj : j ≠ sender) :
      ((s₂.update sender Proc.released).proc j).flags = (s.proc j).flags := by
    rw [others₃ hj, flags₂]
    by_cases hc : j = caller
    · rw [hc, here₁]
      rfl
    · rw [others₁ hc]
  have text₃ (j : Nat) (hc : j ≠ caller) (hs : j ≠ sender) :
      SameText (s.proc j) ((s₂.update sender Proc.released).proc j) := by
    have same := text₂ j
    rw [others₁ hc] at same
    rw [others₃ hs]
    exact same
  have getfrom₃ (j : Nat) :
      ((s₂.update sender Proc.released).proc j).getfrom = (s.proc j).getfrom := by
    rw [update_field Proc.getfrom (by rfl), (text₂ j).getfrom]
    by_cases hc : j = caller
    · rw [hc, here₁]
      rfl
    · rw [others₁ hc]
  have nr₃ (j : Nat) : ((s₂.update sender Proc.released).proc j).nr = (s.proc j).nr := by
    rw [update_field Proc.nr (by rfl), (text₂ j).nr]
    by_cases hc : j = caller
    · rw [hc, here₁]
      rfl
    · rw [others₁ hc]
  have buffer₃ : ((s₂.update sender Proc.released).proc caller).messbuf = ⟨sender - cfg.NR_TASKS, a⟩ := by
    rw [others₃ ne.symm, (text₂ caller).messbuf, here₁]
    rfl
  have senderText : SameText (s.proc sender) (s₂.proc sender) := by
    have same := text₂ sender
    rw [others₁ ne] at same
    exact same
  have queued₃ : Queued (s₂.update sender Proc.released)
      (Function.update (fun d => (P.queue d).map Prod.fst) caller ((before ++ after).map Prod.fst)) := by
    rw [List.map_append]
    refine ⟨fun d => ?_, queued₂.once⟩
    have links : (s₂.update sender Proc.released).sendlinks = s₂.sendlinks :=
      funext (update_field Proc.sendlink (by rfl))
    rw [links, update_field Proc.callerq (by rfl)]
    exact queued₂.listed d
  obtain ⟨step, posted⟩ := h.posted.take (t := s₂.update sender Proc.released)
    (by simp [idle]) (by simp [idle]) split ok earlier (h.table.not_hardware scheduled) queued₃ text₃
    nr₃ (flags₃ ne.symm) buffer₃ released (getfrom₃ sender)
    ((update_field Proc.intBlocked (by rfl) sender).trans senderText.intBlocked)
    ((update_field Proc.messbuf (by rfl) sender).trans senderText.messbuf)
  have steady₃ : Steady s (s₂.update sender Proc.released) :=
    steady₂.trans (.update (.update rfl rfl rfl rfl) fun x hs _ => by simp [Proc.released, hs])
  have waits₃ : NoNewWaits s (s₂.update sender Proc.released) := by
    refine fun j hj => ⟨?_, getfrom₃ j⟩
    by_cases hs : j = sender
    · rw [hs, released] at hj
      exact hs ▸ Finset.mem_of_mem_erase hj
    · rw [flags₃ hs] at hj
      exact hj
  have table₃ : Table cfg (s₂.update sender Proc.released) := by
    refine h.table.of_flags steady₃.priority fun j => ?_
    by_cases hs : j = sender
    · rw [hs, released]
      exact Finset.erase_subset ..
    · rw [flags₃ hs]
  have manned₃ : Manned cfg (s₂.update sender Proc.released) A
      fun k => (s.proc k).flags = ∅ := manned₂.update rfl rfl fun _ _ => Iff.rfl
  have procPtr₃ : (s₂.update sender Proc.released).procPtr = s.procPtr := procPtr₂
  generalize s₂.update sender Proc.released = s₃ at *
  refine .ite (fun runnable => ?_) fun blocked => ?_
  · have turn₃ : (s₃.proc sender).priority.queue = .userQ → s₃.InSystem := by
      intro user
      rw [steady₃.priority] at user
      unfold InSystem
      rw [steady₃.priority, procPtr₃]
      exact turn user
    refine (manned₃.wake asleep (by rw [steady₃.priority]; exact alive) turn₃).imp
      fun t ⟨B, manned, requeued, _⟩ =>
        ⟨⟨B, _, ⟨table₃.requeued requeued, ?_, posted.requeued requeued⟩, .take step,
          steady₃.trans (.requeued requeued)⟩, fun j hj => ?_⟩
    · refine manned.congr rfl (fun _ => rfl) rfl rfl rfl rfl fun j _ => ?_
      rw [requeued_flags requeued]
      by_cases hs : j = sender
      · simp [hs, runnable]
      · rw [flags₃ hs]
        simp [hs]
    · rw [requeued_flags requeued] at hj
      rw [requeued_getfrom requeued]
      exact waits₃ j hj
  · refine Ends.pure ⟨⟨A, _, ⟨table₃, ?_, posted⟩, .take step, steady₃⟩, waits₃⟩
    refine manned₃.congr rfl (fun _ => rfl) rfl rfl rfl rfl fun j _ => ?_
    by_cases hs : j = sender
    · rw [hs]
      exact ⟨fun none => absurd none blocked, fun none => absurd none asleep⟩
    · rw [flags₃ hs]

/-- The caller waits for a message that is not in its queue. -/
theorem awaitMessage (h : Sound cfg s A P) (awake : .receiving ∉ (s.proc caller).flags)
    (scheduled : (s.proc caller).priority.scheduled) (nobody : ∀ k ∈ (P.queue caller).map Prod.fst, ¬ cfg.accepts src k)
    (answer : .sending ∈ (s.proc caller).flags → src = (s.proc caller).sendto)
    (calm : .sending ∉ (s.proc caller).flags → isRxHardware src → (s.proc caller).intBlocked = false) :
    Ends Fault.Overrun (fun t => (∃ B, Sound cfg t B (P.await caller src)) ∧
      P.Step cfg.accepts (.wait caller) (P.await caller src) ∧ Steady s t ∧
      (∀ j, j ≠ caller → SameText (s.proc j) (t.proc j)) ∧ (t.proc caller).nr = (s.proc caller).nr)
      (s.awaitMessage cfg caller src) := by
  -- whatever became of the ready queues, the rest is the same
  have waiting {s₂ : Kernel} {B : Scheduler} (requeued : Requeued (s.update caller fun p => { p with getfrom := src }) s₂)
      (manned : Manned cfg s₂ B fun j => (s.proc j).flags = ∅ ∧ j ≠ caller) :
      (∃ B, Sound cfg (s₂.update caller fun p => { p with flags := insert .receiving p.flags }) B (P.await caller src)) ∧
        P.Step cfg.accepts (.wait caller) (P.await caller src) ∧
        Steady s (s₂.update caller fun p => { p with flags := insert .receiving p.flags }) ∧
        (∀ j, j ≠ caller →
          SameText (s.proc j) ((s₂.update caller fun p => { p with flags := insert .receiving p.flags }).proc j)) ∧
        ((s₂.update caller fun p => { p with flags := insert .receiving p.flags }).proc caller).nr = (s.proc caller).nr := by
    have text₂ (j : Nat) (hj : j ≠ caller) : SameText (s.proc j) (s₂.proc j) := by
      have same := SameText.requeued requeued j
      rw [update_proc_ne hj] at same
      exact same
    have flags₂ (j : Nat) : (s₂.proc j).flags = (s.proc j).flags :=
      (requeued_flags requeued j).trans (update_field Proc.flags (by rfl) j)
    have steady₂ : Steady s s₂ := (Steady.update (.update rfl rfl rfl rfl) fun _ _ _ => Iff.rfl).trans (.requeued requeued)
    have field {β : Type} (g : Proc → β) (kept : ∀ p v, g { p with getfrom := v } = g p)
        (placed : ∀ p v c, g { p with nextready := v, timeCounter := c } = g p)
        (marked : ∀ p v, g { p with flags := v } = g p) (j : Nat) :
        g ((s₂.update caller fun p => { p with flags := insert .receiving p.flags }).proc j) = g (s.proc j) := by
      rw [update_field g (marked _ _)]
      obtain ⟨r, rfl⟩ := requeued
      exact (placed _ _ _).trans (update_field g (kept _ _) j)
    have flags : ((s₂.update caller fun p => { p with flags := insert .receiving p.flags }).proc caller).flags =
        insert .receiving (s.proc caller).flags := by
      rw [update_proc_self]
      show insert Flag.receiving (s₂.proc caller).flags = _
      rw [flags₂]
    have getfrom : ((s₂.update caller fun p => { p with flags := insert .receiving p.flags }).proc caller).getfrom = src := by
      rw [update_field Proc.getfrom (by rfl), requeued_getfrom requeued, update_proc_self]
    have others (j : Nat) (hj : j ≠ caller) :
        SameText (s.proc j) ((s₂.update caller fun p => { p with flags := insert .receiving p.flags }).proc j) := by
      rw [update_proc_ne hj]
      exact text₂ j hj
    have nr := field Proc.nr (fun _ _ => rfl) (fun _ _ _ => rfl) (fun _ _ => rfl)
    obtain ⟨step, posted⟩ := h.posted.wait awake nobody answer calm others
      (field Proc.callerq (fun _ _ => rfl) (fun _ _ _ => rfl) fun _ _ => rfl)
      (field Proc.sendlink (fun _ _ => rfl) (fun _ _ _ => rfl) fun _ _ => rfl) (nr caller)
      (field Proc.sendto (fun _ _ => rfl) (fun _ _ _ => rfl) (fun _ _ => rfl) caller)
      (field Proc.messbuf (fun _ _ => rfl) (fun _ _ _ => rfl) (fun _ _ => rfl) caller)
      (field Proc.intBlocked (fun _ _ => rfl) (fun _ _ _ => rfl) (fun _ _ => rfl) caller) getfrom flags
    have steady : Steady s (s₂.update caller fun p => { p with flags := insert .receiving p.flags }) :=
      steady₂.trans (.update (.update rfl rfl rfl rfl) fun x _ hr => by simp [hr])
    refine ⟨⟨B, ?_, ?_, posted⟩, step, steady, others, nr caller⟩
    · refine h.table.congr steady.priority fun j x hx => ?_
      by_cases hj : j = caller
      · subst hj
        rw [flags, Finset.mem_insert] at hx
        rcases hx with rfl | old
        · exact .inr ⟨scheduled, fun _ => .inr rfl⟩
        · exact .inl old
      · rw [update_proc_ne hj, flags₂] at hx
        exact .inl hx
    · refine manned.update rfl rfl fun j _ => ?_
      by_cases hj : j = caller
      · subst hj
        rw [flags]
        simp
      · rw [update_proc_ne hj, flags₂]
        simp [hj]
  have manned : Manned cfg (s.update caller fun p => { p with getfrom := src }) A fun k => (s.proc k).flags = ∅ :=
    h.manned.update rfl rfl fun _ _ => Iff.rfl
  unfold Kernel.awaitMessage
  dsimp only
  split
  · exact manned.sleep.bind fun s₂ ⟨B, manned₂, requeued⟩ => Ends.pure (waiting requeued manned₂)
  · rename_i blocked
    rw [update_proc_self] at blocked
    refine Ends.bind (Ends.ok (Q := fun t => t = s.update caller fun p => { p with getfrom := src }) rfl) ?_
    rintro _ rfl
    refine Ends.pure (waiting (.refl _) (manned.congr rfl (fun _ => rfl) rfl rfl rfl rfl fun j _ => ?_))
    exact ⟨fun both => both.1, fun none => ⟨none, fun same => blocked (same ▸ none)⟩⟩

end Sound

end Kernel

end SoiExercises.Sched
