import SoiExercises.Sched.ClockTask
import SoiExercises.Sched.Requests

/-!
# Held-up interrupts

`unhold` repeats the interrupts of the tasks in the queue. While it repeats one, others come in and join the
queue, so the loop ends because it has finitely many of these windows and every task is in the queue once. No
interrupt is lost: a task whose interrupt was held up is alerted afterwards.
-/

namespace SoiExercises.Sched

open SoiExercises.Lib

/-- The slot of a task whose interrupt is repeated. -/
def Proc.letGo (p : Proc) : Proc := { p with intHeld := false }

theorem Kernel.SamePart.letGo (p : Proc) : Kernel.SamePart p p.letGo :=
  ⟨⟨rfl, rfl, rfl, rfl, rfl, Iff.rfl, Iff.rfl⟩, rfl, rfl, rfl, rfl, rfl⟩

namespace Kernel

variable {cfg : Config} {s t u : Kernel} {A : Scheduler} {P : Mail} {H : List Nat} {k rp : Nat} {n : Int}
  {arrivals : List Int} {windows : List (List Int)}

/-- The queue of held-up interrupts when one comes in. -/
def joined (cfg : Config) (H : List Nat) (n : Int) : List Nat :=
  if cfg.procAddr n ∈ H then H else H ++ [cfg.procAddr n]

/-- The first of the queue of held-up interrupts leaves it. -/
def letGo (s : Kernel) (rp : Nat) : Kernel :=
  { s with
    heldHead := (s.proc rp).nextheld
    heldTail := if (s.proc rp).nextheld = none then none else s.heldTail }.update rp Proc.letGo

theorem repeatFirst_eq : s.repeatFirst cfg rp arrivals =
    arrivals.foldlM (nested cfg) (s.letGo rp) >>= fun t => t.interrupt cfg (t.proc rp).nr := rfl

/-- An interrupt for the task is held up or has come to it. -/
def Owed (s : Kernel) (k : Nat) : Prop := (s.proc k).intHeld ∨ s.Alerted k

/-- Only interrupts have happened, and none is lost. -/
structure Kept (s t : Kernel) : Prop where
  settled : Settled s t
  nobody : NobodyBlocked s t
  owed : ∀ k, s.Owed k → t.Owed k
  kReenter : t.kReenter = s.kReenter
  switching : t.switching = s.switching

theorem Kept.refl (s : Kernel) : Kept s s :=
  ⟨(Stable.refl s).settled, fun _ => Finset.Subset.refl _, fun _ owed => owed, rfl, rfl⟩

theorem Kept.trans (h : Kept s t) (h' : Kept t u) : Kept s u where
  settled := h.settled.trans h'.settled
  nobody k := (h'.nobody k).trans (h.nobody k)
  owed k owed := h'.owed k (h.owed k owed)
  kReenter := h'.kReenter.trans h.kReenter
  switching := h'.switching.trans h.switching

/-- The role of a task is the same after interrupts. -/
theorem Kept.task (h : Kept s t) (task : (s.proc k).isTaskp) : (t.proc k).isTaskp := by
  unfold Proc.isTaskp
  rw [h.settled.priority]
  exact task

theorem Holds.letGo (h : Holds s (rp :: H)) : Holds (s.letGo rp) H := by
  obtain ⟨-, rest⟩ := seg_cons.1 h.listed
  have distinct : rp ∉ H := (List.nodup_cons.1 h.listed.nodup).1
  have links : (s.letGo rp).heldlinks = s.heldlinks := funext (update_field Proc.nextheld (by rfl))
  have next : (s.proc rp).nextheld = H.head? := Seg.head? rest
  constructor
  case listed =>
    rw [links]
    exact rest
  case tail =>
    intro k last
    cases H with
    | nil => cases last
    | cons j H =>
      show (if (s.proc rp).nextheld = none then none else s.heldTail) = some k
      rw [next, if_neg (by simp)]
      exact h.tail (by rw [List.getLast?_cons_cons]; exact last)
  case marked =>
    intro k
    unfold Kernel.letGo
    by_cases hk : k = rp
    · subst hk
      rw [update_proc_self]
      exact iff_of_false distinct Bool.false_ne_true
    · rw [update_proc_ne hk, ← h.marked, List.mem_cons]
      exact ⟨.inr, fun member => member.resolve_left hk⟩
  case task =>
    intro k member
    exact (update_field Proc.priority (by rfl) k).trans (h.task (List.mem_cons_of_mem _ member))

theorem letGo_aside : Aside s (s.letGo rp) := by
  have first : Aside s { s with
      heldHead := (s.proc rp).nextheld
      heldTail := if (s.proc rp).nextheld = none then none else s.heldTail } := .of_eq rfl rfl rfl rfl rfl rfl
  exact first.trans (.update (.letGo _))

theorem Intact.letGo (h : Intact cfg s A P (rp :: H)) : Intact cfg (s.letGo rp) A P H :=
  ⟨h.toValid.aside letGo_aside, h.holds.letGo⟩

/-- Every task is in the queue once. -/
theorem Intact.held_short (h : Intact cfg s A P H) : H.length ≤ cfg.endProcAddr := by
  have inside : H ⊆ List.range cfg.endProcAddr := by
    intro k member
    refine List.mem_range.2 (h.table.inside ?_)
    rw [h.holds.task member]
    rfl
  calc H.length ≤ (List.range cfg.endProcAddr).length := (h.holds.listed.nodup.subperm inside).length_le
    _ = cfg.endProcAddr := List.length_range

/-- **`interrupt`** is not lost. -/
theorem Intact.interrupt_owed (h : Intact cfg s A P H) (task : (s.proc (cfg.procAddr n)).isTaskp) :
    Returns (fun t => t.Owed (cfg.procAddr n)) (s.interrupt cfg n) := by
  by_cases competes : s.Competes
  · refine (h.interrupt_held competes task).imp ?_
    rintro t ⟨intact, -⟩
    left
    refine intact.holds.marked.1 ?_
    split
    · assumption
    · exact List.mem_append_right _ (List.mem_singleton_self _)
  · exact (h.interrupt_calm competes task).imp fun t seen => .inr seen.alerted

/-- An interrupt that comes in while the kernel runs joins the queue. -/
theorem Intact.nested (h : Intact cfg s A P H) (outside : s.kReenter = 0) (task : (s.proc (cfg.procAddr n)).isTaskp) :
    Returns (fun t => Intact cfg t A P (joined cfg H n) ∧ Kept s t) (s.nested cfg n) := by
  have inner : Intact cfg { s with kReenter := s.kReenter + 1 } A P H := h.of_eq rfl rfl rfl rfl rfl rfl rfl rfl
  have competes : Competes { s with kReenter := s.kReenter + 1 } := by
    left
    show s.kReenter + 1 ≠ 0
    omega
  unfold Kernel.nested
  refine (inner.interrupt_held competes task).bind ?_
  rintro t ⟨intact, aside, settled, -, switching⟩
  refine Ends.pure ⟨intact.of_eq rfl rfl rfl rfl rfl rfl rfl rfl, ?_⟩
  constructor
  case settled => exact ⟨settled.priority, settled.alarm, settled.realtime, settled.nextAlarm⟩
  case nobody =>
    intro k
    exact (aside.proc k).flags.subset
  case owed =>
    rintro k (held | alerted)
    · left
      have member : k ∈ H := h.holds.marked.2 held
      refine intact.holds.marked.1 ?_
      split
      · exact member
      · exact List.mem_append_left _ member
    · right
      exact alerted.congr (aside.proc k).intBlocked (aside.proc k).flags (aside.proc k).messbuf
  case kReenter => rfl
  case switching => exact switching

/-- The interrupts of a window join the queue. -/
theorem Intact.window (h : Intact cfg s A P H) (outside : s.kReenter = 0)
    (tasks : ∀ n ∈ arrivals, (s.proc (cfg.procAddr n)).isTaskp) :
    Returns (fun t => Intact cfg t A P (arrivals.foldl (joined cfg) H) ∧ Kept s t) (arrivals.foldlM (Kernel.nested cfg) s) := by
  refine Ends.foldlM (Q := fun done t => Intact cfg t A P (done.foldl (joined cfg) H) ∧ Kept s t) ⟨h, .refl s⟩ ?_
  rintro done n rest t split ⟨intact, kept⟩
  have task : (s.proc (cfg.procAddr n)).isTaskp := tasks n (by rw [split]; simp)
  refine (intact.nested (kept.kReenter.trans outside) (kept.task task)).imp ?_
  rintro u ⟨intact', kept'⟩
  rw [List.foldl_append]
  exact ⟨intact', kept.trans kept'⟩

/-- **A round of `unhold`**: the first of the queue is alerted, and those that come in join it. -/
theorem Intact.repeatFirst (h : Intact cfg s A P (rp :: H)) (outside : s.kReenter = 0) (steady : s.switching = false)
    (tasks : ∀ n ∈ arrivals, (s.proc (cfg.procAddr n)).isTaskp) :
    Returns (fun t => (∃ B P', Intact cfg t B P' (arrivals.foldl (joined cfg) H) ∧ Passes cfg P Post.nothing P') ∧ Kept s t)
      (s.repeatFirst cfg rp arrivals) := by
  have roles (k : Nat) : ((s.letGo rp).proc k).priority = (s.proc k).priority := update_field Proc.priority (by rfl) k
  have isTask : (s.proc rp).priority = .task := h.holds.task List.mem_cons_self
  rw [repeatFirst_eq]
  refine Ends.bind (h.letGo.window outside fun n member => ?_) ?_
  · unfold Proc.isTaskp
    rw [roles]
    exact tasks n member
  rintro t ⟨intact, kept⟩
  have slot : cfg.procAddr (t.proc rp).nr = rp := by
    have number := intact.posted.number rp
    unfold Config.procAddr
    omega
  have calm : ¬ t.Competes := by
    have level : t.kReenter = s.kReenter := kept.kReenter
    have turn : t.switching = s.switching := kept.switching
    rintro (inner | switching)
    · exact inner (level.trans outside)
    · rw [turn, steady] at switching
      cases switching
  have task : (t.proc (cfg.procAddr (t.proc rp).nr)).isTaskp := by
    unfold Proc.isTaskp
    rw [slot, kept.settled.priority, roles, isTask]
    rfl
  refine (intact.interrupt_calm calm task).imp ?_
  intro u seen
  refine ⟨seen.intact, ?_⟩
  constructor
  case settled =>
    have first : Settled s (s.letGo rp) := ⟨roles, update_field Proc.alarm (by rfl), rfl, rfl⟩
    exact (first.trans kept.settled).trans seen.settled
  case nobody =>
    intro k
    have first : ((s.letGo rp).proc k).flags = (s.proc k).flags := update_field Proc.flags (by rfl) k
    rw [← first]
    exact (seen.nobody k).trans (kept.nobody k)
  case owed =>
    intro k owed
    by_cases hk : k = rp
    · right
      have alerted := seen.alerted
      rw [slot] at alerted
      rw [hk]
      exact alerted
    · have still : (s.letGo rp).Owed k := by
        have apart : (s.letGo rp).proc k = s.proc k := update_proc_ne hk
        unfold Owed Alerted
        rw [apart]
        exact owed
      obtain ⟨B, P', intact', -⟩ := seen.intact
      rcases kept.owed k still with held | alerted
      · left
        exact intact'.holds.marked.1 (intact.holds.marked.2 held)
      · right
        exact seen.kept k alerted
  case kReenter => exact seen.kReenter.trans kept.kReenter
  case switching => exact seen.switching.trans kept.switching

/-- **The loop of `unhold`** ends with an empty queue. By induction on the fuel: a window uses up one of it, and
when there is none left the queue gets shorter. -/
theorem Intact.flushHeld {fuel : Nat} (h : Intact cfg s A P (rp :: H)) (outside : s.kReenter = 0) (steady : s.switching = false)
    (tasks : ∀ arrivals ∈ windows, ∀ n ∈ arrivals, (s.proc (cfg.procAddr n)).isTaskp)
    (enough : windows.length + cfg.endProcAddr ≤ fuel ∨ windows = [] ∧ H.length + 1 ≤ fuel) :
    Returns (fun t => (∃ B P', Intact cfg t B P' [] ∧ Passes cfg P Post.nothing P') ∧ Kept s t)
      (flushHeld cfg fuel s rp windows) := by
  have short := h.held_short
  rw [List.length_cons] at short
  induction fuel generalizing s A P H rp windows with
  | zero => omega
  | succ fuel ih =>
    have first : ∀ n ∈ windows.headD [], (s.proc (cfg.procAddr n)).isTaskp := by
      cases windows with
      | nil => simp
      | cons w windows => exact tasks w List.mem_cons_self
    unfold Kernel.flushHeld
    refine (h.repeatFirst outside steady first).bind ?_
    rintro t ⟨⟨B, P', intact, passes⟩, kept⟩
    have left : windows.tail.length + cfg.endProcAddr ≤ fuel ∨
        windows.tail = [] ∧ ((windows.headD []).foldl (joined cfg) H).length ≤ fuel := by
      cases windows with
      | nil =>
        right
        refine ⟨rfl, ?_⟩
        show H.length ≤ fuel
        rcases enough with many | ⟨-, few⟩
        · rw [List.length_nil] at many
          omega
        · omega
      | cons w windows =>
        left
        rcases enough with many | ⟨no, -⟩
        · rw [List.length_cons] at many
          rw [List.tail_cons]
          omega
        · cases no
    generalize (windows.headD []).foldl (joined cfg) H = H' at intact left
    have head := intact.holds.head
    cases H' with
    | nil =>
      rw [head]
      exact Ends.pure ⟨⟨B, P', intact, passes⟩, kept⟩
    | cons rp' H' =>
      rw [head]
      have tasks' : ∀ arrivals ∈ windows.tail, ∀ n ∈ arrivals, (t.proc (cfg.procAddr n)).isTaskp := fun w member n arrival =>
        kept.task (tasks w (List.mem_of_mem_tail member) n arrival)
      refine (ih intact (kept.kReenter.trans outside) (kept.switching.trans steady) tasks' left intact.held_short).imp ?_
      rintro u ⟨⟨C, P'', intact', passes'⟩, kept'⟩
      exact ⟨⟨C, P'', intact', passes.silently passes'⟩, kept.trans kept'⟩

/-- **`unhold`** repeats the held-up interrupts, unless processes are being switched. -/
theorem Intact.unhold (h : Intact cfg s A P H) (outside : s.kReenter = 0) (some : s.heldHead ≠ none)
    (tasks : ∀ arrivals ∈ windows, ∀ n ∈ arrivals, (s.proc (cfg.procAddr n)).isTaskp) :
    Returns (fun t => (∃ B P' H', Intact cfg t B P' H' ∧ Passes cfg P Post.nothing P' ∧ (s.switching = false → H' = [])) ∧
      Kept s t) (s.unhold cfg windows) := by
  unfold Kernel.unhold
  refine .ite (fun switching => ?_) fun steady => ?_
  · refine Ends.ok ⟨⟨A, P, H, h, .refl P, fun off => ?_⟩, .refl s⟩
    rw [off] at switching
    cases switching
  · have head := h.holds.head
    cases H with
    | nil => exact absurd head some
    | cons rp H =>
      rw [head]
      refine (h.flushHeld outside (by simpa using steady) tasks (.inl (Nat.le_refl _))).imp ?_
      rintro t ⟨⟨B, P', intact, passes⟩, kept⟩
      exact ⟨⟨B, P', [], intact, passes, fun _ => rfl⟩, kept⟩

end Kernel

end SoiExercises.Sched
