import Mathlib.Algebra.Group.Nat.Defs
import SoiExercises.Lib.Run
import SoiExercises.Sched.Frame

/-!
# The quantum budget of a user process

`sched` compares the counter of the queue's head with its priority for equality, so it relies on
`0 ≤ time_counter ≤ user_priority` for every live user process. The queue operations and
`do_xit` leave both numbers alone, `do_fork` starts the child within budget, `sched` keeps the
head within budget, and `do_setpri` keeps it exactly when the new priority is not below the
counter (`Call.KeepsQuantum`). A head that has used up its budget goes to the end of the user queue
(`Kernel.Rotated`).
-/

namespace SoiExercises.Sched

open SoiExercises.Lib

/-- The fields `sched` works on, and whether the slot is a live user process. -/
structure SameShare (p p' : Proc) : Prop where
  priority : p'.priority = p.priority
  userPriority : p'.userPriority = p.userPriority
  timeCounter : p'.timeCounter = p.timeCounter

/-- A user process has not outlived its quantum. -/
structure Proc.InBudget (p : Proc) : Prop where
  nonneg : 0 ≤ p.timeCounter
  le : p.timeCounter ≤ p.userPriority

theorem Proc.InBudget.of_share {p p' : Proc} (h : p.InBudget) (same : SameShare p p') : p'.InBudget where
  nonneg := same.timeCounter ▸ h.nonneg
  le := by rw [same.timeCounter, same.userPriority]; exact h.le

theorem Proc.isUserp_of_share {p p' : Proc} (same : SameShare p p') (live : p'.isUserp) : p.isUserp := by
  simpa [Proc.isUserp, same.priority] using live

/-- No quantum. -/
def Proc.reset (p : Proc) : Proc := { p with timeCounter := 0 }

namespace Kernel

variable {cfg : Config} {s t u : Kernel} {k : Nat} {f : Proc → Proc}

/-- Every live user process is within its budget. -/
def Budgeted (s : Kernel) : Prop := ∀ k, (s.proc k).isUserp → (s.proc k).InBudget

theorem sameShare_frame : Frame SameShare where
  refl _ := ⟨rfl, rfl, rfl⟩
  trans h h' := ⟨h'.priority.trans h.priority, h'.userPriority.trans h.userPriority,
    h'.timeCounter.trans h.timeCounter⟩
  nextready _ _ := ⟨rfl, rfl, rfl⟩
  callerq _ _ := ⟨rfl, rfl, rfl⟩
  sendlink _ _ := ⟨rfl, rfl, rfl⟩
  childUtime _ _ := ⟨rfl, rfl, rfl⟩
  childStime _ _ := ⟨rfl, rfl, rfl⟩
  alarm _ _ := ⟨rfl, rfl, rfl⟩

/-- After `do_xit` the exiting slot is dead and the others keep their shares. -/
theorem doXit_shares {proc1 proc2 : Int} :
    Completes (fun t => ∀ k, (t.proc k).isUserp → SameShare (s.proc k) (t.proc k))
      (s.doXit cfg proc1 proc2) := by
  intro t done k live
  obtain ⟨others, p, -, vacated⟩ := doXit_framed sameShare_frame t done
  by_cases hk : k = cfg.procAddr proc2
  · rw [hk, vacated] at live
    simp [Proc.isUserp] at live
  · exact others k hk

/-- What `do_fork` does: the parent was alive and the child's slot dead, the child starts with a
zero counter, and the other slots are untouched. -/
theorem doFork_shares {proc1 proc2 pid : Int} :
    Completes (fun t => (s.proc (cfg.procAddr proc2)).isUserp = false ∧
      (t.proc (cfg.procAddr proc2)).InBudget ∧
      ∀ k, k ≠ cfg.procAddr proc2 → t.proc k = s.proc k) (s.doFork cfg proc1 proc2 pid) := by
  intro t done
  obtain ⟨-, empty, others, priority, either, child⟩ := doFork_cases done
  refine ⟨?_, ?_, others⟩
  · have dead : (s.proc (cfg.procAddr proc2)).priority = .none := by
      simpa [Proc.isEmptyp] using empty
    simp [Proc.isUserp, dead]
  · rw [child]
    constructor
    · exact le_refl _
    · show (0 : Int) ≤ priority
      omega

/-- Who is at the head of the user queue when `head` has gone to its end. -/
def successor (s : Kernel) (head : Nat) : Option Nat :=
  if s.rdyTail .userQ = some head then some head else (s.proc head).nextready

/-- From `s` to `t`, `head` has gone from the head of the user queue to its end, with its counter reset. -/
structure Rotated (head : Nat) (s t : Kernel) : Prop where
  first : s.rdyHead .userQ = some head
  next : t.rdyHead .userQ = s.successor head
  last : t.rdyTail .userQ = some head
  links : ∃ tail, s.rdyTail .userQ = some tail ∧
    t.links = Function.update (Function.update s.links tail (some head)) head none
  counter : (t.proc head).timeCounter = 0

/-- `head` goes from the head of the user queue to its end, behind `last`. -/
def turn (s : Kernel) (head last : Nat) : Kernel :=
  let s := (s.update head Proc.reset).setNextready last (some head)
  ((s.setTail .userQ (some head)).setHead .userQ (s.links head)).setNextready head none

/-- The second write to the tail goes through `rdy_tail` too, which is the old head by then. -/
theorem sched_spent {head last : Nat} (first : s.rdyHead .userQ = some head) (tail : s.rdyTail .userQ = some last)
    (spent : (s.proc head).timeCounter = (s.proc head).userPriority) :
    s.sched cfg = .ok ((s.turn head last).pickProc cfg) := by
  have written : (s.update head Proc.reset).setTailNextready .userQ (some head) =
      .ok ((s.update head Proc.reset).setNextready last (some head)) := setTailNextready_of tail
  unfold sched
  rw [first]
  dsimp only
  rw [if_neg (not_not.2 spent)]
  show (s.update head Proc.reset).setTailNextready .userQ (some head) >>= _ = _
  rw [written]
  rfl

theorem turn_rotated {head last : Nat} (first : s.rdyHead .userQ = some head) (tail : s.rdyTail .userQ = some last) :
    s.Rotated head (s.turn head last) where
  first := first
  next := by
    have reset : (s.update head Proc.reset).links = s.links := funext (update_field Proc.nextready rfl)
    have first : (s.turn head last).rdyHead .userQ =
        ((s.update head Proc.reset).setNextready last (some head)).links head := rfl
    rw [first, links_setNextready, reset]
    unfold successor
    rw [tail]
    by_cases alone : last = head
    · rw [alone, Function.update_self, if_pos rfl]
    · rw [Function.update_of_ne (Ne.symm alone), if_neg fun same => alone (Option.some.inj same)]
      rfl
  last := rfl
  links := by
    refine ⟨last, tail, ?_⟩
    have reset : (s.update head Proc.reset).links = s.links := funext (update_field Proc.nextready rfl)
    rw [← reset, ← links_setNextready]
    exact links_setNextready (s := (s.update head Proc.reset).setNextready last (some head))
  counter := by
    have kept {u : Kernel} {k : Nat} {v : Option Nat} :
        ((u.setNextready k v).proc head).timeCounter = (u.proc head).timeCounter :=
      update_field Proc.timeCounter rfl head
    refine kept.trans (kept.trans ?_)
    rw [update_proc_self]
    rfl

/-- A head that has used up its budget goes to the end of the queue. -/
theorem sched_rotated {head : Nat} (first : s.rdyHead .userQ = some head)
    (spent : (s.proc head).timeCounter = (s.proc head).userPriority) (h : s.sched cfg = .ok t) :
    s.Rotated head t := by
  cases tail : s.rdyTail .userQ with
  | none =>
    have fault : (s.update head Proc.reset).setTailNextready .userQ (some head) = .error .nilPointer := by
      unfold setTailNextready
      rw [show (s.update head Proc.reset).rdyTail .userQ = none from tail]
    unfold sched at h
    rw [first] at h
    dsimp only at h
    rw [if_neg (not_not.2 spent)] at h
    have h : (s.update head Proc.reset).setTailNextready .userQ (some head) >>= _ = .ok t := h
    rw [fault] at h
    cases h
  | some last =>
    rw [sched_spent first tail spent] at h
    obtain rfl := Except.ok.inj h
    obtain ⟨first, next, last, links, counter⟩ := turn_rotated first tail
    refine ⟨first, ?_, ?_, ?_, ?_⟩
    · rw [pickProc_rdyHead, next]
    · rw [pickProc_rdyTail, last]
    · obtain ⟨tail, last, links⟩ := links
      refine ⟨tail, last, ?_⟩
      rw [← links]
      unfold Kernel.links
      rw [pickProc_proc]
    · rw [pickProc_proc, counter]

/-- The three things `sched` can do. -/
theorem sched_cases (h : s.sched cfg = .ok t) :
    (s.rdyHead .userQ = none ∧ t = s) ∨
    (∃ head, s.rdyHead .userQ = some head ∧
      (s.proc head).timeCounter ≠ (s.proc head).userPriority ∧
      t = s.update head fun p => { p with timeCounter := p.timeCounter + 1 }) ∨
    (∃ head, s.rdyHead .userQ = some head ∧
      (s.proc head).timeCounter = (s.proc head).userPriority ∧ s.Rotated head t ∧
      ∀ {R : Proc → Proc → Prop}, Frame R → Framed R (s.update head fun p => { p with timeCounter := 0 }) t) := by
  have called := h
  unfold sched at h
  split at h
  · rename_i idle
    exact .inl ⟨idle, (Except.ok.inj h).symm⟩
  · rename_i head hhead
    split at h
    · rename_i below
      exact .inr (.inl ⟨head, hhead, below, (Except.ok.inj h).symm⟩)
    · rename_i spent
      simp only [bind_eq_ok, pure_eq_ok] at h
      obtain ⟨s₁, h₁, s₂, h₂, rfl⟩ := h
      refine .inr (.inr ⟨head, hhead, not_not.1 spent, ?_, fun {R} frame => ?_⟩)
      · exact sched_rotated hhead (not_not.1 spent) called
      · have same₁ := setTailNextready_framed frame s₁ h₁
        have same₂ := setTailNextready_framed frame s₂ h₂
        exact (same₁.trans frame same₂).trans frame (.of_proc frame pickProc_proc)

/-- A user queue that holds a process has an end. -/
def Tailed (s : Kernel) : Prop := s.rdyHead .userQ ≠ none → s.rdyTail .userQ ≠ none

namespace Tailed

theorem of_eq (h : s.Tailed) (head : t.rdyHead .userQ = s.rdyHead .userQ)
    (tail : t.rdyTail .userQ = s.rdyTail .userQ) : t.Tailed := by
  unfold Tailed
  rw [head, tail]
  exact h

theorem append {q : Queue} {rp : Nat} (h : s.Tailed) (system : q ≠ .userQ) : Completes Tailed (s.append q rp) := by
  refine Completes.bind (Q := Tailed) ?_ fun t h => .pure ?_
  · unfold linkLast
    split
    · unfold setTailNextready
      split
      · exact .ok (h.of_eq rfl rfl)
      · exact .error
    · exact .ok (h.of_eq (Function.update_of_ne system.symm _ _) rfl)
  · exact h.of_eq rfl (Function.update_of_ne system.symm _ _)

theorem ready {rp : Nat} (h : s.Tailed) : Completes Tailed (s.ready rp) := by
  unfold Kernel.ready
  refine .ite (h.append (by decide)) (.ite (h.append (by decide)) (.ok fun _ => ?_))
  show (if s.rdyHead .userQ = none then s.setTail .userQ (some rp) else s).rdyTail .userQ ≠ none
  split
  · rw [setTail_rdyTail_self]
    exact Option.some_ne_none rp
  · rename_i first
    exact h first

/-- A process that leaves a queue leaves an end behind. -/
theorem unlink {q : Queue} {pick : Bool} {rp : Nat} (h : s.Tailed) : Completes Tailed (s.unlink cfg q pick rp) := by
  unfold Kernel.unlink
  cases first : s.rdyHead q with
  | none => exact .ok h
  | some xp =>
    dsimp only
    split
    · have next : (s.setHead q (s.proc xp).nextready).Tailed := by
        by_cases hq : q = .userQ
        · subst hq
          have held : s.rdyHead .userQ ≠ none := by simp [first]
          exact fun _ => h held
        · exact h.of_eq (Function.update_of_ne (Ne.symm hq) _ _) rfl
      refine .ok ?_
      split
      · exact next.of_eq (by rw [pickProc_rdyHead]) (by rw [pickProc_rdyTail])
      · exact next
    · refine Completes.bind_any fun found => .pure ?_
      cases found with
      | none => exact h
      | some yp =>
        have linked : (s.setNextready yp (s.proc rp).nextready).Tailed := h.of_eq rfl rfl
        dsimp only
        split
        · by_cases hq : q = .userQ
          · subst hq
            intro _
            rw [setTail_rdyTail_self]
            exact Option.some_ne_none yp
          · exact linked.of_eq rfl (Function.update_of_ne (Ne.symm hq) _ _)
        · exact linked

theorem unready {rp : Nat} (h : s.Tailed) : Completes Tailed (s.unready cfg rp) := by
  unfold Kernel.unready
  split
  · exact .ite h.unlink .error
  · exact .ite h.unlink h.unlink

theorem unlinkSender {rc fuel np : Nat} (h : s.Tailed) : Completes Tailed (s.unlinkSender rc fuel np) := by
  induction fuel generalizing np with
  | zero => exact .error
  | succ fuel ih =>
    unfold Kernel.unlinkSender
    split
    · exact .ok h
    · exact .ite (.ok (h.of_eq rfl rfl)) ih

theorem unlinkCaller {rc : Nat} {rps : List Nat} (h : s.Tailed) : Completes Tailed (unlinkCaller cfg rc s rps) := by
  induction rps generalizing s with
  | nil => exact .ok h
  | cons rp rps ih =>
    unfold Kernel.unlinkCaller
    split
    · exact ih h
    · exact .ite (.ok (h.of_eq rfl rfl)) (.bind h.unlinkSender fun t kept => ih kept)

theorem doXit {proc1 proc2 : Int} (h : s.Tailed) : Completes Tailed (s.doXit cfg proc1 proc2) := by
  have charged : (s.chargeParent (cfg.procAddr proc1) (cfg.procAddr proc2)).Tailed := h.of_eq rfl rfl
  refine .ite .error (.ite .error ?_)
  refine .bind (Q := Tailed) ?_ fun t stopped => .bind (Q := Tailed) ?_ fun u left => .pure ?_
  · refine .ite ?_ (.ok charged)
    have switching : Tailed { s.chargeParent (cfg.procAddr proc1) (cfg.procAddr proc2) with switching := true } :=
      charged.of_eq rfl rfl
    exact .bind switching.unready fun t kept => .pure (kept.of_eq rfl rfl)
  · exact .ite stopped.unlinkCaller (.ok stopped)
  · unfold vacate
    dsimp only
    split
    · exact left.of_eq rfl rfl
    · exact left.of_eq rfl rfl

theorem sched (h : s.Tailed) : Completes Tailed (s.sched cfg) := by
  intro t done
  rcases sched_cases done with ⟨-, rfl⟩ | ⟨head, -, -, rfl⟩ | ⟨head, -, -, rotated, -⟩
  · exact h
  · exact h.of_eq rfl rfl
  · intro _ none
    rw [rotated.last] at none
    cases none

/-- With an end of the queue, `sched` completes. -/
theorem sched_completes (h : s.Tailed) : ∃ t, s.sched cfg = .ok t := by
  cases first : s.rdyHead .userQ with
  | none =>
    unfold Kernel.sched
    rw [first]
    exact ⟨s, rfl⟩
  | some head =>
    by_cases spent : (s.proc head).timeCounter = (s.proc head).userPriority
    · obtain ⟨last, tail⟩ := Option.ne_none_iff_exists'.1 (h (by simp [first]))
      exact ⟨_, sched_spent first tail spent⟩
    · unfold Kernel.sched
      rw [first]
      exact ⟨_, if_pos spent⟩

/-- **One call leaves the user queue with an end.** -/
theorem step {c : Call} (h : s.Tailed) (step : CallStep cfg s c t) : t.Tailed := by
  unfold CallStep call at step
  cases c with
  | fork proc1 proc2 pid =>
    unfold doFork at step
    dsimp only at step
    split at step
    · cases step
    · split at step
      · cases step
      · obtain rfl := Except.ok.inj step
        exact h.of_eq rfl rfl
  | xit proc1 proc2 => exact h.doXit t step
  | setpri pid priority =>
    obtain rfl := Except.ok.inj step
    unfold doSetpri
    split
    · exact h.of_eq rfl rfl
    · exact h
  | sched => exact h.sched t step
  | ready rp => exact h.ready t step
  | unready rp => exact h.unready t step

end Tailed

/-- Below its priority the head's counter goes up by one. -/
theorem sched_tick {head : Nat} (hhead : s.rdyHead .userQ = some head)
    (below : (s.proc head).timeCounter ≠ (s.proc head).userPriority) :
    s.sched cfg = .ok (s.update head fun p => { p with timeCounter := p.timeCounter + 1 }) := by
  unfold sched
  simp only [hhead]
  rw [if_pos below]

end Kernel

/-- A request that does not put a live process's priority below its counter. -/
def Call.KeepsQuantum (cfg : Config) (s : Kernel) : Call → Prop
  | .setpri pid priority => ∀ tmp, s.findPid cfg pid = some tmp → (s.proc tmp).isUserp →
      (s.proc tmp).timeCounter ≤ Kernel.admittedPriority priority
  | _ => True

/-- A call made while the live process `head` is at the head of the user queue, other than a
`sched` that rotates it. -/
def HeadStep (cfg : Config) (head : Nat) (s : Kernel) (c : Call) (t : Kernel) : Prop :=
  Guarded (CallStep cfg) (Call.KeepsQuantum cfg) s c t ∧ s.rdyHead .userQ = some head ∧
    (s.proc head).isUserp ∧ ¬ (c = .sched ∧ s.Rotated head t)

namespace Kernel

variable {cfg : Config} {s t : Kernel} {c : Call}

theorem Budgeted.of_shares (h : s.Budgeted) (same : ∀ k, (t.proc k).isUserp → SameShare (s.proc k) (t.proc k)) :
    t.Budgeted := fun k live =>
  (h k (Proc.isUserp_of_share (same k live) live)).of_share (same k live)

/-- A call that changes one slot only. -/
theorem Budgeted.of_others {slot : Nat} (h : s.Budgeted) (own : (t.proc slot).isUserp → (t.proc slot).InBudget)
    (others : ∀ k, k ≠ slot → t.proc k = s.proc k) : t.Budgeted := by
  intro k live
  by_cases hk : k = slot
  · subst hk
    exact own live
  · rw [others k hk] at live ⊢
    exact h k live

/-- `sched` counts the head up to its priority, or starts it again from zero. -/
theorem Budgeted.sched (h : s.Budgeted) : Completes Budgeted (s.sched cfg) := by
  intro t step
  rcases sched_cases step with ⟨-, rfl⟩ | ⟨head, -, below, rfl⟩ | ⟨head, -, spent, -, same⟩
  · exact h
  · refine h.of_others (fun live => ?_) fun k hk => update_proc_ne hk
    rw [update_proc_self] at live ⊢
    have budget := h head live
    have lo := budget.nonneg
    have hi := budget.le
    constructor
    · show 0 ≤ (s.proc head).timeCounter + 1
      omega
    · show (s.proc head).timeCounter + 1 ≤ (s.proc head).userPriority
      omega
  · refine Budgeted.of_shares ?_ fun k _ => same sameShare_frame k
    refine h.of_others (fun live => ?_) fun k hk => update_proc_ne hk
    rw [update_proc_self] at live ⊢
    have budget := h head live
    exact ⟨le_refl _, le_trans budget.nonneg budget.le⟩

/-- **One call keeps every live user process within its budget**, `do_setpri` under its condition. -/
theorem Budgeted.step (h : s.Budgeted) (step : Guarded (CallStep cfg) (Call.KeepsQuantum cfg) s c t) :
    t.Budgeted := by
  obtain ⟨step, keeps⟩ := step
  unfold CallStep call at step
  cases c with
  | fork proc1 proc2 pid =>
    obtain ⟨-, child, others⟩ := doFork_shares t step
    exact h.of_others (fun _ => child) others
  | xit proc1 proc2 => exact h.of_shares (doXit_shares t step)
  | setpri pid priority =>
    obtain rfl := Except.ok.inj step
    unfold doSetpri
    split
    · rename_i tmp found
      refine h.of_others (fun live => ?_) fun k hk => update_proc_ne hk
      rw [update_proc_self] at live ⊢
      exact ⟨(h tmp live).nonneg, keeps tmp found live⟩
    · exact h
  | sched => exact h.sched t step
  | ready rp => exact h.of_shares fun k _ => ready_framed sameShare_frame t step k
  | unready rp => exact h.of_shares fun k _ => unready_framed sameShare_frame t step k

/-- While a process stays at the head and is not rotated, its counter goes up with every `sched` and
never down. -/
theorem HeadStep.counter {head : Nat} (step : HeadStep cfg head s c t) (live : (t.proc head).isUserp) :
    (s.proc head).timeCounter + (if c = .sched then 1 else 0) ≤ (t.proc head).timeCounter := by
  obtain ⟨⟨step, -⟩, hhead, alive, notRotated⟩ := step
  unfold CallStep call at step
  cases c with
  | fork proc1 proc2 pid =>
    obtain ⟨dead, -, others⟩ := doFork_shares t step
    have hne : head ≠ cfg.procAddr proc2 := by
      rintro rfl
      rw [alive] at dead
      cases dead
    simp [others head hne]
  | xit proc1 proc2 => simp [(doXit_shares t step head live).timeCounter]
  | setpri pid priority =>
    obtain rfl := Except.ok.inj step
    rw [if_neg (by simp), Int.add_zero]
    unfold doSetpri
    split
    · rename_i tmp found
      by_cases hk : head = tmp
      · subst hk
        simp
      · simp [update_proc_ne hk]
    · exact le_refl _
  | sched =>
    rcases sched_cases step with ⟨none, -⟩ | ⟨head', hhead', -, rfl⟩ | ⟨head', hhead', -, rotated, -⟩
    · rw [none] at hhead
      cases hhead
    · rw [hhead] at hhead'
      cases hhead'
      simp
    · rw [hhead] at hhead'
      cases hhead'
      exact absurd ⟨rfl, rotated⟩ notRotated
  | ready rp => simp [(ready_framed sameShare_frame t step head).timeCounter]
  | unready rp => simp [(unready_framed sameShare_frame t step head).timeCounter]

/-- Along such a run the counter has counted the calls of `sched`. -/
theorem HeadStep.counted {head : Nat} {cs : List Call} (run : Run (HeadStep cfg head) s cs t)
    (init : (s.proc head).isUserp → 0 ≤ (s.proc head).timeCounter) (live : (t.proc head).isUserp) :
    (cs.count .sched : Int) ≤ (t.proc head).timeCounter := by
  induction run with
  | nil => simpa using init live
  | snoc before last ih =>
    have counted := ih last.2.2.1
    have more := HeadStep.counter last live
    rw [List.count_append, List.count_singleton]
    split at more
    · rename_i isSched
      rw [if_pos (beq_iff_eq.2 isSched)]
      push_cast
      omega
    · rename_i other
      rw [if_neg (mt beq_iff_eq.1 other)]
      push_cast
      omega

/-- **No user process outlives its quantum** in a run whose priority changes respect the counters:
every live user process is within its budget, and while one stays at the head of the user queue,
`sched` is called at most `user_priority` times before the call that rotates the queue. Where the queue
had an end at first, that call completes. -/
theorem quantum_budget {s₀ : Kernel} {cs : List Call}
    (fresh : ∀ k, (s₀.proc k).timeCounter = 0 ∧ 0 ≤ (s₀.proc k).userPriority)
    (run : Run (Guarded (CallStep cfg) (Call.KeepsQuantum cfg)) s₀ cs s) :
    s.Budgeted ∧ ∀ head cs' t, Run (HeadStep cfg head) s cs' t → (t.proc head).isUserp →
      (cs'.count .sched : Int) ≤ (t.proc head).userPriority ∧
      (t.rdyHead .userQ = some head →
        (cs'.count .sched : Int) = (t.proc head).userPriority ∨
          (t.proc head).timeCounter = (t.proc head).userPriority →
        (∀ u, CallStep cfg t .sched u → t.Rotated head u) ∧ (s₀.Tailed → ∃ u, CallStep cfg t .sched u)) := by
  have start : s₀.Budgeted := by
    intro k _
    obtain ⟨zero, nonneg⟩ := fresh k
    constructor
    · rw [zero]
    · rw [zero]
      exact nonneg
  have budget : s.Budgeted := run.invariant Budgeted.step start
  refine ⟨budget, fun head cs' t stay live => ?_⟩
  have later : t.Budgeted := stay.invariant (fun h step => h.step step.1) budget
  have counted := HeadStep.counted stay (fun alive => (budget head alive).nonneg) live
  have le := (later head live).le
  refine ⟨le_trans counted le, fun first due => ⟨fun u called => ?_, fun tailed => ?_⟩⟩
  · apply sched_rotated first ?_ called
    omega
  · have tailed : s.Tailed := run.invariant (fun h step => h.step step.1) tailed
    have tailed : t.Tailed := stay.invariant (fun h step => h.step step.1.1) tailed
    exact tailed.sched_completes

/-- Eight tasks and 32 processes, two of them servers. -/
def minix : Config where
  NR_TASKS := 8
  NR_PROCS := 32
  LOW_USER := 2
  HZ := 60
  tasks := by decide
  low_user := by decide
  rate := by decide

/-- One process, `init`, with this counter and priority, alone on the user queue. -/
def initAt (counter priority : Int) : Kernel where
  proc := Function.update (fun _ => .unused) 10
    { Proc.unused with
      nr := 2, pid := 1, priority := .user, userPriority := priority, timeCounter := counter }
  procPtr := 10
  billPtr := 10
  rdyHead := Function.update (fun _ => none) .userQ (some 10)
  rdyTail := Function.update (fun _ => none) .userQ (some 10)
  heldHead := none
  heldTail := none
  kReenter := 0
  switching := false
  sigProcs := 0
  lastUserPriority := 50
  realtime := 0
  nextAlarm := 0
  pendingTicks := 0
  lostTicks := 0
  schedTicks := 0
  prevPtr := none

theorem initAt_fresh {priority : Int} (nonneg : 0 ≤ priority) (k : Nat) :
    ((initAt 0 priority).proc k).timeCounter = 0 ∧ 0 ≤ ((initAt 0 priority).proc k).userPriority := by
  by_cases hk : k = 10
  · subst hk
    exact ⟨rfl, nonneg⟩
  · simp [initAt, Function.update_of_ne hk, Proc.unused]

theorem initAt_sched {counter priority : Int} (below : counter ≠ priority) :
    CallStep minix (initAt counter priority) .sched (initAt (counter + 1) priority) := by
  have head : (initAt counter priority).rdyHead .userQ = some 10 := rfl
  refine (sched_tick head below).trans ?_
  simp [update, initAt]

theorem initAt_setpri {counter priority priority' : Int} :
    CallStep minix (initAt counter priority) (.setpri 1 priority')
      (initAt counter (admittedPriority priority')) := by
  have found : (initAt counter priority).findPid minix 1 = some 10 := rfl
  have updated : (initAt counter priority).doSetpri minix 1 priority' =
      (initAt counter priority).update 10 fun p => { p with userPriority := admittedPriority priority' } := by
    unfold doSetpri
    rw [found]
  refine congrArg Except.ok (updated.trans ?_)
  simp [update, initAt]

/-- `init` is counted once and set to priority 2. It is counted once more, and then goes to the end of the
queue. -/
theorem quantum_budget_init : (initAt 1 2).Budgeted ∧ ∃ t, CallStep minix (initAt 2 2) .sched t ∧
    (initAt 2 2).Rotated 10 t := by
  have counted : Guarded (CallStep minix) (Call.KeepsQuantum minix) (initAt 0 10) .sched (initAt 1 10) :=
    ⟨initAt_sched (by decide), trivial⟩
  have lowered : Guarded (CallStep minix) (Call.KeepsQuantum minix) (initAt 1 10) (.setpri 1 2)
      (initAt 1 2) := by
    refine ⟨initAt_setpri, fun tmp found _ => ?_⟩
    obtain rfl : 10 = tmp := Option.some.inj found
    decide
  have again : HeadStep minix 10 (initAt 1 2) .sched (initAt 2 2) := by
    refine ⟨⟨initAt_sched (by decide), trivial⟩, rfl, rfl, fun rotated => ?_⟩
    cases rotated.2.counter
  obtain ⟨budget, due⟩ := quantum_budget (initAt_fresh (by decide)) ((Run.single counted).snoc lowered)
  obtain ⟨-, due⟩ := due 10 [.sched] (initAt 2 2) (Run.single again) rfl
  obtain ⟨rotates, completes⟩ := due rfl (.inr rfl)
  obtain ⟨t, called⟩ := completes fun _ => Option.some_ne_none 10
  exact ⟨budget, t, called, rotates t called⟩

/-- Setting the priority of a process that has been counted twice to 1 takes it over its budget,
and no number of further calls of `sched` (up to the range of `int`) rotates the queue. -/
theorem quantum_overrun :
    (∀ k, ((initAt 0 10).proc k).timeCounter = 0 ∧ 0 ≤ ((initAt 0 10).proc k).userPriority) ∧
    Run (CallStep minix) (initAt 0 10) [.sched, .sched, .setpri 1 1] (initAt 2 1) ∧
    ¬ (initAt 2 1).Budgeted ∧
    ∀ n : Nat, n < 2 ^ 31 - 2 → Run (fun s c t => CallStep minix s c t ∧ ¬ s.Rotated 10 t)
      (initAt 2 1) (List.replicate n .sched) (initAt (2 + n) 1) := by
  refine ⟨initAt_fresh (by decide), ?_, ?_, ?_⟩
  · have first : CallStep minix (initAt 0 10) .sched (initAt 1 10) := initAt_sched (by decide)
    have second : CallStep minix (initAt 1 10) .sched (initAt 2 10) := initAt_sched (by decide)
    exact ((Run.single first).snoc second).snoc initAt_setpri
  · intro budget
    have le : (2 : Int) ≤ 1 := (budget 10 rfl).le
    omega
  · intro n _
    induction n with
    | zero => exact .nil _
    | succ n ih =>
      rw [List.replicate_succ']
      refine (ih (by omega)).snoc ⟨?_, fun rotated => ?_⟩
      · have counted : CallStep minix (initAt (2 + n) 1) .sched (initAt (2 + n + 1) 1) :=
          initAt_sched (by omega)
        rwa [Int.add_assoc] at counted
      · have zero : (2 : Int) + (n + 1 : Nat) = 0 := rotated.counter
        omega

end Kernel

end SoiExercises.Sched
