import SoiExercises.Lib.Except
import SoiExercises.Sched.System

/-!
# What the calls on the process table leave alone

The queue operations change the links of the process table and nothing else of a process; `do_xit`
changes the accounts of the parent too, and clears one slot; `do_fork` fills one. `Frame R` says of a
relation between the old and the new contents of a slot that it does not look at links and accounts, and
`s.Framed R t` that every slot is so related. Each operation is treated once, for every such relation.
-/

namespace SoiExercises.Sched

open SoiExercises.Lib

/-- The relation allows for changes of the links, the accounts of dead children and the alarm. -/
structure Frame (R : Proc → Proc → Prop) : Prop where
  refl : ∀ p, R p p
  trans : ∀ {p p' p''}, R p p' → R p' p'' → R p p''
  nextready : ∀ p v, R p { p with nextready := v }
  callerq : ∀ p v, R p { p with callerq := v }
  sendlink : ∀ p v, R p { p with sendlink := v }
  childUtime : ∀ p v, R p { p with childUtime := v }
  childStime : ∀ p v, R p { p with childStime := v }
  alarm : ∀ p v, R p { p with alarm := v }

namespace Kernel

/-- Every slot is related to what it was. -/
def Framed (R : Proc → Proc → Prop) (s t : Kernel) : Prop := ∀ k, R (s.proc k) (t.proc k)

variable {R : Proc → Proc → Prop} {cfg : Config} {s t u : Kernel} {k : Nat} {f : Proc → Proc}

@[simp] theorem pickProc_proc : (s.pickProc cfg).proc = s.proc := by
  unfold pickProc
  repeat' split
  all_goals rfl

@[simp] theorem pickProc_rdyHead : (s.pickProc cfg).rdyHead = s.rdyHead := by
  unfold pickProc
  repeat' split
  all_goals rfl

@[simp] theorem pickProc_rdyTail : (s.pickProc cfg).rdyTail = s.rdyTail := by
  unfold pickProc
  repeat' split
  all_goals rfl

namespace Framed

theorem refl (frame : Frame R) : s.Framed R s := fun _ => frame.refl _

theorem trans (frame : Frame R) (h : s.Framed R t) (h' : t.Framed R u) : s.Framed R u :=
  fun k => frame.trans (h k) (h' k)

theorem of_proc (frame : Frame R) (proc : t.proc = s.proc) : s.Framed R t := by
  intro k
  rw [proc]
  exact frame.refl _

theorem update (frame : Frame R) (h : s.Framed R t) (hf : ∀ p, R p (f p)) : s.Framed R (t.update k f) := by
  refine h.trans frame fun j => ?_
  by_cases hj : j = k
  · subst hj
    rw [update_proc_self]
    exact hf _
  · rw [update_proc_ne hj]
    exact frame.refl _

end Framed

section Queues

variable (frame : Frame R)
include frame

theorem setNextready_framed {v : Option Nat} (h : s.Framed R t) : s.Framed R (t.setNextready k v) :=
  h.update frame fun p => frame.nextready p v

theorem setTailNextready_framed {q : Queue} {v : Option Nat} :
    Completes (s.Framed R) (s.setTailNextready q v) := by
  unfold setTailNextready
  split
  · exact .ok (setNextready_framed frame (.refl frame))
  · exact .error

theorem append_framed {q : Queue} {rp : Nat} : Completes (s.Framed R) (s.append q rp) := by
  refine Completes.bind (Q := s.Framed R) ?_ fun s' same => .pure (setNextready_framed frame same)
  unfold linkLast
  split
  · exact setTailNextready_framed frame
  · exact .ok (.of_proc frame rfl)

theorem ready_framed {rp : Nat} : Completes (s.Framed R) (s.ready rp) := by
  unfold ready
  refine .ite (append_framed frame) (.ite (append_framed frame) (.ok ?_))
  refine setNextready_framed frame ?_
  split
  · exact .of_proc frame rfl
  · exact .refl frame

theorem unlink_framed {q : Queue} {pick : Bool} {rp : Nat} :
    Completes (s.Framed R) (s.unlink cfg q pick rp) := by
  unfold unlink
  split
  · exact .ok (.refl frame)
  · split
    · apply Completes.ok
      show s.Framed R (if _ then _ else _)
      split
      · exact .of_proc frame pickProc_proc
      · exact .of_proc frame rfl
    · refine Completes.bind_any fun found => .pure ?_
      cases found with
      | none => exact .refl frame
      | some xp =>
        have linked : s.Framed R (s.setNextready xp (s.proc rp).nextready) := setNextready_framed frame (.refl frame)
        show s.Framed R (if _ then _ else _)
        split
        · exact linked
        · exact linked

theorem unready_framed {rp : Nat} : Completes (s.Framed R) (s.unready cfg rp) := by
  unfold unready
  split
  · exact .ite (unlink_framed frame) .error
  · exact .ite (unlink_framed frame) (unlink_framed frame)

theorem lockUnready_framed {rp : Nat} : Completes (s.Framed R) (s.lockUnready cfg rp) :=
  .bind (unready_framed frame (s := { s with switching := true })) fun _ same => .pure same

theorem sched_framed (counter : ∀ p v, R p { p with timeCounter := v }) :
    Completes (s.Framed R) (s.sched cfg) := by
  unfold sched
  split
  · exact .ok (.refl frame)
  · rename_i head _
    have counted (v : Int) : s.Framed R (s.update head fun p => { p with timeCounter := v }) :=
      .update frame (.refl frame) fun p => counter p v
    refine .ite (.ok (.update frame (.refl frame) fun p => counter p _)) ?_
    refine .bind (setTailNextready_framed frame) fun s₁ same₁ => ?_
    refine .bind (setTailNextready_framed frame) fun s₂ same₂ => .pure ?_
    have reset : s.Framed R s₂ := ((counted 0).trans frame same₁).trans frame same₂
    exact reset.trans frame (.of_proc frame pickProc_proc)

end Queues

section Exit

variable {rp rc : Nat}

theorem vacate_proc_self : ((s.vacate rc).proc rc) = { s.proc rc with flags := ∅, priority := .none } := by
  unfold vacate
  rw [update_proc_self]
  split
  · rfl
  · rfl

theorem vacate_proc_ne (h : k ≠ rc) : (s.vacate rc).proc k = s.proc k := by
  unfold vacate
  rw [update_proc_ne h]
  split
  · rfl
  · rfl

variable (frame : Frame R)
include frame

theorem unlinkSender_framed {fuel np : Nat} : Completes (s.Framed R) (s.unlinkSender rc fuel np) := by
  induction fuel generalizing np with
  | zero => exact .error
  | succ fuel ih =>
    unfold unlinkSender
    split
    · exact .ok (.refl frame)
    · exact .ite (.ok (.update frame (.refl frame) fun p => frame.sendlink p _)) ih

theorem unlinkCaller_framed {rps : List Nat} : Completes (s.Framed R) (unlinkCaller cfg rc s rps) := by
  induction rps generalizing s with
  | nil => exact .ok (.refl frame)
  | cons rp rps ih =>
    unfold unlinkCaller
    split
    · exact ih
    · apply Completes.ite
      · exact .ok (.update frame (.refl frame) fun p => frame.callerq p _)
      · exact .bind (unlinkSender_framed frame) fun s' same => fun t done => same.trans frame (ih t done)

theorem chargeParent_framed : s.Framed R (s.chargeParent rp rc) := by
  dsimp only [chargeParent]
  refine .update frame (.update frame (.update frame (.refl frame) ?_) ?_) ?_
  · exact fun p => frame.childUtime p _
  · exact fun p => frame.childStime p _
  · exact fun p => frame.alarm p 0

theorem stopRunning_framed : Completes (s.Framed R) (s.stopRunning cfg rc) :=
  .ite (lockUnready_framed frame) (.ok (.refl frame))

theorem stopSending_framed : Completes (s.Framed R) (s.stopSending cfg rc) :=
  .ite (unlinkCaller_framed frame) (.ok (.refl frame))

/-- `do_xit` clears the slot of the exiting process and leaves the others. -/
theorem doXit_framed {proc1 proc2 : Int} :
    Completes (fun t => (∀ k, k ≠ cfg.procAddr proc2 → R (s.proc k) (t.proc k)) ∧
      ∃ p, R (s.proc (cfg.procAddr proc2)) p ∧
        t.proc (cfg.procAddr proc2) = { p with flags := ∅, priority := .none }) (s.doXit cfg proc1 proc2) := by
  refine .ite .error (.ite .error ?_)
  refine .bind (Q := s.Framed R) ?_ fun s₁ same₁ => .bind (Q := s.Framed R) ?_ fun s₂ same₂ => .pure ?_
  · exact fun t done => (chargeParent_framed frame).trans frame (stopRunning_framed frame t done)
  · exact fun t done => same₁.trans frame (stopSending_framed frame t done)
  · refine ⟨fun k hk => ?_, _, same₂ _, vacate_proc_self⟩
    rw [vacate_proc_ne hk]
    exact same₂ k

end Exit

/-- What `do_fork` does: it fills a free slot with a copy of the parent that has its own identity and
counters, and leaves the other slots. -/
theorem doFork_cases {proc1 proc2 pid : Int} (h : s.doFork cfg proc1 proc2 pid = .ok t) :
    (s.proc (cfg.procAddr proc1)).isUserp ∧ (s.proc (cfg.procAddr proc2)).isEmptyp ∧
    (∀ k, k ≠ cfg.procAddr proc2 → t.proc k = s.proc k) ∧
    ∃ priority : Int, (priority = 10 ∨ priority = 50) ∧
      t.proc (cfg.procAddr proc2) = { s.proc (cfg.procAddr proc1) with
        nr := proc2
        flags := insert .noMap (s.proc (cfg.procAddr proc1)).flags \ {.pending, .sigPending, .pStop}
        pid := pid
        userTime := 0
        sysTime := 0
        childUtime := 0
        childStime := 0
        timeCounter := 0
        userPriority := priority } := by
  unfold doFork at h
  dsimp only at h
  split at h
  · cases h
  · rename_i parent
    split at h
    · cases h
    · rename_i child
      obtain rfl := Except.ok.inj h
      refine ⟨by simpa using parent, by simpa using child, fun k hk => Function.update_of_ne hk .., _, ?_,
        Function.update_self ..⟩
      split
      · exact .inl rfl
      · exact .inr rfl

end Kernel

end SoiExercises.Sched
