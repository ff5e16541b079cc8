import SoiExercises.Sched.Quantum

/-!
# Setting the priority of a process

`do_getpri` and `do_setpri` take the first user slot with the given pid, in use or not, and `do_xit` leaves
the pid of a dead process in its slot. That they find the live process is due to the memory manager, which
gives a new process the lowest free slot and a pid that no live process has (`Call.Promised`): no slot
before a live process has that process's pid (`PidsInOrder`), since at the time of the fork all of them
held other live processes.
-/

namespace SoiExercises.Sched

open SoiExercises.Lib

/-- What a search for a pid and a change of a priority depend on. -/
structure SameIdentity (p p' : Proc) : Prop where
  pid : p'.pid = p.pid
  priority : p'.priority = p.priority
  userPriority : p'.userPriority = p.userPriority

theorem sameIdentity_frame : Frame SameIdentity where
  refl _ := ⟨rfl, rfl, rfl⟩
  trans h h' := ⟨h'.pid.trans h.pid, h'.priority.trans h.priority, h'.userPriority.trans h.userPriority⟩
  nextready _ _ := ⟨rfl, rfl, rfl⟩
  callerq _ _ := ⟨rfl, rfl, rfl⟩
  sendlink _ _ := ⟨rfl, rfl, rfl⟩
  childUtime _ _ := ⟨rfl, rfl, rfl⟩
  childStime _ _ := ⟨rfl, rfl, rfl⟩
  alarm _ _ := ⟨rfl, rfl, rfl⟩

/-- A user slot that is in use. -/
structure Kernel.Live (cfg : Config) (s : Kernel) (k : Nat) : Prop where
  lower : cfg.begUserAddr ≤ k
  upper : k < cfg.endProcAddr
  used : (s.proc k).isEmptyp = false

/-- What the memory manager promises: a fork uses the lowest free user slot, and a positive pid that
no live process has. -/
def Call.Promised (cfg : Config) (s : Kernel) : Call → Prop
  | .fork _ proc2 pid =>
      cfg.begUserAddr ≤ cfg.procAddr proc2 ∧ cfg.procAddr proc2 < cfg.endProcAddr ∧
      (∀ k, cfg.begUserAddr ≤ k → k < cfg.procAddr proc2 → (s.proc k).isEmptyp = false) ∧
      0 < pid ∧ ∀ k, s.Live cfg k → (s.proc k).pid ≠ pid
  | _ => True

/-- The call sets the priority of the process `q` in slot `k`, or ends that process. -/
def Call.Touches (cfg : Config) (q : Int) (k : Nat) : Call → Prop
  | .setpri pid _ => pid = q
  | .xit _ proc2 => cfg.procAddr proc2 = k
  | _ => False

namespace Kernel

variable {cfg : Config} {s t u : Kernel} {j k : Nat} {q v : Int} {c : Call}

/-- The user slots before the first fork: a free slot has no pid, and pids of live processes differ. -/
structure Booted (cfg : Config) (s : Kernel) : Prop where
  unused : ∀ k, cfg.begUserAddr ≤ k → k < cfg.endProcAddr → (s.proc k).isEmptyp → (s.proc k).pid ≤ 0
  distinct : ∀ j k, s.Live cfg j → s.Live cfg k → 0 < (s.proc k).pid → j ≠ k → (s.proc j).pid ≠ (s.proc k).pid

/-- The pid of a live process is that of no slot before it and of no other live process. -/
def PidsInOrder (cfg : Config) (s : Kernel) : Prop :=
  ∀ j k, cfg.begUserAddr ≤ j → s.Live cfg k → 0 < (s.proc k).pid → j ≠ k → (j < k ∨ s.Live cfg j) →
    (s.proc j).pid ≠ (s.proc k).pid

theorem Booted.pidsInOrder (h : Booted cfg s) : PidsInOrder cfg s := by
  intro j k lower live pos ne before
  by_cases used : (s.proc j).isEmptyp
  · have upper : j < cfg.endProcAddr := by
      rcases before with lt | other
      · exact lt_trans lt live.upper
      · exact other.upper
    have none := h.unused j lower upper used
    omega
  · have other : s.Live cfg j := by
      rcases before with lt | other
      · exact ⟨lower, lt_trans lt live.upper, by simpa using used⟩
      · exact other
    exact h.distinct j k other live pos ne

/-- Processes may leave, as long as the pids stay. -/
theorem PidsInOrder.of_pids (h : PidsInOrder cfg s) (pids : ∀ k, (t.proc k).pid = (s.proc k).pid)
    (live : ∀ k, t.Live cfg k → s.Live cfg k) : PidsInOrder cfg t := by
  intro j k lower alive pos ne before
  rw [pids] at pos
  rw [pids, pids]
  exact h j k lower (live k alive) pos ne (before.imp_right (live j))

theorem Live.of_identity (same : SameIdentity (s.proc k) (t.proc k)) (live : t.Live cfg k) : s.Live cfg k where
  lower := live.lower
  upper := live.upper
  used := by simpa [Proc.isEmptyp, same.priority] using live.used

theorem Live.keep (same : SameIdentity (s.proc k) (t.proc k)) (live : s.Live cfg k) : t.Live cfg k where
  lower := live.lower
  upper := live.upper
  used := by simpa [Proc.isEmptyp, same.priority] using live.used

theorem PidsInOrder.of_framed (h : PidsInOrder cfg s) (same : s.Framed SameIdentity t) : PidsInOrder cfg t :=
  h.of_pids (fun k => (same k).pid) fun k live => live.of_identity (same k)

/-- **A search finds the live process.** -/
theorem PidsInOrder.findPid (h : PidsInOrder cfg s) (live : s.Live cfg k) (pid : (s.proc k).pid = q)
    (pos : 0 < q) : s.findPid cfg q = some k := by
  subst pid
  have lower := live.lower
  have upper := live.upper
  unfold Kernel.findPid
  rw [List.find?_range'_eq_some]
  refine ⟨by simp, ?_, fun j hj before => ?_⟩
  · rw [List.mem_range'_1]
    omega
  · have other := h j k hj live pos (by omega) (.inl before)
    simpa using other

/-- What `do_setpri` does to the process it finds. -/
theorem doSetpri_eq {pid priority : Int} {tmp : Nat} (found : s.findPid cfg pid = some tmp) :
    s.doSetpri cfg pid priority =
      s.update tmp fun p => { p with userPriority := admittedPriority priority } := by
  unfold doSetpri
  rw [found]

/-- `do_setpri` changes one priority at most, of a slot with the pid it is called for. -/
theorem doSetpri_cases (cfg : Config) (s : Kernel) (pid priority : Int) :
    s.doSetpri cfg pid priority = s ∨ ∃ tmp, (s.proc tmp).pid = pid ∧
      s.doSetpri cfg pid priority = s.update tmp fun p => { p with userPriority := admittedPriority priority } := by
  cases found : s.findPid cfg pid with
  | none =>
    unfold doSetpri
    rw [found]
    exact .inl rfl
  | some tmp =>
    have hit := List.find?_some found
    exact .inr ⟨tmp, by simpa using hit, doSetpri_eq found⟩

theorem doSetpri_pid {pid priority : Int} (k : Nat) :
    ((s.doSetpri cfg pid priority).proc k).pid = (s.proc k).pid ∧
      ((s.doSetpri cfg pid priority).proc k).isEmptyp = (s.proc k).isEmptyp := by
  rcases doSetpri_cases cfg s pid priority with same | ⟨tmp, -, updated⟩
  · rw [same]
    exact ⟨rfl, rfl⟩
  · rw [updated]
    by_cases hk : k = tmp
    · subst hk
      rw [update_proc_self]
      exact ⟨rfl, rfl⟩
    · rw [update_proc_ne hk]
      exact ⟨rfl, rfl⟩

/-- The scheduling calls keep the identity of every process. -/
theorem schedule_framed (step : CallStep cfg s c t) (schedule : c = .sched ∨ (∃ rp, c = .ready rp) ∨ ∃ rp, c = .unready rp) :
    s.Framed SameIdentity t := by
  rcases schedule with rfl | ⟨rp, rfl⟩ | ⟨rp, rfl⟩
  · exact sched_framed sameIdentity_frame (fun _ _ => ⟨rfl, rfl, rfl⟩) t step
  · exact ready_framed sameIdentity_frame t step
  · exact unready_framed sameIdentity_frame t step

/-- The child of a fork has the lowest free slot and a new pid. -/
theorem PidsInOrder.fork {proc1 proc2 pid : Int} (h : PidsInOrder cfg s)
    (promised : Call.Promised cfg s (.fork proc1 proc2 pid)) : Completes (PidsInOrder cfg) (s.doFork cfg proc1 proc2 pid) := by
  intro t step
  obtain ⟨-, empty, others, priority, -, child⟩ := doFork_cases step
  obtain ⟨-, -, lowest, -, fresh⟩ := promised
  have other {k : Nat} (live : t.Live cfg k) (hk : k ≠ cfg.procAddr proc2) : s.Live cfg k :=
    ⟨live.lower, live.upper, others k hk ▸ live.used⟩
  intro j k lower live pos ne before
  by_cases hk : k = cfg.procAddr proc2
  · -- all slots before the child's were live when it was chosen
    subst hk
    have alive : s.Live cfg j := by
      rcases before with lt | alive
      · exact ⟨lower, lt_trans lt live.upper, lowest j lower lt⟩
      · exact other alive ne
    rw [others j ne, child]
    exact fresh j alive
  · by_cases hj : j = cfg.procAddr proc2
    · subst hj
      rw [others k hk, child]
      exact Ne.symm (fresh k (other live hk))
    · rw [others k hk] at pos
      rw [others k hk, others j hj]
      exact h j k lower (other live hk) pos ne (before.imp_right fun alive => other alive hj)

/-- A process that exits leaves its pid in its slot. -/
theorem PidsInOrder.xit {proc1 proc2 : Int} (h : PidsInOrder cfg s) :
    Completes (PidsInOrder cfg) (s.doXit cfg proc1 proc2) := by
  intro t step
  obtain ⟨others, p, same, vacated⟩ := doXit_framed sameIdentity_frame t step
  refine h.of_pids (fun k => ?_) fun k live => ?_
  · by_cases hk : k = cfg.procAddr proc2
    · rw [hk, vacated]
      exact same.pid
    · exact (others k hk).pid
  · by_cases hk : k = cfg.procAddr proc2
    · have used := live.used
      rw [hk, vacated] at used
      cases used
    · exact live.of_identity (others k hk)

/-- **One call keeps the pids in order**, `do_fork` by the promise of the memory manager. -/
theorem PidsInOrder.step (h : PidsInOrder cfg s) (step : Guarded (CallStep cfg) (Call.Promised cfg) s c t) :
    PidsInOrder cfg t := by
  obtain ⟨step, promised⟩ := step
  cases c with
  | fork proc1 proc2 pid => exact h.fork promised t step
  | xit proc1 proc2 => exact h.xit t step
  | setpri pid priority =>
    obtain rfl := Except.ok.inj step
    refine h.of_pids (fun k => (doSetpri_pid k).1) fun k live => ⟨live.lower, live.upper, ?_⟩
    rw [← (doSetpri_pid k).2]
    exact live.used
  | sched => exact h.of_framed (schedule_framed step (.inl rfl))
  | ready rp => exact h.of_framed (schedule_framed step (.inr (.inl ⟨rp, rfl⟩)))
  | unready rp => exact h.of_framed (schedule_framed step (.inr (.inr ⟨rp, rfl⟩)))

/-- The live process in slot `k` has the pid `q` and the priority `v`. -/
structure Has (cfg : Config) (k : Nat) (q v : Int) (s : Kernel) : Prop where
  live : s.Live cfg k
  pid : (s.proc k).pid = q
  userPriority : (s.proc k).userPriority = v

theorem Has.keep (h : Has cfg k q v s) (same : SameIdentity (s.proc k) (t.proc k)) : Has cfg k q v t where
  live := h.live.keep same
  pid := same.pid.trans h.pid
  userPriority := same.userPriority.trans h.userPriority

/-- A call that neither sets the priority of a process nor ends it leaves it with its priority. -/
theorem Has.step (h : Has cfg k q v s) (step : CallStep cfg s c t) (untouched : ¬ c.Touches cfg q k) :
    Has cfg k q v t := by
  cases c with
  | fork proc1 proc2 pid =>
    obtain ⟨-, empty, others, -⟩ := doFork_cases step
    have ne : k ≠ cfg.procAddr proc2 := by
      rintro rfl
      rw [h.live.used] at empty
      cases empty
    refine h.keep ?_
    rw [others k ne]
    exact sameIdentity_frame.refl _
  | xit proc1 proc2 =>
    obtain ⟨others, -⟩ := doXit_framed sameIdentity_frame t step
    exact h.keep (others k (Ne.symm untouched))
  | setpri pid priority =>
    obtain rfl := Except.ok.inj step
    rcases doSetpri_cases cfg s pid priority with same | ⟨tmp, hit, updated⟩
    · rw [same]
      exact h
    · have ne : k ≠ tmp := by
        rintro rfl
        exact untouched (hit.symm.trans h.pid)
      refine h.keep ?_
      rw [updated, update_proc_ne ne]
      exact sameIdentity_frame.refl _
  | sched => exact h.keep (schedule_framed step (.inl rfl) k)
  | ready rp => exact h.keep (schedule_framed step (.inr (.inl ⟨rp, rfl⟩)) k)
  | unready rp => exact h.keep (schedule_framed step (.inr (.inr ⟨rp, rfl⟩)) k)

theorem admittedPriority_eq (v : Int) : admittedPriority v = if 1 ≤ v ∧ v ≤ 100 then v else 15 := by
  unfold admittedPriority
  split
  · rw [if_neg (by omega)]
  · rw [if_pos (by omega)]

/-- **A priority reaches exactly the live process with the pid.** In every state that calls of the
memory manager lead to, a live process gets the priority that is set for its pid, 15 in place of one that
is out of range; no other slot changes; and the value is read back after any further calls that neither set
this priority nor end this process. -/
theorem setpri_reaches {s₀ : Kernel} {cs : List Call} (boot : Booted cfg s₀)
    (run : Run (Guarded (CallStep cfg) (Call.Promised cfg)) s₀ cs s) :
    ∀ k q v, s.Live cfg k → (s.proc k).pid = q → 0 < q →
      ((s.doSetpri cfg q v).proc k).userPriority = (if 1 ≤ v ∧ v ≤ 100 then v else 15) ∧
      (∀ j, j ≠ k → (s.doSetpri cfg q v).proc j = s.proc j) ∧
      ∀ cs' u, Run (fun a c b => Guarded (CallStep cfg) (Call.Promised cfg) a c b ∧ ¬ c.Touches cfg q k)
          (s.doSetpri cfg q v) cs' u →
        u.doGetpri cfg q = if 1 ≤ v ∧ v ≤ 100 then v else 15 := by
  intro k q v live pid pos
  have order : PidsInOrder cfg s := run.invariant PidsInOrder.step boot.pidsInOrder
  have set : s.doSetpri cfg q v = _ := doSetpri_eq (order.findPid live pid pos)
  have priority : ((s.doSetpri cfg q v).proc k).userPriority = if 1 ≤ v ∧ v ≤ 100 then v else 15 := by
    rw [set, update_proc_self]
    exact admittedPriority_eq v
  refine ⟨priority, fun j ne => ?_, fun cs' u later => ?_⟩
  · rw [set, update_proc_ne ne]
  · have start : PidsInOrder cfg (s.doSetpri cfg q v) := order.step ⟨rfl, trivial⟩ (c := .setpri q v)
    have has : Has cfg k q (if 1 ≤ v ∧ v ≤ 100 then v else 15) (s.doSetpri cfg q v) := by
      refine ⟨⟨live.lower, live.upper, ?_⟩, (doSetpri_pid k).1.trans pid, priority⟩
      rw [(doSetpri_pid k).2]
      exact live.used
    have ordered : PidsInOrder cfg u := later.invariant (fun h step => h.step step.1) start
    have kept : Has cfg k q _ u := later.invariant (fun h step => h.step step.1.1 step.2) has
    unfold doGetpri
    rw [ordered.findPid kept.live kept.pid pos]
    exact kept.userPriority

theorem initAt_booted : Booted minix (initAt 0 10) where
  unused k _ _ empty := by
    have ne : k ≠ 10 := by
      rintro rfl
      cases empty
    simp [initAt, Function.update_of_ne ne, Proc.unused]
  distinct j k hj hk _ ne := by
    have only {i : Nat} (live : (initAt 0 10).Live minix i) : i = 10 := by
      by_contra other
      have used := live.used
      simp [initAt, Function.update_of_ne other, Proc.unused, Proc.isEmptyp] at used
    exact absurd ((only hj).trans (only hk).symm) ne

/-- `init` has forked a process, and sets its priority to 60. -/
theorem setpri_reaches_child : ∃ s, CallStep minix (initAt 0 10) (.fork 2 3 2) s ∧
    (s.doSetpri minix 2 60).doGetpri minix 2 = 60 ∧ (s.doSetpri minix 2 60).proc 10 = s.proc 10 := by
  have promised : Call.Promised minix (initAt 0 10) (.fork 2 3 2) := by
    refine ⟨by decide, by decide, fun k lower upper => ?_, by decide, fun k live => ?_⟩
    · obtain rfl : k = 10 := by
        have lower : 10 ≤ k := lower
        have upper : k < 11 := upper
        omega
      rfl
    · by_cases hk : k = 10
      · subst hk
        decide
      · simp [initAt, Function.update_of_ne hk, Proc.unused]
  obtain ⟨s, forked⟩ : ∃ s, CallStep minix (initAt 0 10) (.fork 2 3 2) s := ⟨_, rfl⟩
  have done : (initAt 0 10).doFork minix 2 3 2 = .ok s := forked
  obtain ⟨-, -, -, priority, -, child⟩ := doFork_cases done
  have live : s.Live minix 11 := ⟨by decide, by decide, congrArg Proc.isEmptyp child⟩
  have pid : (s.proc 11).pid = 2 := congrArg Proc.pid child
  have reaches := setpri_reaches initAt_booted (Run.single ⟨forked, promised⟩) 11 2 60 live pid (by decide)
  exact ⟨s, forked, reaches.2.2 [] _ (.nil _), reaches.2.1 10 (by decide)⟩

end Kernel

end SoiExercises.Sched
