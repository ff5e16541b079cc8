import SoiExercises.Sched.ClockTask
import SoiExercises.Sched.Requests

/-!
# The system task

The requests of MM and FS lead from an intact kernel to an intact one. A process is made runnable by clearing
its last flag (`Intact.lower`), stopped by setting one, and its slot is taken into use or given back
(`Manned.replace`). `SysRequest.Proper` is what the servers owe the system task.
-/

namespace SoiExercises.Sched

open SoiExercises.Lib

/-- The slot without the flag `x`. -/
def Proc.lowered (x : Flag) (p : Proc) : Proc := { p with flags := p.flags.erase x }

/-- The slot of a process that is stopped. -/
def Proc.stopped (p : Proc) : Proc := { p with flags := insert .pStop p.flags }

/-- The slot of a process that has signed on as a server. -/
def Proc.signedOn (p : Proc) : Proc := { p with priority := .server, pid := 0 }

/-- The slot of a process that has exited. -/
def Proc.vacated (p : Proc) : Proc := { p with flags := ∅, priority := .none }

/-- The slot of a child. -/
def Proc.forked (parent : Proc) (nr pid priority : Int) : Proc := { parent with
  nr := nr
  flags := insert .noMap parent.flags \ {.pending, .sigPending, .pStop}
  pid := pid
  userTime := 0
  sysTime := 0
  childUtime := 0
  childStime := 0
  timeCounter := 0
  userPriority := priority }

/-- What MM and FS see to before they make a request: a parent that forks is not sending and nobody sends to it or
to the new slot, a process that execs or goes on or signs on is blocked, and a process is held until its last
signal is finished. -/
def SysRequest.Proper (cfg : Config) (s : Kernel) : SysRequest → Prop
  | .fork proc1 proc2 _ =>
      ((s.proc (cfg.procAddr proc1)).isUserp ∧ .sending ∉ (s.proc (cfg.procAddr proc1)).flags ∧
        (s.proc (cfg.procAddr proc1)).callerq = none) ∧
      0 ≤ proc2 ∧ proc2 < cfg.NR_PROCS ∧ (s.proc (cfg.procAddr proc2)).isEmptyp ∧ (s.proc (cfg.procAddr proc2)).callerq = none
  | .newmap _ mapped => mapped
  | .exec proc1 _ _ => (s.proc (cfg.procAddr proc1)).isUserp ∧ .receiving ∈ (s.proc (cfg.procAddr proc1)).flags
  | .xit proc1 proc2 => (s.proc (cfg.procAddr proc1)).isUserp ∧ (s.proc (cfg.procAddr proc2)).isUserp
  | .kill pr _ => (s.proc (cfg.procAddr pr)).isUserp
  | .endsig proc1 finished => (s.proc (cfg.procAddr proc1)).isEmptyp ∨ (s.proc (cfg.procAddr proc1)).isUserp ∧
      (finished → .sigPending ∈ (s.proc (cfg.procAddr proc1)).flags ∧ .pending ∉ (s.proc (cfg.procAddr proc1)).flags)
  | .trace procnr request => (s.proc (cfg.procAddr procnr)).isEmptyp ∨ (s.proc (cfg.procAddr procnr)).isUserp ∧
      (request ≠ .T_STOP → .pStop ∈ (s.proc (cfg.procAddr procnr)).flags)
  | .signon proc_nr _ _ => (s.proc (cfg.procAddr proc_nr)).flags ≠ ∅
  | .getpri _ | .setpri _ _ => True

namespace Kernel

variable {cfg : Config} {s t u : Kernel} {A B : Scheduler} {P P' : Mail} {H : List Nat} {k rp rc : Nat} {f : Proc → Proc}
  {awake awake' : Nat → Prop} {x : Flag}

/-- The kernel is intact again after a request, with its alarms. -/
def Served (cfg : Config) (P : Mail) (t : Kernel) : Prop := Advanced cfg P Post.nothing t ∧ Alarms t

/-- The flag `x` is cleared, and the process is made runnable when it was the last one. -/
def lower (s : Kernel) (rp : Nat) (x : Flag) : Result Kernel :=
  let s := s.update rp (Proc.lowered x)
  if (s.proc rp).flags = ∅ then s.lockReady rp else .ok s

theorem lower_bind {n : SysReply} : (do
    let s ← s.lower rp x
    return (n, s)) =
    if ((s.update rp (Proc.lowered x)).proc rp).flags = ∅ then (do
      let s ← (s.update rp (Proc.lowered x)).lockReady rp
      return (n, s))
    else .ok (n, s.update rp (Proc.lowered x)) := by
  unfold lower
  dsimp only
  split
  · rfl
  · rfl

theorem doExec_eq {proc1 : Int} {traced known : Bool} : s.doExec cfg proc1 traced known =
    if !(s.proc (cfg.procAddr proc1)).isUserp then .error (.panic "assert(isuserp(rp))")
    else (if traced then s.causeSig cfg proc1 known else .ok s) >>= fun t => do
      let s ← t.lower (cfg.procAddr proc1) .receiving
      return (.OK, s) := by
  unfold doExec
  simp only [lower_bind]
  split
  · rfl
  · split
    · rfl
    · rfl

/-- A process that is in no ready queue is replaced by one that belongs in none. -/
theorem Manned.replace (h : Manned cfg s A awake) (out : ∀ q, k ∉ A.line q)
    (asleep : ¬ (awake' k ∧ (f (s.proc k)).priority.scheduled))
    (inside : (f (s.proc k)).priority.scheduled → k < cfg.endProcAddr) (same : ∀ j, j ≠ k → (awake' j ↔ awake j)) :
    Manned cfg (s.update k f) A awake' where
  lined := by
    have apart {q : Queue} {j : Nat} (hj : j ∈ A.line q) : (s.update k f).proc j = s.proc j := by
      refine update_proc_ne ?_
      rintro rfl
      exact out q hj
    refine h.lined.of_eq (fun q j hj => ?_) (fun q j hj => by rw [apart hj]) rfl rfl rfl rfl
    unfold links
    rw [apart hj]
  members {j} := by
    by_cases hj : j = k
    · subst hj
      rw [update_proc_self]
      exact iff_of_false (out _) asleep
    · rw [update_proc_ne hj, h.members, same j hj]
  current := by
    refine ⟨h.current.task, ?_⟩
    rcases h.current.turn with idle | first
    · exact .inl idle
    · have other : A.running ≠ k := by
        rintro runs
        rw [runs] at first
        exact out _ (List.mem_of_head? first)
      right
      rw [update_proc_ne other]
      exact first
  inside {j} scheduled := by
    by_cases hj : j = k
    · subst hj
      rw [update_proc_self] at scheduled
      exact inside scheduled
    · rw [update_proc_ne hj] at scheduled
      exact h.inside scheduled

/-- The slot of a user process, or a free one, is used for something else. -/
theorem Table.replace (h : Table cfg s) (was : (s.proc k).priority = .user ∨ (s.proc k).priority = .none)
    (place : cfg.NR_TASKS ≤ k ∧ k < cfg.endProcAddr)
    (becomes : (f (s.proc k)).priority ≠ .task ∧ (f (s.proc k)).priority ≠ .idle)
    (flags : ∀ x, x ∈ (f (s.proc k)).flags → (f (s.proc k)).priority.scheduled) : Table cfg (s.update k f) := by
  have apart {j : Nat} {r : Ppri} (role : (s.proc j).priority = r) (user : r ≠ .user) (none : r ≠ .none) :
      (s.update k f).proc j = s.proc j := by
    refine update_proc_ne ?_
    rintro rfl
    exact was.elim (fun h => user (role.symm.trans h)) fun h => none (role.symm.trans h)
  have cases (j : Nat) : j = k ∧ (s.update k f).proc j = f (s.proc k) ∨ (s.update k f).proc j = s.proc j := by
    by_cases hj : j = k
    · subst hj
      exact .inl ⟨rfl, update_proc_self⟩
    · exact .inr (update_proc_ne hj)
  constructor
  case any => exact h.any
  case outside =>
    intro j hj
    rw [update_proc_ne (by omega)]
    exact h.outside hj
  case tasks =>
    intro j hj
    rcases cases j with ⟨-, new⟩ | old
    · rw [new] at hj
      exact hj.elim (fun task => absurd task becomes.1) fun idle => absurd idle becomes.2
    · rw [old] at hj
      exact h.tasks hj
  case procs =>
    intro j hj
    rcases cases j with ⟨rfl, -⟩ | old
    · exact place.1
    · rw [old] at hj
      exact h.procs hj
  case servers =>
    intro n hn
    have server := h.servers hn
    rw [apart server (by decide) (by decide)]
    exact server
  case clock =>
    rw [apart h.clock (by decide) (by decide)]
    exact h.clock
  case hardware =>
    rw [apart h.hardware (by decide) (by decide)]
    exact h.hardware
  case idle =>
    rw [apart h.idle (by decide) (by decide)]
    exact h.idle
  case live =>
    intro j x hx
    rcases cases j with ⟨-, new⟩ | old
    · rw [new] at hx ⊢
      exact flags x hx
    · rw [old] at hx ⊢
      exact h.live hx
  case taskFlags =>
    intro j x hx task
    rcases cases j with ⟨-, new⟩ | old
    · rw [new] at task
      exact absurd task becomes.1
    · rw [old] at hx task
      exact h.taskFlags hx task

/-- A process that is not a task is replaced; its interrupts are not held up. -/
theorem Holds.replace (h : Holds s H) (notTask : (s.proc k).priority ≠ .task) (intHeld : (f (s.proc k)).intHeld = false) :
    Holds (s.update k f) H where
  listed := by
    refine h.listed.congr fun j hj => ?_
    unfold heldlinks
    rw [update_proc_ne]
    rintro rfl
    exact notTask (h.task hj)
  tail := h.tail
  marked {j} := by
    by_cases hj : j = k
    · subst hj
      rw [update_proc_self, intHeld]
      exact iff_of_false (fun hj => notTask (h.task hj)) Bool.false_ne_true
    · rw [update_proc_ne hj]
      exact h.marked
  task {j} hj := by
    rw [update_proc_ne]
    · exact h.task hj
    · rintro rfl
      exact notTask (h.task hj)

theorem Holds.free (h : Holds s H) (notTask : (s.proc k).priority ≠ .task) : (s.proc k).intHeld = false := by
  by_contra held
  exact notTask (h.task (h.marked.2 (by simpa using held)))

theorem Signals.congr (h : Signals cfg s) (pending : ∀ k, .pending ∈ (t.proc k).flags ↔ .pending ∈ (s.proc k).flags)
    (held : ∀ k, .pending ∈ (t.proc k).flags → .sigPending ∈ (s.proc k).flags → .sigPending ∈ (t.proc k).flags)
    (sigProcs : t.sigProcs = s.sigProcs) : Signals cfg t where
  count := by
    have same : t.pendings cfg = s.pendings cfg := by
      ext k
      rw [mem_pendings, mem_pendings, pending]
    rw [sigProcs, same]
    exact h.count
  held {k} hk := held k hk (h.held ((pending k).1 hk))

/-- The ready queues of a kernel that is otherwise intact are brought up to date. -/
theorem Manned.intact (manned : Manned cfg t B fun k => (s.proc k).flags = ∅) (requeued : Requeued s t) (table : Table cfg s)
    (posted : Posted cfg s P) (signals : Signals cfg s) (informed : Informed cfg s) (holds : Holds s H) :
    Intact cfg t B P H where
  table := table.requeued requeued
  manned := by
    refine manned.congr rfl (fun _ => rfl) rfl rfl rfl rfl fun k _ => ?_
    rw [requeued_flags requeued]
  posted := posted.requeued requeued
  signals := signals.steady (.requeued requeued)
  informed := by
    refine informed.noNewWaits (fun k receiving => ?_) (Steady.requeued requeued).sigProcs
    rw [requeued_flags requeued] at receiving
    exact ⟨receiving, requeued_getfrom requeued k⟩
  holds := holds.stable (.requeued requeued)

/-- **A flag is cleared** on a blocked process, which is made runnable if it was the last one. -/
theorem Intact.lower (h : Intact cfg s A P H) (system : s.InSystem) (asleep : (s.proc rp).flags ≠ ∅) (hs : x ≠ .sending)
    (hp : x ≠ .pending) (done : x = .sigPending → .pending ∉ (s.proc rp).flags) :
    Returns (fun t => Advanced cfg P Post.nothing t ∧ Settled s t) (s.lower rp x) := by
  have here : ((s.update rp (Proc.lowered x)).proc rp).flags = (s.proc rp).flags.erase x := by
    rw [update_proc_self]
    rfl
  have others {j : Nat} (hj : j ≠ rp) : (s.update rp (Proc.lowered x)).proc j = s.proc j := update_proc_ne hj
  have fewer (j : Nat) : ((s.update rp (Proc.lowered x)).proc j).flags ⊆ (s.proc j).flags :=
    update_flags_subset (Finset.erase_subset ..) j
  have kept {y : Flag} (hy : y ≠ x) (j : Nat) : y ∈ ((s.update rp (Proc.lowered x)).proc j).flags ↔ y ∈ (s.proc j).flags := by
    by_cases hj : j = rp
    · subst hj
      rw [here]
      simp [hy]
    · rw [others hj]
  have table : Table cfg (s.update rp (Proc.lowered x)) := h.table.update rfl fun y hy => .inl (Finset.mem_of_mem_erase hy)
  obtain ⟨P₁, passes, posted⟩ : ∃ P₁, Passes cfg P Post.nothing P₁ ∧ Posted cfg (s.update rp (Proc.lowered x)) P₁ := by
    by_cases receiving : x = .receiving
    · subst receiving
      refine ⟨P.forget rp, .forget .forget, h.posted.forget (fun j hj => by rw [others hj]; exact .refl _)
        (update_field Proc.callerq (by rfl)) (update_field Proc.sendlink (by rfl)) (update_field Proc.nr (by rfl) rp)
        (update_field Proc.sendto (by rfl) rp) (update_field Proc.messbuf (by rfl) rp) (kept (by decide) rp) ?_⟩
      rw [here]
      exact Finset.notMem_erase _ _
    · refine ⟨P, .refl P, h.posted.update ⟨rfl, rfl, rfl, rfl, rfl, ?_, ?_⟩ rfl rfl⟩
      · simp [Proc.lowered, Ne.symm hs]
      · simp [Proc.lowered, Ne.symm receiving]
  have signals : Signals cfg (s.update rp (Proc.lowered x)) := by
    refine h.signals.congr (kept (Ne.symm hp)) (fun j pending held => ?_) rfl
    by_cases last : x = .sigPending
    · have other : j ≠ rp := by
        rintro rfl
        exact done last (fewer _ pending)
      rw [others other]
      exact held
    · exact (kept (Ne.symm last) j).2 held
  have informed : Informed cfg (s.update rp (Proc.lowered x)) :=
    h.informed.noNewWaits (fun j waits => ⟨fewer j waits, update_field Proc.getfrom (by rfl) j⟩) rfl
  have holds : Holds (s.update rp (Proc.lowered x)) H := h.holds.update rfl rfl rfl
  have manned : Manned cfg (s.update rp (Proc.lowered x)) A fun k => (s.proc k).flags = ∅ :=
    h.manned.update rfl rfl fun _ _ => Iff.rfl
  have settled : Settled s (s.update rp (Proc.lowered x)) := .update rfl rfl
  have system₁ : (s.update rp (Proc.lowered x)).InSystem := by
    unfold InSystem
    rw [settled.priority]
    exact system
  have scheduled : ((s.update rp (Proc.lowered x)).proc rp).priority.scheduled := by
    rw [settled.priority]
    obtain ⟨y, hy⟩ := Finset.nonempty_iff_ne_empty.2 asleep
    exact h.table.live hy
  unfold Kernel.lower
  dsimp only
  generalize s.update rp (Proc.lowered x) = t at *
  refine .ite (fun runnable => ?_) fun blocked => ?_
  · have locked : Manned cfg { t with switching := true } A fun k => (s.proc k).flags = ∅ :=
      manned.congr rfl (fun _ => rfl) rfl rfl rfl rfl fun _ _ => Iff.rfl
    unfold lockReady
    refine Ends.bind (locked.wake asleep scheduled fun _ => system₁) ?_
    rintro u ⟨B, manned', requeued, -⟩
    have intact : Intact cfg u B P₁ H := by
      refine Manned.intact ?_ requeued (table.of_flags (fun _ => rfl) fun _ => Finset.Subset.refl _)
        (posted.congr (fun _ => .refl _) (fun _ => rfl) fun _ => rfl) (signals.of_eq rfl rfl) informed
        (holds.stable (.of_eq rfl rfl rfl rfl rfl))
      refine manned'.congr rfl (fun _ => rfl) rfl rfl rfl rfl fun j _ => ?_
      show (t.proc j).flags = ∅ ↔ _
      by_cases hj : j = rp
      · simp [hj, runnable]
      · rw [others hj]
        simp [hj]
    have settled' := (Stable.requeued requeued).settled
    refine Ends.pure ⟨⟨B, P₁, H, intact.of_eq rfl rfl rfl rfl rfl rfl rfl rfl, passes⟩, ?_⟩
    exact ⟨fun k => (settled'.priority k).trans (settled.priority k), fun k => (settled'.alarm k).trans (settled.alarm k),
      settled'.realtime.trans settled.realtime, settled'.nextAlarm.trans settled.nextAlarm⟩
  · refine Ends.ok ⟨⟨A, P₁, H, ⟨⟨⟨table, ?_, posted⟩, signals, informed⟩, holds⟩, passes⟩, settled⟩
    refine manned.congr rfl (fun _ => rfl) rfl rfl rfl rfl fun j _ => ?_
    by_cases hj : j = rp
    · rw [hj]
      exact iff_of_false blocked asleep
    · rw [others hj]

namespace Intact

/-- **`T_STOP`**: a process is stopped. -/
theorem stop (h : Intact cfg s A P H) (user : (s.proc rp).isUserp) :
    Ends Fault.Overrun (fun t => Advanced cfg P Post.nothing (t.update rp Proc.stopped) ∧ Settled s (t.update rp Proc.stopped))
      (s.stopRunning cfg rp) := by
  have isUser : (s.proc rp).priority = .user := by simpa [Proc.isUserp] using user
  have scheduled : (s.proc rp).priority.scheduled := by
    rw [isUser]
    rfl
  refine h.manned.stop.imp ?_
  rintro t ⟨B, b, manned, requeued⟩
  have sound := h.halt manned requeued (g := fun flags => insert .pStop flags) (Finset.insert_nonempty ..).ne_empty (by simp)
    (by simp) fun _ _ => .inr ⟨scheduled, by rw [isUser]; decide⟩
  obtain ⟨r, rfl⟩ := requeued
  have kept {y : Flag} (hy : y ≠ Flag.pStop) (j : Nat) : y ∈ ((({ s with switching := b }.place r).update rp Proc.stopped).proc j).flags ↔ y ∈ (s.proc j).flags := by
    by_cases hj : j = rp
    · subst hj
      rw [update_proc_self]
      show y ∈ insert Flag.pStop (s.proc j).flags ↔ _
      simp [hy]
    · rw [update_proc_ne hj]
      rfl
  have field {β : Type} (g : Proc → β) (same : ∀ p v, g { p with flags := v } = g p)
      (place : ∀ j, g (({ s with switching := b }.place r).proc j) = g (s.proc j)) (j : Nat) :
      g ((({ s with switching := b }.place r).update rp Proc.stopped).proc j) =
        g (s.proc j) := (update_field (f := Proc.stopped) g (same _ _) j).trans (place j)
  have stable : Stable s (({ s with switching := b }.place r).update rp Proc.stopped) :=
    ⟨field Proc.priority (fun _ _ => rfl) fun _ => rfl, field Proc.alarm (fun _ _ => rfl) fun _ => rfl,
      field Proc.intHeld (fun _ _ => rfl) fun _ => rfl, field Proc.nextheld (fun _ _ => rfl) fun _ => rfl, rfl, rfl, rfl, rfl⟩
  have waits : NoNewWaits s (({ s with switching := b }.place r).update rp Proc.stopped) :=
    fun j hj => ⟨(kept (by decide) j).1 hj, field Proc.getfrom (fun _ _ => rfl) (fun _ => rfl) j⟩
  refine ⟨⟨B, P, H, ⟨⟨sound, ?_, h.informed.noNewWaits waits rfl⟩, h.holds.stable stable⟩, .refl P⟩, stable.settled⟩
  exact h.signals.congr (kept (by decide)) (fun j _ held => (kept (by decide) j).2 held) rfl

/-- **`SYSSIGNON`**: a blocked user process becomes a server. -/
theorem signon (h : Intact cfg s A P H) (alarms : Alarms s) (user : (s.proc rp).isUserp) (asleep : (s.proc rp).flags ≠ ∅) :
    Served cfg P (s.update rp Proc.signedOn) := by
  have isUser : (s.proc rp).priority = .user := by simpa [Proc.isUserp] using user
  have flags := update_field (s := s) (k := rp) (f := Proc.signedOn) Proc.flags rfl
  have inside : rp < cfg.endProcAddr := h.table.inside (by rw [isUser]; rfl)
  have out (q : Queue) : rp ∉ A.line q := by
    intro member
    have kind := h.manned.lined.kind member
    rw [← kind] at member
    exact asleep (h.manned.members.1 member).1
  have role {j : Nat} (hj : (s.proc j).priority.scheduled) :
      ((s.update rp Proc.signedOn).proc j).priority.scheduled := by
    by_cases same : j = rp
    · rw [same, update_proc_self]
      rfl
    · rw [update_proc_ne same]
      exact hj
  refine ⟨⟨A, P, H, ⟨⟨⟨?_, ?_, ?_⟩, ?_, ?_⟩, ?_⟩, .refl P⟩, ⟨fun {j} on => ?_, fun {j} on => ?_⟩⟩
  · exact h.table.replace (.inl isUser) ⟨h.table.procs (.inr isUser), inside⟩
      (by show Ppri.server ≠ .task ∧ Ppri.server ≠ .idle; decide) fun _ _ => rfl
  · refine h.manned.replace out (fun both => asleep ?_) (fun _ => inside) fun j _ => by rw [flags]
    rw [← flags]
    exact both.1
  · exact h.posted.update ⟨rfl, rfl, rfl, rfl, rfl, Iff.rfl, Iff.rfl⟩ rfl rfl
  · exact h.signals.congr (fun j => by rw [flags]) (fun j _ held => by rw [flags]; exact held) rfl
  · refine h.informed.noNewWaits (fun j waits => ⟨?_, update_field Proc.getfrom (by rfl) j⟩) rfl
    rw [flags] at waits
    exact waits
  · have notTask : (s.proc rp).priority ≠ .task := by
      rw [isUser]
      decide
    exact h.holds.replace notTask (h.holds.free notTask)
  · rw [update_field Proc.alarm (by rfl)] at on
    exact role (alarms.set on)
  · rw [update_field Proc.alarm (by rfl)] at on ⊢
    exact alarms.early on

/-- **`do_fork`**: the child is in a new slot, and waits as its parent does. -/
theorem fork {proc1 proc2 pid : Int} (h : Intact cfg s A P H) (alarms : Alarms s)
    (parent : (s.proc (cfg.procAddr proc1)).isUserp) (open_ : .sending ∉ (s.proc (cfg.procAddr proc1)).flags)
    (nobody : (s.proc (cfg.procAddr proc1)).callerq = none) (low : 0 ≤ proc2) (high : proc2 < cfg.NR_PROCS)
    (empty : (s.proc (cfg.procAddr proc2)).isEmptyp) (alone : (s.proc (cfg.procAddr proc2)).callerq = none) :
    Returns (Served cfg P) (s.doFork cfg proc1 proc2 pid) := by
  have isUser : (s.proc (cfg.procAddr proc1)).priority = .user := by simpa [Proc.isUserp] using parent
  have free : (s.proc (cfg.procAddr proc2)).priority = .none := by simpa [Proc.isEmptyp] using empty
  unfold Kernel.doFork
  dsimp only
  rw [if_neg (by simp [parent]), if_neg (by simp [empty])]
  generalize (if s.lastUserPriority = 50 then (10 : Int) else 50) = priority
  -- the slot of the child
  have slot : cfg.NR_TASKS ≤ cfg.procAddr proc2 ∧ cfg.procAddr proc2 < cfg.endProcAddr := by
    unfold Config.procAddr Config.endProcAddr
    omega
  have number : (s.proc (cfg.procAddr proc2)).nr = proc2 := by
    rw [h.posted.number]
    unfold Config.procAddr
    omega
  have idle {x : Flag} : x ∉ (s.proc (cfg.procAddr proc2)).flags := by
    intro hx
    have scheduled := h.table.live hx
    rw [free] at scheduled
    cases scheduled
  have notTask : (s.proc (cfg.procAddr proc2)).priority ≠ .task := by
    rw [free]
    decide
  have held : (s.proc (cfg.procAddr proc1)).intHeld = false := h.holds.free (by rw [isUser]; decide)
  generalize rpp_eq : s.proc (cfg.procAddr proc1) = p at *
  have flags {x : Flag} : x ∈ (p.forked proc2 pid priority).flags ↔
      (x = .noMap ∨ x ∈ p.flags) ∧ x ≠ .pending ∧ x ≠ .sigPending ∧ x ≠ .pStop := by
    unfold Proc.forked
    simp
  have user : (p.forked proc2 pid priority).priority = .user := isUser
  have here : (s.update (cfg.procAddr proc2) fun _ => p.forked proc2 pid priority).proc (cfg.procAddr proc2) =
      p.forked proc2 pid priority := update_proc_self
  have others {j : Nat} (hj : j ≠ cfg.procAddr proc2) :
      (s.update (cfg.procAddr proc2) fun _ => p.forked proc2 pid priority).proc j = s.proc j := update_proc_ne hj
  obtain ⟨passes, posted⟩ := h.posted.enter (t := s.update (cfg.procAddr proc2) fun _ => p.forked proc2 pid priority)
    (p := cfg.procAddr proc1) idle alone (fun j hj => others hj) (by rw [here, number]; rfl) (by rw [here]; exact nobody)
    (by rw [here]; exact fun sending => (flags.1 sending).1.elim (fun no => by cases no) open_) (by rw [rpp_eq]; exact open_)
    (by rw [here, rpp_eq]; exact fun receiving => (flags.1 receiving).1.resolve_left (fun no => by cases no))
    (by rw [here, rpp_eq]; rfl) (by rw [here, rpp_eq]; rfl)
  have table : Table cfg (s.update (cfg.procAddr proc2) fun _ => p.forked proc2 pid priority) := by
    refine h.table.replace (.inr free) slot ?_ fun x _ => ?_
    · rw [user]
      decide
    · rw [user]
      rfl
  have manned : Manned cfg (s.update (cfg.procAddr proc2) fun _ => p.forked proc2 pid priority) A fun k =>
      ((s.update (cfg.procAddr proc2) fun _ => p.forked proc2 pid priority).proc k).flags = ∅ := by
    refine h.manned.replace (fun q member => ?_) (fun both => ?_) (fun _ => slot.2) fun j hj => by rw [others hj]
    · have kind := h.manned.lined.kind member
      rw [← kind] at member
      have scheduled := (h.manned.members.1 member).2
      rw [free] at scheduled
      cases scheduled
    · have mapped : .noMap ∈ (p.forked proc2 pid priority).flags := flags.2 ⟨.inl rfl, by decide, by decide, by decide⟩
      rw [here] at both
      rw [both.1] at mapped
      exact Finset.notMem_empty _ mapped
  have signals : Signals cfg (s.update (cfg.procAddr proc2) fun _ => p.forked proc2 pid priority) := by
    have apart {j : Nat} (hj : .pending ∈ ((s.update (cfg.procAddr proc2) fun _ => p.forked proc2 pid priority).proc j).flags) :
        j ≠ cfg.procAddr proc2 := by
      rintro rfl
      rw [here] at hj
      exact (flags.1 hj).2.1 rfl
    refine h.signals.congr (fun j => ⟨fun hj => ?_, fun hj => ?_⟩) (fun j hj old => ?_) rfl
    · rw [others (apart hj)] at hj
      exact hj
    · rw [others]
      · exact hj
      · rintro rfl
        exact idle hj
    · rw [others (apart hj)]
      exact old
  have informed : Informed cfg (s.update (cfg.procAddr proc2) fun _ => p.forked proc2 pid priority) := by
    have other : cfg.procAddr MM_PROC_NR ≠ cfg.procAddr proc2 := by
      intro same
      have server := h.table.servers (n := MM_PROC_NR) rfl
      rw [same, free] at server
      cases server
    intro receiving any
    rw [others other] at receiving any
    exact h.informed receiving any
  have intact : Intact cfg (s.update (cfg.procAddr proc2) fun _ => p.forked proc2 pid priority) A _ H :=
    ⟨⟨⟨table, manned, posted⟩, signals, informed⟩, h.holds.replace notTask held⟩
  refine Ends.ok ⟨⟨A, _, H, intact.of_eq rfl rfl rfl rfl rfl rfl rfl rfl, passes⟩, fun {j} on => ?_, fun {j} on => ?_⟩
  · show ((s.update (cfg.procAddr proc2) fun _ => p.forked proc2 pid priority).proc j).priority.scheduled
    by_cases hj : j = cfg.procAddr proc2
    · rw [hj, here, user]
      rfl
    · rw [others hj]
      refine alarms.set fun off => on ?_
      exact (congrArg Proc.alarm (others hj)).trans off
  · have on : ((s.update (cfg.procAddr proc2) fun _ => p.forked proc2 pid priority).proc j).alarm ≠ 0 := on
    show s.nextAlarm ≤ ((s.update (cfg.procAddr proc2) fun _ => p.forked proc2 pid priority).proc j).alarm
    by_cases hj : j = cfg.procAddr proc2
    · -- the child has the alarm of its parent
      rw [hj, here] at on ⊢
      have early := alarms.early (k := cfg.procAddr proc1)
      rw [rpp_eq] at early
      exact early on
    · rw [others hj] at on ⊢
      exact alarms.early on

end Intact

theorem vacate_eq : s.vacate rc = { s with
    sigProcs := if Flag.pending ∈ (s.proc rc).flags then s.sigProcs - 1 else s.sigProcs }.update rc Proc.vacated := by
  unfold vacate
  split
  · rfl
  · rfl

/-- What `do_xit` has touched before it frees the slot. -/
structure Unlinked (s u : Kernel) : Prop where
  same : ∃ (b : Bool) (r : Places) (r' : SenderLinks), u = ({ s with switching := b }.place r).relink r'

namespace Intact

/-- **A slot is given back** when its process runs no longer and is in no queue of senders. -/
theorem vacate {P₁ : Mail} (h : Intact cfg s A P H) (alarms : Alarms s) (user : (s.proc rc).priority = .user)
    (off : (s.proc rc).alarm = 0) (manned : Manned cfg u B fun k => (s.proc k).flags = ∅ ∧ k ≠ rc) (unlinked : Unlinked s u)
    (posted : Posted cfg (u.vacate rc) P₁) (passes : Passes cfg P Post.nothing P₁) : Served cfg P (u.vacate rc) := by
  have notTask : (s.proc rc).priority ≠ .task := by
    rw [user]
    decide
  have inside : rc < cfg.endProcAddr := h.table.inside (by rw [user]; rfl)
  obtain ⟨b, r, r', rfl⟩ := unlinked.same
  rw [vacate_eq] at posted ⊢
  have sigProcs : (if Flag.pending ∈ ((({ s with switching := b }.place r).relink r').proc rc).flags then
      (({ s with switching := b }.place r).relink r').sigProcs - 1 else
      (({ s with switching := b }.place r).relink r').sigProcs) =
      if Flag.pending ∈ (s.proc rc).flags then s.sigProcs - 1 else s.sigProcs := rfl
  rw [sigProcs] at posted ⊢
  generalize hn : (if Flag.pending ∈ (s.proc rc).flags then s.sigProcs - 1 else s.sigProcs) = n at *
  -- the state before the slot is overwritten
  generalize hv : { (({ s with switching := b }.place r).relink r') with sigProcs := n } = v at *
  have flags (j : Nat) : (v.proc j).flags = (s.proc j).flags := by
    rw [← hv]
    rfl
  have priority (j : Nat) : (v.proc j).priority = (s.proc j).priority := by
    rw [← hv]
    rfl
  have alarm (j : Nat) : (v.proc j).alarm = (s.proc j).alarm := by
    rw [← hv]
    rfl
  have getfrom (j : Nat) : (v.proc j).getfrom = (s.proc j).getfrom := by
    rw [← hv]
    rfl
  have nextAlarm : v.nextAlarm = s.nextAlarm := by rw [← hv]; rfl
  have counted : v.sigProcs = n := by rw [← hv]
  have manned' : Manned cfg v B fun k => (s.proc k).flags = ∅ ∧ k ≠ rc := by
    subst hv
    exact manned.congr rfl (fun _ => rfl) rfl rfl rfl rfl fun _ _ => Iff.rfl
  have holds : Holds v H := by
    subst hv
    exact h.holds.stable ⟨fun _ => rfl, fun _ => rfl, fun _ => rfl, fun _ => rfl, rfl, rfl, rfl, rfl⟩
  have here : (v.update rc Proc.vacated).proc rc = (v.proc rc).vacated := update_proc_self
  have others {j : Nat} (hj : j ≠ rc) : (v.update rc Proc.vacated).proc j = v.proc j := update_proc_ne hj
  have left {j : Nat} {x : Flag} (hx : x ∈ ((v.update rc Proc.vacated).proc j).flags) : j ≠ rc ∧ x ∈ (s.proc j).flags := by
    have ne : j ≠ rc := by
      rintro rfl
      rw [here] at hx
      exact Finset.notMem_empty _ hx
    rw [others ne, flags] at hx
    exact ⟨ne, hx⟩
  have table : Table cfg (v.update rc Proc.vacated) := by
    have table : Table cfg v := h.table.of_flags priority fun j => by rw [flags]
    refine table.replace (.inl ((priority rc).trans user)) ⟨h.table.procs (.inr user), inside⟩ ?_ fun x hx => ?_
    · show Ppri.none ≠ .task ∧ Ppri.none ≠ .idle
      decide
    · exact absurd hx (Finset.notMem_empty x)
  have lines : Manned cfg (v.update rc Proc.vacated) B fun k => ((v.update rc Proc.vacated).proc k).flags = ∅ := by
    refine manned'.replace (fun q member => ?_) (fun both => ?_) (fun scheduled => ?_) fun j hj => ?_
    · have kind := manned'.lined.kind member
      rw [← kind] at member
      exact (manned'.members.1 member).1.2 rfl
    · exact absurd both.2 Bool.false_ne_true
    · exact absurd scheduled Bool.false_ne_true
    · rw [others hj, flags]
      simp [hj]
  have signals : Signals cfg (v.update rc Proc.vacated) := by
    refine ⟨?_, fun {j} pending => ?_⟩
    · have same : (v.update rc Proc.vacated).pendings cfg = (s.pendings cfg).erase rc := by
        ext j
        rw [Finset.mem_erase, mem_pendings, mem_pendings]
        constructor
        · rintro ⟨low, pending⟩
          exact ⟨(left pending).1, low, (left pending).2⟩
        · rintro ⟨ne, low, pending⟩
          refine ⟨low, ?_⟩
          rw [others ne, flags]
          exact pending
      rw [same]
      show v.sigProcs = _
      rw [counted, ← hn, h.signals.count]
      split
      · rename_i pending
        have member : rc ∈ s.pendings cfg := mem_pendings.2 ⟨inside, pending⟩
        have positive := Finset.card_pos.2 ⟨rc, member⟩
        rw [Finset.card_erase_of_mem member]
        omega
      · rename_i quiet
        rw [Finset.erase_eq_of_notMem]
        exact fun member => quiet (mem_pendings.1 member).2
    · obtain ⟨ne, old⟩ := left pending
      rw [others ne, flags]
      exact h.signals.held old
  have informed : Informed cfg (v.update rc Proc.vacated) := by
    intro receiving any
    obtain ⟨ne, old⟩ := left receiving
    rw [others ne, getfrom] at any
    have zero := h.informed old any
    show v.sigProcs = 0
    rw [counted, ← hn, if_neg ?_]
    · exact zero
    · intro pending
      have positive := Finset.card_pos.2 ⟨rc, mem_pendings.2 ⟨inside, pending⟩⟩
      have count := h.signals.count
      omega
  have held : (v.proc rc).intHeld = false := holds.free (by rw [priority]; exact notTask)
  refine ⟨⟨B, P₁, H, ⟨⟨⟨table, lines, posted⟩, signals, informed⟩, holds.replace (by rw [priority]; exact notTask) held⟩, passes⟩,
    fun {j} on => ?_, fun {j} on => ?_⟩
  · have still : (s.proc j).alarm ≠ 0 := by
      rw [← alarm]
      exact fun none => on ((update_field (f := Proc.vacated) Proc.alarm rfl j).trans none)
    have ne : j ≠ rc := by
      rintro rfl
      exact still off
    rw [others ne, priority]
    exact alarms.set still
  · rw [update_field Proc.alarm (by rfl), alarm] at on ⊢
    show v.nextAlarm ≤ _
    rw [nextAlarm]
    exact alarms.early on

/-- The times of a process that exits go to its parent, and its alarm is off. -/
theorem chargeParent (h : Intact cfg s A P H) (alarms : Alarms s) (rp rc : Nat) :
    Intact cfg (s.chargeParent rp rc) A P H ∧ Alarms (s.chargeParent rp rc) ∧ ((s.chargeParent rp rc).proc rc).alarm = 0 ∧
      ∀ k, ((s.chargeParent rp rc).proc k).priority = (s.proc k).priority := by
  unfold Kernel.chargeParent
  dsimp only
  generalize (s.proc rp).childUtime + ((s.proc rc).userTime + (s.proc rc).childUtime) = utime at *
  have first : Intact cfg (s.update rp fun p => { p with
      childUtime := p.childUtime + ((s.proc rc).userTime + (s.proc rc).childUtime) }) A P H :=
    h.update ⟨⟨rfl, rfl, rfl, rfl, rfl, Iff.rfl, Iff.rfl⟩, rfl, rfl, rfl, rfl, rfl⟩ rfl rfl
  have settled₁ : Settled s (s.update rp fun p => { p with
      childUtime := p.childUtime + ((s.proc rc).userTime + (s.proc rc).childUtime) }) := .update rfl rfl
  generalize (s.update rp fun p => { p with
      childUtime := p.childUtime + ((s.proc rc).userTime + (s.proc rc).childUtime) }) = s₁ at *
  have second : Intact cfg (s₁.update rp fun p => { p with
      childStime := p.childStime + ((s₁.proc rc).sysTime + (s₁.proc rc).childStime) }) A P H :=
    first.update ⟨⟨rfl, rfl, rfl, rfl, rfl, Iff.rfl, Iff.rfl⟩, rfl, rfl, rfl, rfl, rfl⟩ rfl rfl
  have settled₂ : Settled s (s₁.update rp fun p => { p with
      childStime := p.childStime + ((s₁.proc rc).sysTime + (s₁.proc rc).childStime) }) := settled₁.trans (.update rfl rfl)
  generalize (s₁.update rp fun p => { p with
      childStime := p.childStime + ((s₁.proc rc).sysTime + (s₁.proc rc).childStime) }) = s₂ at *
  have alarms₂ := alarms.settled settled₂
  have off : ((s₂.update rc fun p => { p with alarm := 0 }).proc rc).alarm = 0 := by rw [update_proc_self]
  have still {k : Nat} (on : ((s₂.update rc fun p => { p with alarm := 0 }).proc k).alarm ≠ 0) : k ≠ rc := by
    rintro rfl
    exact on off
  refine ⟨second.update ⟨⟨rfl, rfl, rfl, rfl, rfl, Iff.rfl, Iff.rfl⟩, rfl, rfl, rfl, rfl, rfl⟩ rfl rfl,
    ⟨fun {k} on => ?_, fun {k} on => ?_⟩, off, fun k => (update_field Proc.priority (by rfl) k).trans (settled₂.priority k)⟩
  · have ne := still on
    rw [update_proc_ne ne] at on ⊢
    exact alarms₂.set on
  · have ne := still on
    rw [update_proc_ne ne] at on ⊢
    exact alarms₂.early on

/-- **A process leaves** the queue of senders that it is in, and its slot is given back. -/
theorem depart (h : Intact cfg s A P H) (alarms : Alarms s) (user : (s.proc rc).priority = .user) (off : (s.proc rc).alarm = 0)
    {b : Bool} (manned : Manned cfg t B fun k => (s.proc k).flags = ∅ ∧ k ≠ rc) (requeued : Requeued { s with switching := b } t) :
    Returns (Served cfg P) (t.stopSending cfg rc >>= fun t => return t.vacate rc) := by
  obtain ⟨r, rfl⟩ := requeued
  -- what is left of the slot, whatever its place in the queues
  have rest (u : Kernel) (hu : ∃ r', u = ({ s with switching := b }.place r).relink r') :
      (∀ j, j ≠ rc → SameText (s.proc j) ((u.vacate rc).proc j)) ∧ ((u.vacate rc).proc rc).nr = (s.proc rc).nr ∧
        ((u.vacate rc).proc rc).messbuf = (s.proc rc).messbuf ∧ ((u.vacate rc).proc rc).flags = ∅ ∧
        ((u.vacate rc).proc rc).sendto = (s.proc rc).sendto := by
    obtain ⟨r', rfl⟩ := hu
    rw [vacate_eq]
    refine ⟨fun j hj => ?_, ?_⟩
    · rw [update_proc_ne hj]
      exact ⟨rfl, rfl, rfl, rfl, rfl, Iff.rfl, Iff.rfl⟩
    · rw [update_proc_self]
      exact ⟨rfl, rfl, rfl, rfl⟩
  have posted : Posted cfg ({ s with switching := b }.place r) P :=
    h.posted.congr (fun _ => ⟨rfl, rfl, rfl, rfl, rfl, Iff.rfl, Iff.rfl⟩) (fun _ => rfl) fun _ => rfl
  unfold stopSending
  by_cases sending : .sending ∈ (s.proc rc).flags
  · have there : .sending ∈ (({ s with switching := b }.place r).proc rc).flags := sending
    rw [if_pos there]
    refine (posted.queued.unlinkCaller posted.queue_short).bind ?_
    rintro u ⟨queued, relinked⟩
    obtain ⟨text, nr, messbuf, flags, -⟩ := rest u relinked
    -- the queue that it is in
    have target := h.posted.target sending
    have waits : s.awaits cfg rc = some (cfg.procAddr (s.proc rc).sendto) := awaits_of_sending sending
    obtain ⟨e, he, same⟩ := List.mem_map.1 (h.posted.sends.2 waits)
    obtain ⟨before, after, split⟩ := List.append_of_mem he
    obtain ⟨k, a⟩ := e
    obtain rfl : k = rc := same
    have lists : (fun d => if d ∈ List.range cfg.endProcAddr then ((P.queue d).map Prod.fst).erase k else (P.queue d).map Prod.fst) =
        Function.update (fun d => (P.queue d).map Prod.fst) (cfg.procAddr (s.proc k).sendto) ((before ++ after).map Prod.fst) := by
      have notBefore : k ∉ before.map Prod.fst := by
        have distinct : ((P.queue (cfg.procAddr (s.proc k).sendto)).map Prod.fst).Nodup := (h.posted.queued.listed _).nodup
        rw [split, List.map_append, List.map_cons, List.nodup_append] at distinct
        exact fun again => distinct.2.2 k again k List.mem_cons_self rfl
      funext d
      by_cases hd : d = cfg.procAddr (s.proc k).sendto
      · subst hd
        rw [Function.update_self, if_pos (List.mem_range.2 target.2), split, List.map_append, List.map_append, List.map_cons,
          List.erase_append_right _ notBefore, List.erase_cons_head]
      · have absent : k ∉ (P.queue d).map Prod.fst := by
          intro again
          exact hd (h.posted.queued.once again (List.mem_map_of_mem he))
        rw [Function.update_of_ne hd, List.erase_of_not_mem absent, ite_self]
    rw [lists] at queued
    have vacated : Queued (u.vacate k) (Function.update (fun d => (P.queue d).map Prod.fst) (cfg.procAddr (s.proc k).sendto)
        ((before ++ after).map Prod.fst)) := by
      have links : (u.vacate k).sendlinks = u.sendlinks := by
        rw [vacate_eq]
        exact funext (update_field Proc.sendlink (by rfl))
      refine ⟨fun d => ?_, queued.once⟩
      have head : ((u.vacate k).proc d).callerq = (u.proc d).callerq := by
        rw [vacate_eq]
        exact update_field Proc.callerq (by rfl) d
      rw [links, head]
      exact queued.listed d
    obtain ⟨passes, posted'⟩ := h.posted.leave split vacated text nr messbuf flags
    refine Ends.pure (h.vacate (B := B) alarms user off ?_ ⟨?_⟩ posted' passes)
    · obtain ⟨r', rfl⟩ := relinked
      exact manned.congr rfl (fun _ => rfl) rfl rfl rfl rfl fun _ _ => Iff.rfl
    · obtain ⟨r', rfl⟩ := relinked
      exact ⟨b, r, r', rfl⟩
  · have notThere : .sending ∉ (({ s with switching := b }.place r).proc rc).flags := sending
    rw [if_neg notThere]
    have relinked : Relinked ({ s with switching := b }.place r) ({ s with switching := b }.place r) := .refl _
    obtain ⟨text, nr, messbuf, flags, sendto⟩ := rest _ relinked
    have field {β : Type} (g : Proc → β) (kept : ∀ p, g (p.vacated) = g p)
        (place : ∀ j, g (({ s with switching := b }.place r).proc j) = g (s.proc j)) (j : Nat) :
        g ((({ s with switching := b }.place r).vacate rc).proc j) = g (s.proc j) := by
      rw [vacate_eq]
      exact (update_field (f := Proc.vacated) g (kept _) j).trans (place j)
    have posted' : Posted cfg (({ s with switching := b }.place r).vacate rc) (P.forget rc) := by
      refine h.posted.forget text (field Proc.callerq (fun _ => rfl) fun _ => rfl) (field Proc.sendlink (fun _ => rfl) fun _ => rfl)
        nr sendto messbuf ?_ ?_
      · rw [flags]
        exact iff_of_false (Finset.notMem_empty _) sending
      · rw [flags]
        exact Finset.notMem_empty _
    refine (Ends.ok (Q := fun u => ({ s with switching := b }.place r) = u) rfl).bind ?_
    rintro _ rfl
    obtain ⟨r', same⟩ := id relinked
    exact Ends.pure (h.vacate alarms user off manned ⟨b, r, r', same⟩ posted' (.forget .forget))

/-- **`do_xit`**: the slot of the process is free, and it is in no queue. -/
theorem xit {proc1 proc2 : Int} (h : Intact cfg s A P H) (alarms : Alarms s) (parent : (s.proc (cfg.procAddr proc1)).isUserp)
    (user : (s.proc (cfg.procAddr proc2)).isUserp) : Ends Fault.Overrun (Served cfg P) (s.doXit cfg proc1 proc2) := by
  unfold Kernel.doXit
  dsimp only
  rw [if_neg (by simp [parent]), if_neg (by simp [user])]
  obtain ⟨charged, alarms', off, priority⟩ := h.chargeParent alarms (cfg.procAddr proc1) (cfg.procAddr proc2)
  have isUser : ((s.chargeParent (cfg.procAddr proc1) (cfg.procAddr proc2)).proc (cfg.procAddr proc2)).priority = .user := by
    rw [priority]
    simpa [Proc.isUserp] using user
  refine Ends.bind charged.manned.stop ?_
  rintro t ⟨B, b, manned, requeued⟩
  exact .of_returns (charged.depart alarms' isUser off manned requeued)

theorem served (h : Intact cfg s A P H) (alarms : Alarms s) : Served cfg P s := ⟨⟨A, P, H, h, .refl P⟩, alarms⟩

/-- **`sys_task`**: a request that MM or FS may make keeps the kernel intact. -/
theorem sysTask {request : SysRequest} (h : Intact cfg s A P H) (alarms : Alarms s) (task : (s.proc s.procPtr).priority = .task)
    (proper : request.Proper cfg s) : Ends Fault.Overrun (fun r => Served cfg P r.2) (s.sysTask cfg request) := by
  have awake : (s.proc s.procPtr).flags = ∅ := h.toSound.running (by rw [task]; rfl)
  have system : s.InSystem := h.toSound.task_inSystem task awake
  have lowered {n : SysReply} {x : Flag} {t : Kernel} {rp : Nat} {A : Scheduler} {P : Mail} {H : List Nat}
      (intact : Intact cfg t A P H) (alarms : Alarms t)
      (system : t.InSystem) (asleep : (t.proc rp).flags ≠ ∅) (hs : x ≠ .sending) (hp : x ≠ .pending)
      (done : x = .sigPending → .pending ∉ (t.proc rp).flags) : Ends Fault.Overrun (fun r => Served cfg P r.2) (do
        let u ← t.lower rp x
        return (n, u)) := by
    refine .of_returns ((intact.lower system asleep hs hp done).bind ?_)
    rintro u ⟨advanced, settled⟩
    exact Ends.pure ⟨advanced, alarms.settled settled⟩
  cases request with
  | fork proc1 proc2 pid =>
    obtain ⟨⟨parent, open_, nobody⟩, low, high, empty, alone⟩ := proper
    exact .of_returns ((h.fork alarms parent open_ nobody low high empty alone).bind fun t served => Ends.pure served)
  | newmap proc1 mapped =>
    unfold Kernel.sysTask Kernel.doNewmap
    refine .ite (fun _ => Ends.ok (h.served alarms)) fun _ => ?_
    rw [if_neg (by simp [show mapped = true from proper])]
    by_cases asleep : (s.proc (cfg.procAddr proc1)).flags = ∅
    · simp only [asleep, ne_eq, not_true_eq_false, false_and, if_false]
      have same : ((s.proc (cfg.procAddr proc1)).lowered .noMap).flags = (s.proc (cfg.procAddr proc1)).flags := by
        show (s.proc (cfg.procAddr proc1)).flags.erase .noMap = _
        rw [asleep]
        rfl
      have intact : Intact cfg (s.update (cfg.procAddr proc1) (Proc.lowered .noMap)) A P H := by
        refine h.update ⟨⟨rfl, rfl, rfl, rfl, rfl, ?_, ?_⟩, rfl, same, rfl, rfl, rfl⟩ rfl rfl
        · rw [same]
        · rw [same]
      exact Ends.pure (intact.served (alarms.settled (.update rfl rfl)))
    · simp only [asleep, ne_eq, not_false_eq_true, true_and]
      have served := lowered (n := .OK) (x := .noMap) h alarms system asleep (by decide) (by decide) (fun no => by cases no)
      rw [lower_bind] at served
      exact served
  | exec proc1 traced known =>
    obtain ⟨user, receiving⟩ := proper
    have isUser : (s.proc (cfg.procAddr proc1)).priority = .user := by simpa [Proc.isUserp] using user
    unfold Kernel.sysTask
    dsimp only
    rw [doExec_eq, if_neg (by simp [user])]
    have other : cfg.procAddr proc1 ≠ cfg.procAddr MM_PROC_NR := by
      intro same
      have server := h.table.servers (n := MM_PROC_NR) rfl
      rw [← same, isUser] at server
      cases server
    -- a trap of the process may come first, and leaves it waiting
    refine Ends.bind (Q := fun t => (∃ B P' H', Intact cfg t B P' H' ∧ Passes cfg P Post.nothing P') ∧ Alarms t ∧ t.InSystem ∧
      .receiving ∈ (t.proc (cfg.procAddr proc1)).flags) ?_ ?_
    · refine .ite (fun _ => ?_) fun _ => Ends.ok ⟨⟨A, P, H, h, .refl P⟩, alarms, system, receiving⟩
      refine (h.toValid.causeSig (by rw [isUser]; rfl) (by rw [isUser]; decide)).imp ?_
      rintro t ⟨⟨B, P', valid, run, stable⟩, tasks, wait⟩
      refine ⟨⟨B, P', H, ⟨valid, h.holds.stable stable⟩, run⟩, alarms.settled stable.settled, ?_, wait _ other receiving⟩
      refine valid.toSound.task_inSystem ((stable.priority _).trans task) ?_
      have fewer := tasks _ task
      rw [awake] at fewer
      exact Finset.subset_empty.1 fewer
    · rintro t ⟨⟨B, P', H', intact, run⟩, alarms', system', receiving'⟩
      refine (lowered (x := .receiving) intact alarms' system' (Finset.ne_empty_of_mem receiving') (by decide) (by decide)
        (fun no => by cases no)).imp ?_
      rintro r ⟨advanced, alarms''⟩
      exact ⟨advanced.after run, alarms''⟩
  | xit proc1 proc2 => exact (h.xit alarms proper.1 proper.2).bind fun t served => Ends.pure served
  | kill pr known =>
    have user : (s.proc (cfg.procAddr pr)).isUserp := proper
    have isUser : (s.proc (cfg.procAddr pr)).priority = .user := by simpa [Proc.isUserp] using user
    unfold Kernel.sysTask Kernel.doKill
    dsimp only
    rw [if_neg (by simp [user])]
    refine (h.toValid.causeSig (by rw [isUser]; rfl) (by rw [isUser]; decide)).bind ?_
    rintro t ⟨⟨B, P', valid, run, stable⟩, -⟩
    exact Ends.pure ⟨⟨B, P', H, ⟨valid, h.holds.stable stable⟩, run⟩, alarms.settled stable.settled⟩
  | endsig proc1 finished =>
    unfold Kernel.sysTask Kernel.doEndsig
    refine .ite (fun _ => Ends.ok (h.served alarms)) fun present => ?_
    obtain ⟨user, held⟩ := proper.resolve_left present
    rw [if_neg (by simp [user])]
    refine .ite (fun _ => Ends.ok (h.served alarms)) fun last => ?_
    obtain ⟨pending, told⟩ := held (by simpa using last)
    have served := lowered (n := .OK) (x := .sigPending) h alarms system (Finset.ne_empty_of_mem pending) (by decide) (by decide)
      fun _ => told
    rw [lower_bind] at served
    exact served
  | trace procnr request =>
    unfold Kernel.sysTask Kernel.doTrace
    refine .ite (fun _ => Ends.ok (h.served alarms)) fun present => ?_
    obtain ⟨user, stopped⟩ := proper.resolve_left present
    have go (on : .pStop ∈ (s.proc (cfg.procAddr procnr)).flags) :=
      lowered (n := .OK) (x := .pStop) h alarms system (Finset.ne_empty_of_mem on) (by decide) (by decide) (fun no => by cases no)
    rw [lower_bind] at go
    cases request with
    | T_STOP =>
      refine (h.stop user).bind ?_
      rintro t halted
      obtain ⟨advanced, settled⟩ := halted
      exact Ends.pure ⟨advanced, alarms.settled settled⟩
    | T_RESUME => exact go (stopped (by decide))
    | T_STEP => exact go (stopped (by decide))
  | signon proc_nr priv mapped =>
    unfold Kernel.sysTask Kernel.doSignon
    refine .ite (fun _ => Ends.ok (h.served alarms)) fun permitted => ?_
    refine .ite (fun _ => Ends.ok (h.served alarms)) fun _ => ?_
    have user : (s.proc (cfg.procAddr proc_nr)).isUserp := by
      simp only [Bool.or_eq_true, Bool.not_eq_true', not_or, Bool.not_eq_false] at permitted
      exact permitted.2
    exact Ends.ok (h.signon alarms user proper)
  | getpri pid => exact Ends.ok (h.served alarms)
  | setpri pid priority =>
    unfold Kernel.sysTask doSetpri
    dsimp only
    cases s.findPid cfg pid with
    | none => exact Ends.ok (h.served alarms)
    | some tmp =>
      have intact : Intact cfg (s.update tmp fun p => { p with userPriority := admittedPriority priority }) A P H :=
        h.update ⟨⟨rfl, rfl, rfl, rfl, rfl, Iff.rfl, Iff.rfl⟩, rfl, rfl, rfl, rfl, rfl⟩ rfl rfl
      exact Ends.ok (intact.served (alarms.settled (.update rfl rfl)))

end Intact

end Kernel

end SoiExercises.Sched
