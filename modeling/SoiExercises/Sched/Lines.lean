import SoiExercises.Lib.Ending
import SoiExercises.Sched.Consistent
import SoiExercises.Sched.RoundRobin

/-!
# The ready queues are three lists

`Scheduler` is what the process-switching functions of `proc.c` are about: three lists of processes, the
one that runs and the one that is billed. A task or a server joins the end of its list, a user process the
front. `Lined s A` says that the links, heads and tails of the kernel are the lists of `A`, and for each of
`ready`, `unready`, `sched` and `pick_proc` a lemma says that it completes and does to the kernel what the
abstract function does to the lists. Nothing else of the kernel changes (`Requeued`).
-/

namespace SoiExercises.Sched

open SoiExercises.Lib

/-- The stack of a task is overrun. -/
def Fault.Overrun (e : Fault) : Prop := e = .panic "stack overrun by task"

structure Scheduler where
  line : Queue → List Nat
  running : Nat
  billed : Nat

namespace Scheduler

def setLine (A : Scheduler) (q : Queue) (l : List Nat) : Scheduler :=
  { A with line := Function.update A.line q l }

/-- The first of the most urgent line that is not empty. -/
def pick (cfg : Config) (A : Scheduler) : Scheduler :=
  match A.line .taskQ with
  | rp :: _ => { A with running := rp }
  | [] =>
    match A.line .serverQ with
    | rp :: _ => { A with running := rp }
    | [] =>
      match A.line .userQ with
      | rp :: _ => { A with running := rp, billed := rp }
      | [] => { A with running := cfg.procAddr IDLE, billed := cfg.procAddr IDLE }

/-- `rp` joins its line; a task that finds its line empty runs next. -/
def ready (A : Scheduler) (q : Queue) (rp : Nat) : Scheduler :=
  match q with
  | .taskQ =>
    { A.setLine .taskQ (A.line .taskQ ++ [rp]) with
      running := if A.line .taskQ = [] then rp else A.running }
  | .serverQ => A.setLine .serverQ (A.line .serverQ ++ [rp])
  | .userQ => A.setLine .userQ (rp :: A.line .userQ)

/-- `rp` leaves its line, if it is there; when it was the first, there may be a new choice. -/
def unready (cfg : Config) (A : Scheduler) (q : Queue) (pick : Bool) (rp : Nat) : Scheduler :=
  let B := A.setLine q ((A.line q).erase rp)
  if (A.line q).head? = some rp ∧ pick then B.pick cfg else B

/-- The first user process goes to the end. -/
def rotate (cfg : Config) (A : Scheduler) : Scheduler :=
  match A.line .userQ with
  | [] => A
  | rp :: l => (A.setLine .userQ (l ++ [rp])).pick cfg

variable {cfg : Config} {A : Scheduler} {q : Queue} {l : List Nat}

@[simp] theorem setLine_line_self : (A.setLine q l).line q = l := Function.update_self ..

theorem setLine_line_ne {q' : Queue} (h : q' ≠ q) : (A.setLine q l).line q' = A.line q' :=
  Function.update_of_ne h ..

@[simp] theorem pick_line : (A.pick cfg).line = A.line := by
  unfold pick
  repeat' split
  all_goals rfl

/-- The first task runs; and whoever runs is the first of its line, or is the idle process. -/
structure Current (cfg : Config) (kind : Nat → Queue) (A : Scheduler) : Prop where
  task : ∀ {rp}, (A.line .taskQ).head? = some rp → A.running = rp
  turn : A.running = cfg.procAddr IDLE ∨ (A.line (kind A.running)).head? = some A.running

variable {kind : Nat → Queue} {k rp : Nat}

/-- A choice gives the turn to the first of a line, whoever ran before. -/
theorem pick_current (kinds : ∀ q, ∀ k ∈ A.line q, kind k = q) : Current cfg kind (A.pick cfg) := by
  unfold pick
  cases task : A.line .taskQ with
  | cons rp l =>
    refine ⟨fun first => ?_, .inr ?_⟩
    · rw [show (A.line .taskQ).head? = some rp by rw [task]; rfl] at first
      exact Option.some.inj first
    · show (A.line (kind rp)).head? = some rp
      rw [kinds .taskQ rp (task ▸ List.mem_cons_self), task]
      rfl
  | nil =>
    have noTask {B : Scheduler} (same : B.line = A.line) {rp : Nat} : (B.line .taskQ).head? ≠ some rp := by
      rw [same, task]
      exact Option.some_ne_none rp |>.symm
    cases server : A.line .serverQ with
    | cons rp l =>
      refine ⟨fun first => absurd first (noTask rfl), .inr ?_⟩
      show (A.line (kind rp)).head? = some rp
      rw [kinds .serverQ rp (server ▸ List.mem_cons_self), server]
      rfl
    | nil =>
      cases user : A.line .userQ with
      | cons rp l =>
        refine ⟨fun first => absurd first (noTask rfl), .inr ?_⟩
        show (A.line (kind rp)).head? = some rp
        rw [kinds .userQ rp (user ▸ List.mem_cons_self), user]
        rfl
      | nil => exact ⟨fun first => absurd first (noTask rfl), .inl rfl⟩

theorem mem_ready {q' : Queue} : k ∈ (A.ready q rp).line q' ↔ k ∈ A.line q' ∨ q' = q ∧ k = rp := by
  have joined {l : List Nat} (members : k ∈ l ↔ k ∈ A.line q ∨ k = rp) :
      k ∈ (A.setLine q l).line q' ↔ k ∈ A.line q' ∨ q' = q ∧ k = rp := by
    by_cases same : q' = q
    · subst same
      rw [setLine_line_self, members]
      simp
    · rw [setLine_line_ne same]
      simp [same]
  cases q with
  | taskQ => exact joined (by simp)
  | serverQ => exact joined (by simp)
  | userQ => exact joined (by simp [or_comm])

theorem unready_line {pick : Bool} :
    (A.unready cfg q pick rp).line = (A.setLine q ((A.line q).erase rp)).line := by
  unfold unready
  dsimp only
  split
  · exact pick_line
  · rfl

theorem mem_unready {q' : Queue} {pick : Bool} (distinct : (A.line q).Nodup) :
    k ∈ (A.unready cfg q pick rp).line q' ↔ k ∈ A.line q' ∧ ¬ (q' = q ∧ k = rp) := by
  rw [unready_line]
  by_cases same : q' = q
  · subst same
    rw [setLine_line_self, distinct.mem_erase_iff]
    simp [and_comm]
  · rw [setLine_line_ne same]
    simp [same]

theorem mem_rotate {q' : Queue} : k ∈ (A.rotate cfg).line q' ↔ k ∈ A.line q' := by
  unfold rotate
  split
  · rfl
  · rename_i rp l line
    rw [pick_line]
    by_cases same : q' = .userQ
    · subst same
      rw [setLine_line_self, line]
      simp [or_comm]
    · rw [setLine_line_ne same]

/-- A process that becomes ready does not take the turn from the one that runs; a user process becomes
ready only while no user process runs. -/
theorem Current.ready (h : Current cfg kind A) (of_kind : kind rp = q) (kinds : ∀ q, ∀ k ∈ A.line q, kind k = q)
    (other : q = .userQ → kind A.running ≠ .userQ) : Current cfg kind (A.ready q rp) := by
  have behind {q' : Queue} (first : (A.line q').head? = some A.running) :
      (A.line q' ++ [rp]).head? = some A.running := by
    rw [List.head?_append, first]
    rfl
  cases q with
  | taskQ =>
    unfold Scheduler.ready
    dsimp only
    by_cases empty : A.line .taskQ = []
    · rw [if_pos empty, empty]
      refine ⟨fun {x} first => ?_, .inr ?_⟩
      · have first : ((A.setLine .taskQ [rp]).line .taskQ).head? = some x := first
        rw [setLine_line_self] at first
        exact Option.some.inj first
      · show ((A.setLine .taskQ [rp]).line (kind rp)).head? = some rp
        rw [of_kind, setLine_line_self]
        rfl
    · rw [if_neg empty]
      obtain ⟨x, l, line⟩ := List.exists_cons_of_ne_nil empty
      have runs : A.running = x := h.task (by rw [line]; rfl)
      have task : kind A.running = .taskQ := kinds .taskQ A.running (by rw [line, runs]; exact List.mem_cons_self)
      have first : ((A.setLine .taskQ (A.line .taskQ ++ [rp])).line .taskQ).head? = some A.running := by
        rw [setLine_line_self]
        exact behind (by rw [line, runs]; rfl)
      refine ⟨fun other => Option.some.inj (first.symm.trans other), .inr ?_⟩
      show ((A.setLine .taskQ (A.line .taskQ ++ [rp])).line (kind A.running)).head? = some A.running
      rw [task]
      exact first
  | serverQ =>
    refine ⟨fun first => h.task ?_, h.turn.imp_right fun first => ?_⟩
    · exact (congrArg List.head? (setLine_line_ne (by decide))).symm.trans first
    · show ((A.setLine .serverQ (A.line .serverQ ++ [rp])).line (kind A.running)).head? = some A.running
      by_cases server : kind A.running = .serverQ
      · rw [server] at first ⊢
        rw [setLine_line_self]
        exact behind first
      · rw [setLine_line_ne server]
        exact first
  | userQ =>
    refine ⟨fun first => h.task ?_, h.turn.imp_right fun first => ?_⟩
    · exact (congrArg List.head? (setLine_line_ne (by decide))).symm.trans first
    · exact (congrArg List.head? (setLine_line_ne (other rfl))).trans first

/-- A process that leaves its line leaves the turn where it is, or gives it to the next one. -/
theorem Current.unready (h : Current cfg kind A) (kinds : ∀ q, ∀ k ∈ A.line q, kind k = q) :
    Current cfg kind (A.unready cfg q (q ≠ .taskQ ∨ rp = A.running) rp) := by
  have kinds' (q' : Queue) : ∀ k ∈ (A.setLine q ((A.line q).erase rp)).line q', kind k = q' := by
    intro k hk
    by_cases same : q' = q
    · subst same
      rw [setLine_line_self] at hk
      exact kinds q' k (List.mem_of_mem_erase hk)
    · rw [setLine_line_ne same] at hk
      exact kinds q' k hk
  unfold Scheduler.unready
  dsimp only
  split
  · exact pick_current kinds'
  · rename_i stays
    -- the first of the line is another process
    have notFirst : (A.line q).head? ≠ some rp := by
      intro first
      refine stays ⟨first, ?_⟩
      by_cases task : q = .taskQ
      · subst task
        simp [h.task first]
      · simp [task]
    have heads (q' : Queue) : ((A.setLine q ((A.line q).erase rp)).line q').head? = (A.line q').head? := by
      by_cases same : q' = q
      · subst same
        rw [setLine_line_self]
        cases line : A.line q' with
        | nil => rfl
        | cons x l =>
          have ne : x ≠ rp := by
            rintro rfl
            exact notFirst (by rw [line]; rfl)
          rw [List.erase_cons_tail (by simpa using ne)]
          rfl
      · rw [setLine_line_ne same]
    refine ⟨fun first => h.task ((heads .taskQ).symm.trans first), h.turn.imp_right fun first => ?_⟩
    exact (heads _).trans first

theorem Current.rotate (h : Current cfg kind A) (kinds : ∀ q, ∀ k ∈ A.line q, kind k = q) :
    Current cfg kind (A.rotate cfg) := by
  unfold Scheduler.rotate
  split
  · exact h
  · rename_i rp l line
    refine pick_current fun q k hk => ?_
    by_cases same : q = .userQ
    · subst same
      rw [setLine_line_self] at hk
      apply kinds
      rw [line]
      simpa [or_comm] using hk
    · rw [setLine_line_ne same] at hk
      exact kinds q k hk

end Scheduler

/-- What the process-switching functions write. -/
structure Places where
  nextready : Nat → Option Nat
  timeCounter : Nat → Int
  rdyHead : Queue → Option Nat
  rdyTail : Queue → Option Nat
  procPtr : Nat
  billPtr : Nat

namespace Kernel

/-- Overwrite what the process-switching functions write. -/
def place (s : Kernel) (r : Places) : Kernel :=
  { s with
    proc := fun k => { s.proc k with nextready := r.nextready k, timeCounter := r.timeCounter k }
    rdyHead := r.rdyHead
    rdyTail := r.rdyTail
    procPtr := r.procPtr
    billPtr := r.billPtr }

/-- What the process-switching functions may overwrite, as it is. -/
def places (s : Kernel) : Places where
  nextready k := (s.proc k).nextready
  timeCounter k := (s.proc k).timeCounter
  rdyHead := s.rdyHead
  rdyTail := s.rdyTail
  procPtr := s.procPtr
  billPtr := s.billPtr

/-- Only the queues, the counters and the choice of the next process differ. -/
def Requeued (s t : Kernel) : Prop := ∃ r, t = s.place r

variable {cfg : Config} {s t u : Kernel} {A : Scheduler} {q : Queue} {k rp : Nat} {v : Option Nat} {l : List Nat}

namespace Requeued

theorem refl (s : Kernel) : Requeued s s := ⟨s.places, rfl⟩

theorem trans (h : Requeued s t) (h' : Requeued t u) : Requeued s u := by
  obtain ⟨r, rfl⟩ := h
  obtain ⟨r', rfl⟩ := h'
  exact ⟨r', rfl⟩

theorem setHead (h : Requeued s t) : Requeued s (t.setHead q v) :=
  h.trans ⟨{ t.places with rdyHead := Function.update t.rdyHead q v }, rfl⟩

theorem setTail (h : Requeued s t) : Requeued s (t.setTail q v) :=
  h.trans ⟨{ t.places with rdyTail := Function.update t.rdyTail q v }, rfl⟩

theorem procPtr (h : Requeued s t) : Requeued s { t with procPtr := k } :=
  h.trans ⟨{ t.places with procPtr := k }, rfl⟩

theorem setNextready (h : Requeued s t) : Requeued s (t.setNextready k v) := by
  refine h.trans ⟨{ t.places with nextready := Function.update t.links k v }, ?_⟩
  have proc : (t.setNextready k v).proc = fun j =>
      { t.proc j with nextready := Function.update t.links k v j, timeCounter := (t.proc j).timeCounter } := by
    funext j
    unfold Kernel.setNextready
    by_cases hj : j = k
    · subst hj
      rw [update_proc_self, Function.update_self]
    · rw [update_proc_ne hj, Function.update_of_ne hj]
      rfl
  show { t with proc := (t.setNextready k v).proc } = _
  rw [proc]
  rfl

theorem setTimeCounter {c : Int} (h : Requeued s t) : Requeued s (t.update k fun p => { p with timeCounter := c }) := by
  refine h.trans ⟨{ t.places with timeCounter := Function.update (fun j => (t.proc j).timeCounter) k c }, ?_⟩
  have proc : (t.update k fun p => { p with timeCounter := c }).proc = fun j =>
      { t.proc j with
        nextready := (t.proc j).nextready
        timeCounter := Function.update (fun j => (t.proc j).timeCounter) k c j } := by
    funext j
    by_cases hj : j = k
    · subst hj
      rw [update_proc_self, Function.update_self]
    · rw [update_proc_ne hj, Function.update_of_ne hj]
  show { t with proc := (t.update k fun p => { p with timeCounter := c }).proc } = _
  rw [proc]
  rfl

theorem pickProc (h : Requeued s t) (cfg : Config) : Requeued s (t.pickProc cfg) := by
  refine h.trans ?_
  unfold Kernel.pickProc
  split
  · exact ⟨{ t.places with procPtr := _ }, rfl⟩
  · split
    · exact ⟨{ t.places with procPtr := _ }, rfl⟩
    · split
      · exact ⟨{ t.places with procPtr := _, billPtr := _ }, rfl⟩
      · exact ⟨{ t.places with procPtr := _, billPtr := _ }, rfl⟩

end Requeued

/-- The ready queues of the kernel are the lines of `A`. -/
structure Lined (s : Kernel) (A : Scheduler) : Prop where
  listed : ∀ q, Listed s.links (s.rdyHead q) (A.line q)
  tail : ∀ {q k}, (A.line q).getLast? = some k → s.rdyTail q = some k
  kind : ∀ {q k}, k ∈ A.line q → (s.proc k).priority.queue = q
  procPtr : s.procPtr = A.running
  billPtr : s.billPtr = A.billed

namespace Lined

theorem head (h : Lined s A) (q : Queue) : s.rdyHead q = (A.line q).head? := (h.listed q).head?

/-- The queues are the same when the links of the processes that are queued are. -/
theorem of_eq (h : Lined s A) (links : ∀ q, ∀ k ∈ A.line q, t.links k = s.links k)
    (priority : ∀ q, ∀ k ∈ A.line q, (t.proc k).priority = (s.proc k).priority) (rdyHead : t.rdyHead = s.rdyHead)
    (rdyTail : t.rdyTail = s.rdyTail) (procPtr : t.procPtr = s.procPtr) (billPtr : t.billPtr = s.billPtr) :
    Lined t A where
  listed q := by
    rw [rdyHead]
    exact (h.listed q).congr (links q)
  tail last := by
    rw [rdyTail]
    exact h.tail last
  kind {q k} hk := by
    rw [priority q k hk]
    exact h.kind hk
  procPtr := procPtr.trans h.procPtr
  billPtr := billPtr.trans h.billPtr

/-- One queue is rewritten, and of the links only those of processes of its kind. -/
theorem rewrite (h : Lined s A) (listed : Listed t.links (t.rdyHead q) l)
    (tail : ∀ k, l.getLast? = some k → t.rdyTail q = some k) (kind : ∀ k ∈ l, (s.proc k).priority.queue = q)
    (rdyHead : ∀ q', q' ≠ q → t.rdyHead q' = s.rdyHead q') (rdyTail : ∀ q', q' ≠ q → t.rdyTail q' = s.rdyTail q')
    (others : ∀ k, (s.proc k).priority.queue ≠ q → t.links k = s.links k)
    (priority : ∀ k, (t.proc k).priority = (s.proc k).priority) (procPtr : t.procPtr = s.procPtr)
    (billPtr : t.billPtr = s.billPtr) : Lined t (A.setLine q l) where
  listed q' := by
    by_cases same : q' = q
    · subst same
      rw [Scheduler.setLine_line_self]
      exact listed
    · rw [Scheduler.setLine_line_ne same, rdyHead q' same]
      refine (h.listed q').congr fun k hk => others k ?_
      rw [h.kind hk]
      exact same
  tail {q' k} last := by
    by_cases same : q' = q
    · subst same
      rw [Scheduler.setLine_line_self] at last
      exact tail k last
    · rw [Scheduler.setLine_line_ne same] at last
      rw [rdyTail q' same]
      exact h.tail last
  kind {q' k} hk := by
    rw [priority]
    by_cases same : q' = q
    · subst same
      rw [Scheduler.setLine_line_self] at hk
      exact kind k hk
    · rw [Scheduler.setLine_line_ne same] at hk
      exact h.kind hk
  procPtr := procPtr.trans h.procPtr
  billPtr := billPtr.trans h.billPtr

/-- Another process runs. -/
theorem run (h : Lined s A) (k : Nat) : Lined { s with procPtr := k } { A with running := k } :=
  ⟨h.listed, h.tail, h.kind, rfl, h.billPtr⟩

theorem pickProc (h : Lined s A) : Lined (s.pickProc cfg) (A.pick cfg) := by
  have first (q : Queue) := h.head q
  unfold Kernel.pickProc Scheduler.pick
  rw [first, first, first]
  cases A.line .taskQ with
  | cons rp l => exact h.run rp
  | nil =>
    cases A.line .serverQ with
    | cons rp l => exact h.run rp
    | nil =>
      cases A.line .userQ with
      | cons rp l => exact ⟨h.listed, h.tail, h.kind, rfl, rfl⟩
      | nil => exact ⟨h.listed, h.tail, h.kind, rfl, rfl⟩

/-- Behind the last process of a task or server line. -/
theorem append (h : Lined s A) (kind : (s.proc rp).priority.queue = q) (system : q ≠ .userQ) (fresh : rp ∉ A.line q) :
    Returns (fun t => Lined t (A.ready q rp) ∧ Requeued s t) (s.append q rp) := by
  -- whatever the queue was, the line with `rp` behind it is written
  have joined {t : Kernel} (listed : Listed (Function.update t.links rp none) (t.rdyHead q) (A.line q ++ [rp]))
      (requeued : Requeued s t) (rdyHead : ∀ q', q' ≠ q → t.rdyHead q' = s.rdyHead q')
      (rdyTail : t.rdyTail = s.rdyTail) (others : ∀ k, (s.proc k).priority.queue ≠ q → t.links k = s.links k)
      (billPtr : t.billPtr = s.billPtr) :
      Lined ((t.setTail q (some rp)).setNextready rp none)
        { A.setLine q (A.line q ++ [rp]) with running := t.procPtr } := by
    have last : ∀ k, (A.line q ++ [rp]).getLast? = some k → (t.setTail q (some rp)).rdyTail q = some k := by
      intro k hk
      rw [List.getLast?_concat] at hk
      rw [setTail_rdyTail_self]
      exact hk
    have requeued' : Requeued s ((t.setTail q (some rp)).setNextready rp none) := requeued.setTail.setNextready
    have lined : Lined { (t.setTail q (some rp)).setNextready rp none with procPtr := s.procPtr }
        (A.setLine q (A.line q ++ [rp])) := by
      refine h.rewrite ?_ last ?_ rdyHead (fun q' hq => ?_) (fun k hk => ?_) (fun k => ?_) rfl billPtr
      · show Listed ((t.setTail q (some rp)).setNextready rp none).links (t.rdyHead q) _
        rw [links_setNextready]
        exact listed
      · intro k hk
        rcases List.mem_append.1 hk with old | new
        · exact h.kind old
        · obtain rfl := List.mem_singleton.1 new
          exact kind
      · exact (setTail_rdyTail_ne hq).trans (congrFun rdyTail q')
      · show ((t.setTail q (some rp)).setNextready rp none).links k = s.links k
        rw [links_setNextready, Function.update_of_ne]
        · exact others k hk
        · rintro rfl
          exact hk kind
      · obtain ⟨r, hr⟩ := requeued'
        show (((t.setTail q (some rp)).setNextready rp none).proc k).priority = _
        rw [hr]
        rfl
    exact lined.run t.procPtr
  unfold Kernel.append linkLast
  rw [h.head]
  cases empty : A.line q with
  | nil =>
    have listed : Listed (Function.update s.links rp none) ((s.setHead q (some rp)).rdyHead q) (A.line q ++ [rp]) := by
      rw [setHead_rdyHead_self, empty]
      exact ⟨rfl, seg_nil.2 (Function.update_self ..)⟩
    refine Ends.pure ⟨?_, Requeued.refl s |>.setHead.procPtr.setTail.setNextready⟩
    have lined := joined (t := { s.setHead q (some rp) with procPtr := if q = .taskQ then rp else s.procPtr }) listed
      (Requeued.refl s).setHead.procPtr (fun q' hq => setHead_rdyHead_ne hq) rfl (fun _ _ => rfl) rfl
    rw [h.procPtr] at lined ⊢
    cases q with
    | taskQ =>
      unfold Scheduler.ready
      rw [if_pos empty]
      exact lined
    | serverQ => exact lined
    | userQ => exact absurd rfl system
  | cons x l =>
    obtain ⟨before, last, split⟩ : ∃ before last, A.line q = before ++ [last] :=
      ⟨_, _, (List.dropLast_append_getLast (List.ne_nil_of_mem (empty ▸ List.mem_cons_self))).symm⟩
    have tail : s.rdyTail q = some last := by
      apply h.tail
      rw [split, List.getLast?_concat]
    have links : Listed s.links (s.rdyHead q) (before ++ [last]) := by
      rw [← split]
      exact h.listed q
    have apart : rp ∉ before ++ [last] := by
      rw [← split]
      exact fresh
    unfold setTailNextready
    rw [tail]
    refine Ends.pure ⟨?_, Requeued.refl s |>.setNextready.setTail.setNextready⟩
    have listed : Listed (Function.update (s.setNextready last (some rp)).links rp none) (s.rdyHead q)
        (A.line q ++ [rp]) := by
      rw [links_setNextready, split]
      exact links.snoc apart
    have lined := joined (t := s.setNextready last (some rp)) listed (Requeued.refl s).setNextready (fun _ _ => rfl) rfl
      (fun k hk => ?_) rfl
    · rw [show (s.setNextready last (some rp)).procPtr = A.running from h.procPtr] at lined
      cases q with
      | taskQ =>
        unfold Scheduler.ready
        rw [if_neg (by rw [empty]; exact List.cons_ne_nil x l)]
        exact lined
      | serverQ => exact lined
      | userQ => exact absurd rfl system
    · rw [links_setNextready, Function.update_of_ne]
      rintro rfl
      apply hk
      apply h.kind
      rw [split]
      exact List.mem_append_right before (List.mem_singleton_self k)

/-- `rp` joins its line. -/
theorem ready (h : Lined s A) (kind : (s.proc rp).priority.queue = q) (fresh : rp ∉ A.line q) :
    Returns (fun t => Lined t (A.ready q rp) ∧ Requeued s t) (s.ready rp) := by
  have isTask : (s.proc rp).isTaskp = decide (q = .taskQ) := by
    unfold Proc.isTaskp
    rw [← kind]
    cases (s.proc rp).priority <;> rfl
  have isServ : (s.proc rp).isServp = decide (q = .serverQ) := by
    unfold Proc.isServp
    rw [← kind]
    cases (s.proc rp).priority <;> rfl
  unfold Kernel.ready
  rw [isTask, isServ]
  cases q with
  | taskQ => exact h.append kind (by decide) fresh
  | serverQ => exact h.append kind (by decide) fresh
  | userQ =>
    -- the tail is written when the line is empty
    have front {t : Kernel} (same : Lined { t with rdyTail := s.rdyTail } A) (requeued : Requeued s t)
        (head : t.rdyHead = s.rdyHead)
        (tail : ∀ k, (rp :: A.line .userQ).getLast? = some k → t.rdyTail .userQ = some k)
        (rdyTail : ∀ q', q' ≠ .userQ → t.rdyTail q' = s.rdyTail q') (links : t.links = s.links) :
        Lined ((t.setNextready rp (t.rdyHead .userQ)).setHead .userQ (some rp)) (A.ready .userQ rp) ∧
          Requeued s ((t.setNextready rp (t.rdyHead .userQ)).setHead .userQ (some rp)) := by
      refine ⟨?_, requeued.setNextready.setHead⟩
      have requeued' : Requeued s (t.setNextready rp (t.rdyHead .userQ)) := requeued.setNextready
      refine h.rewrite ?_ tail ?_ (fun q' hq => ?_) rdyTail (fun k hk => ?_) (fun k => ?_) ?_ ?_
      · rw [setHead_rdyHead_self]
        refine ⟨rfl, ?_⟩
        show Seg (t.setNextready rp (t.rdyHead .userQ)).links ((t.setNextready rp (t.rdyHead .userQ)).links rp) _ _
        rw [links_setNextready, Function.update_self, links, head]
        exact (h.listed .userQ).update fresh
      · intro k hk
        rcases List.mem_cons.1 hk with rfl | old
        · exact kind
        · exact h.kind old
      · rw [setHead_rdyHead_ne hq]
        exact congrFun head q'
      · show (t.setNextready rp (t.rdyHead .userQ)).links k = s.links k
        rw [links_setNextready, links, Function.update_of_ne]
        rintro rfl
        exact hk kind
      · obtain ⟨r, hr⟩ := requeued'
        show ((t.setNextready rp (t.rdyHead .userQ)).proc k).priority = _
        rw [hr]
        rfl
      · exact same.procPtr.trans h.procPtr.symm
      · exact same.billPtr.trans h.billPtr.symm
    simp only [reduceCtorEq, decide_false, Bool.false_eq_true, if_false]
    apply Ends.ok
    have first := h.head .userQ
    split
    · rename_i none
      refine front (t := s.setTail .userQ (some rp)) h (Requeued.refl s).setTail rfl (fun k hk => ?_)
        (fun q' hq => setTail_rdyTail_ne hq) rfl
      rw [first, List.head?_eq_none_iff] at none
      rw [none] at hk
      rw [setTail_rdyTail_self]
      exact hk
    · rename_i some
      refine front h (Requeued.refl s) rfl (fun k hk => h.tail ?_) (fun _ _ => rfl) rfl
      rw [first] at some
      cases line : A.line .userQ with
      | nil =>
        rw [line] at some
        exact absurd rfl some
      | cons x l =>
        rw [line, List.getLast?_cons_cons] at hk
        exact hk

end Lined

/-- The search for the process before `rp` on a list that ends. -/
theorem findPrev_listed {xp fuel : Nat} (rp : Nat) (h : Listed s.links (some xp) (xp :: l)) (enough : (xp :: l).length ≤ fuel) :
    (rp ∉ l ∧ s.findPrev rp fuel xp = .ok none) ∨
      ∃ before x after, xp :: l = before ++ x :: rp :: after ∧ s.findPrev rp fuel xp = .ok (some x) := by
  induction fuel generalizing xp l with
  | zero => exact absurd enough (by simp)
  | succ fuel ih =>
    obtain ⟨-, rest⟩ := h
    have next : (s.proc xp).nextready = l.head? := rest.head?
    unfold findPrev
    rw [next]
    cases l with
    | nil => exact .inl ⟨List.not_mem_nil, rfl⟩
    | cons y l =>
      rw [List.head?_cons]
      by_cases hit : y = rp
      · subst hit
        exact .inr ⟨[], xp, l, rfl, if_pos rfl⟩
      · rw [if_neg (fun same => hit (Option.some.inj same))]
        obtain ⟨first, -⟩ := id rest
        rw [first] at rest
        rcases ih rest (Nat.le_of_succ_le_succ enough) with ⟨absent, none⟩ | ⟨before, x, after, split, found⟩
        · refine .inl ⟨fun again => ?_, none⟩
          rcases List.mem_cons.1 again with same | later
          · exact hit same.symm
          · exact absent later
        · exact .inr ⟨xp :: before, x, after, by rw [split, List.cons_append], found⟩

namespace Lined

/-- `rp` leaves its line. -/
theorem unlink (h : Lined s A) (kind : (s.proc rp).priority.queue = q) (short : (A.line q).length ≤ cfg.endProcAddr)
    (pick : Bool) :
    Returns (fun t => Lined t (A.unready cfg q pick rp) ∧ Requeued s t) (s.unlink cfg q pick rp) := by
  have listed := h.listed q
  unfold Kernel.unlink Scheduler.unready
  rw [h.head]
  cases line : A.line q with
  | nil =>
    refine Ends.ok ⟨?_, .refl s⟩
    have same : A.setLine q [] = A := by
      unfold Scheduler.setLine
      rw [← line, Function.update_eq_self]
    rw [if_neg (by simp), List.erase_nil, same]
    exact h
  | cons xp l =>
    rw [h.head, line] at listed
    rw [List.head?_cons]
    dsimp only
    by_cases first : xp = rp
    · subst first
      rw [if_pos rfl]
      obtain ⟨-, rest⟩ := id listed
      have lined : Lined (s.setHead q (s.proc xp).nextready) (A.setLine q l) := by
        refine h.rewrite ?_ (fun k hk => ?_) (fun k hk => ?_) (fun q' hq => setHead_rdyHead_ne hq) (fun _ _ => rfl)
          (fun _ _ => rfl) (fun _ => rfl) rfl rfl
        · rw [setHead_rdyHead_self]
          exact rest
        · apply h.tail
          rw [line]
          cases l with
          | nil => cases hk
          | cons y l => rwa [List.getLast?_cons_cons]
        · apply h.kind
          rw [line]
          exact List.mem_cons_of_mem xp hk
      rw [List.erase_cons_head]
      apply Ends.ok
      cases pick with
      | true =>
        rw [if_pos rfl, if_pos ⟨rfl, rfl⟩]
        exact ⟨lined.pickProc, (Requeued.refl s).setHead.pickProc cfg⟩
      | false =>
        rw [if_neg (by decide), if_neg (by simp)]
        exact ⟨lined, (Requeued.refl s).setHead⟩
    · have other : ¬ xp = rp := first
      rw [if_neg other, if_neg (fun both => other (Option.some.inj both.1))]
      rw [line] at short
      rcases findPrev_listed rp listed short with ⟨absent, none⟩ | ⟨before, x, after, split, found⟩
      · rw [none]
        have gone : rp ∉ xp :: l := fun again => (List.mem_cons.1 again).elim (fun same => other same.symm) absent
        have same : A.setLine q ((xp :: l).erase rp) = A := by
          unfold Scheduler.setLine
          rw [List.erase_of_not_mem gone, ← line, Function.update_eq_self]
        rw [same]
        exact Ends.pure ⟨h, .refl s⟩
      · rw [found]
        rw [split] at listed line
        have distinct : (before ++ x :: rp :: after).Nodup := listed.nodup
        have notBefore : rp ∉ before := fun again =>
          (List.nodup_append.1 distinct).2.2 rp again rp (List.mem_cons_of_mem x List.mem_cons_self) rfl
        have notFirst : x ≠ rp := fun same =>
          (List.nodup_cons.1 (List.nodup_append.1 distinct).2.1).1 (same ▸ List.mem_cons_self)
        have notAfter : rp ∉ after :=
          (List.nodup_cons.1 (List.nodup_cons.1 (List.nodup_append.1 distinct).2.1).2).1
        have erased : (xp :: l).erase rp = before ++ x :: after := by
          rw [split, List.erase_append_right _ notBefore, List.erase_cons_tail (by simpa using notFirst),
            List.erase_cons_head]
        have queued {k : Nat} (hk : k ∈ before ++ x :: after) : k ∈ A.line q := by
          rw [line]
          rw [List.mem_append, List.mem_cons] at hk ⊢
          exact hk.imp_right (Or.imp_right (List.mem_cons_of_mem rp))
        have cut : Listed (s.setNextready x (s.proc rp).nextready).links (s.rdyHead q) (before ++ x :: after) := by
          rw [links_setNextready, h.head, line]
          have removed := listed.remove
          rw [← split] at removed ⊢
          exact removed
        rw [erased]
        apply Ends.pure
        show Lined (if _ then _ else _) _ ∧ Requeued s (if _ then _ else _)
        have others {k : Nat} (hk : (s.proc k).priority.queue ≠ q) :
            (s.setNextready x (s.proc rp).nextready).links k = s.links k := by
          rw [links_setNextready, Function.update_of_ne]
          rintro rfl
          exact hk (h.kind (queued (by simp)))
        have requeued : Requeued s (s.setNextready x (s.proc rp).nextready) := (Requeued.refl s).setNextready
        have priority (k : Nat) : ((s.setNextready x (s.proc rp).nextready).proc k).priority = (s.proc k).priority := by
          obtain ⟨r, hr⟩ := requeued
          rw [hr]
          rfl
        split
        · rename_i last
          refine ⟨?_, requeued.setTail⟩
          refine h.rewrite cut (fun k hk => ?_) (fun k hk => h.kind (queued hk)) (fun _ _ => rfl)
            (fun q' hq => setTail_rdyTail_ne hq) (fun k hk => others hk) priority rfl rfl
          rw [setTail_rdyTail_self]
          -- the last process was `rp`, and nothing followed it
          have none_after : after = [] := by
            cases after with
            | nil => rfl
            | cons y after =>
              have tail := h.tail (q := q) (k := (y :: after).getLast (List.cons_ne_nil y after)) (by
                rw [line, List.getLast?_append]
                simp [List.getLast?_eq_some_getLast])
              have same : (s.setNextready x (s.proc rp).nextready).rdyTail q = s.rdyTail q := rfl
              rw [same, tail] at last
              exact absurd (Option.some.inj last ▸ List.getLast_mem _) notAfter
          rw [none_after, List.getLast?_concat] at hk
          exact hk
        · rename_i notLast
          refine ⟨?_, requeued⟩
          refine h.rewrite cut (fun k hk => ?_) (fun k hk => h.kind (queued hk)) (fun _ _ => rfl) (fun _ _ => rfl)
            (fun k hk => others hk) priority rfl rfl
          have stays : (before ++ x :: rp :: after).getLast? = (before ++ x :: after).getLast? := by
            cases after with
            | nil =>
              have tail := h.tail (q := q) (k := rp) (by rw [line]; simp)
              exact absurd tail notLast
            | cons y after => simp [List.getLast?_append, List.getLast?_cons_cons]
          apply h.tail
          rw [line, stays]
          exact hk

/-- A process leaves its line, unless it is a task whose stack is overrun. -/
theorem unready (h : Lined s A) (kind : (s.proc rp).priority.queue = q) (short : (A.line q).length ≤ cfg.endProcAddr) :
    Ends Fault.Overrun
      (fun t => Lined t (A.unready cfg q (q ≠ .taskQ ∨ rp = A.running) rp) ∧ Requeued s t) (s.unready cfg rp) := by
  have isTask : (s.proc rp).isTaskp = decide (q = .taskQ) := by
    unfold Proc.isTaskp
    rw [← kind]
    cases (s.proc rp).priority <;> rfl
  have isServ : (s.proc rp).isServp = decide (q = .serverQ) := by
    unfold Proc.isServp
    rw [← kind]
    cases (s.proc rp).priority <;> rfl
  unfold Kernel.unready
  rw [isTask, isServ, h.procPtr]
  cases q with
  | taskQ =>
    rw [if_pos (by decide)]
    refine .ite (fun _ => .of_returns ?_) fun _ => .error rfl
    simpa using h.unlink kind short (rp = A.running)
  | serverQ => exact .of_returns (by simpa using h.unlink kind short _)
  | userQ => exact .of_returns (by simpa using h.unlink kind short _)

/-- The end of a quantum: it is counted, or the first user process goes to the end of its line. -/
theorem sched (h : Lined s A) :
    Returns (fun t => ∃ B, (B = A ∨ B = A.rotate cfg) ∧ Lined t B ∧ Requeued s t) (s.sched cfg) := by
  unfold Kernel.sched
  rw [h.head]
  cases line : A.line .userQ with
  | nil => exact Ends.ok ⟨A, .inl rfl, h, .refl s⟩
  | cons x l =>
    dsimp only [List.head?_cons]
    split
    · refine Ends.ok ⟨A, .inl rfl, ?_, (Requeued.refl s).setTimeCounter⟩
      exact h.of_eq (fun _ k _ => update_field Proc.nextready (by rfl) k) (fun _ k _ => update_field Proc.priority (by rfl) k)
        rfl rfl rfl rfl
    · have reset : Requeued s (s.update x fun p => { p with timeCounter := 0 }) := (Requeued.refl s).setTimeCounter
      have links₀ : (s.update x fun p => { p with timeCounter := 0 }).links = s.links := by
        funext k
        exact update_field Proc.nextready (by rfl) k
      have listed := h.listed .userQ
      rw [line] at listed
      have kinds {k : Nat} (hk : k ∈ x :: l) : (s.proc k).priority.queue = .userQ := h.kind (line ▸ hk)
      have rotated : A.rotate cfg = (A.setLine .userQ (l ++ [x])).pick cfg := by
        unfold Scheduler.rotate
        rw [line]
      -- the state before `pick_proc`, given the last process of the line
      have turned {t : Kernel} (requeued : Requeued s t) (links : Listed t.links (t.rdyHead .userQ) (l ++ [x]))
          (tail : t.rdyTail .userQ = some x) (rdyHead : ∀ q', q' ≠ .userQ → t.rdyHead q' = s.rdyHead q')
          (rdyTail : ∀ q', q' ≠ .userQ → t.rdyTail q' = s.rdyTail q')
          (others : ∀ k, (s.proc k).priority.queue ≠ .userQ → t.links k = s.links k) (procPtr : t.procPtr = s.procPtr)
          (billPtr : t.billPtr = s.billPtr) :
          ∃ B, (B = A ∨ B = A.rotate cfg) ∧ Lined (t.pickProc cfg) B ∧ Requeued s (t.pickProc cfg) := by
        refine ⟨_, .inr rfl, ?_, requeued.pickProc cfg⟩
        rw [rotated]
        apply Lined.pickProc
        refine h.rewrite links (fun k hk => ?_) (fun k hk => kinds ?_) rdyHead rdyTail others (fun k => ?_) procPtr billPtr
        · rw [List.getLast?_concat] at hk
          rw [tail]
          exact hk
        · rw [List.mem_append, List.mem_singleton] at hk
          exact hk.elim (List.mem_cons_of_mem x) fun same => same ▸ List.mem_cons_self
        · obtain ⟨r, hr⟩ := requeued
          rw [hr]
          rfl
      obtain ⟨last, tail⟩ := Option.ne_none_iff_exists'.1 (mt List.getLast?_eq_none_iff.1 (List.cons_ne_nil x l))
      have head₀ : (s.update x fun p => { p with timeCounter := 0 }).rdyHead = s.rdyHead := rfl
      have tail₀ : (s.update x fun p => { p with timeCounter := 0 }).rdyTail = s.rdyTail := rfl
      have procPtr₀ : (s.update x fun p => { p with timeCounter := 0 }).procPtr = s.procPtr := rfl
      have billPtr₀ : (s.update x fun p => { p with timeCounter := 0 }).billPtr = s.billPtr := rfl
      generalize s.update x (fun p => { p with timeCounter := 0 }) = s₀ at reset links₀ head₀ tail₀ procPtr₀ billPtr₀ ⊢
      have written : s₀.rdyTail .userQ = some last := by
        rw [tail₀]
        exact h.tail (line ▸ tail)
      rw [setTailNextready_of written, ok_bind, setTailNextready_of (k := x), ok_bind]
      · apply Ends.pure
        have links : (s₀.setNextready last (some x)).links = Function.update s.links last (some x) := by
          rw [links_setNextready, links₀]
        have others {k : Nat} (hk : (s.proc k).priority.queue ≠ .userQ) {v v' : Option Nat} :
            Function.update (Function.update s.links last v) x v' k = s.links k := by
          rw [Function.update_of_ne, Function.update_of_ne]
          · rintro rfl
            exact hk (kinds (List.mem_of_getLast? tail))
          · rintro rfl
            exact hk (kinds List.mem_cons_self)
        refine turned (t := (((s₀.setNextready last (some x)).setTail .userQ (some x)).setHead .userQ
          ((s₀.setNextready last (some x)).links x)).setNextready x none) ?_ ?_ ?_ (fun q' hq => ?_) (fun q' hq => ?_)
          (fun k hk => ?_) procPtr₀ billPtr₀
        · exact reset.setNextready.setTail.setHead.setNextready
        · rw [links_setNextready]
          show Listed (Function.update (s₀.setNextready last (some x)).links x none)
            ((s₀.setHead .userQ ((s₀.setNextready last (some x)).links x)).rdyHead .userQ) _
          rw [setHead_rdyHead_self, links]
          rcases List.eq_nil_or_concat l with rfl | ⟨before, last', rfl⟩
          · -- the only user process stays
            have same : x = last := Option.some.inj tail
            rw [← same, Function.update_self]
            exact ⟨rfl, Function.update_self ..⟩
          · rw [List.concat_eq_append] at tail listed ⊢
            obtain rfl : last' = last := by
              rw [← List.cons_append, List.getLast?_concat] at tail
              exact Option.some.inj tail
            have first : x ≠ last' := by
              rintro rfl
              exact (List.nodup_cons.1 listed.nodup).1 (by simp)
            rw [Function.update_of_ne first]
            exact listed.rotate
        · exact setTail_rdyTail_self (s := s₀.setNextready last (some x)) (q := .userQ) (v := some x)
        · exact (setHead_rdyHead_ne hq).trans (congrFun head₀ q')
        · exact (setTail_rdyTail_ne (s := s₀.setNextready last (some x)) hq).trans (congrFun tail₀ q')
        · rw [links_setNextready]
          show Function.update (s₀.setNextready last (some x)).links x none k = s.links k
          rw [links]
          exact others hk
      · exact setTail_rdyTail_self (s := s₀.setNextready last (some x)) (q := .userQ) (v := some x)

end Lined

end Kernel

end SoiExercises.Sched
