import SoiExercises.Lib.RoundRobin
import SoiExercises.Lib.Segment
import SoiExercises.Sched.Clock
import SoiExercises.Sched.Quantum

/-!
# Priorities are shares

A system whose user processes never block, with nothing to do but clock ticks, is a weighted round
robin of the user queue: a process of priority `p` holds the processor for `p + 2` quanta. During
the first, `prev_ptr` is another process, and its end only records the new one; each of the
`p + 1` others ends in a call of `sched`, the last of which rotates the queue. `Turn` describes the
kernel at a tick of a turn, and `Turn.tick` shows that a tick simulates the unit of service of
`SoiExercises.Lib.Next`.
-/

namespace SoiExercises.Sched

open SoiExercises.Lib

/-- The clock task's slot after `interrupt` has woken it. -/
def Proc.woken (p : Proc) : Proc :=
  { p with messbuf := ⟨HARDWARE, HARD_INT⟩, flags := ∅, intBlocked := false, nextready := none }

/-- The clock task's slot after it has blocked in `receive(ANY, &mc)`. -/
def Proc.waiting (p : Proc) : Proc := { p with getfrom := ANY, flags := {.receiving} }

/-- One more quantum. -/
def Proc.count (p : Proc) : Proc := { p with timeCounter := p.timeCounter + 1 }

namespace Kernel

variable {cfg : Config} {s t : Kernel} {f : Proc → Proc} {k : Nat}

/-- The user queue holds the user processes `queue`, in this order. -/
structure UserQueue (s : Kernel) (queue : List Nat) : Prop where
  linked : Listed s.links (s.rdyHead .userQ) queue
  tail : s.rdyTail .userQ = queue.getLast?
  users : ∀ k ∈ queue, (s.proc k).isUserp

/-- No server is ready, no alarm is set, no interrupt is being handled, and the clock task has no
messages but those of its handler. -/
structure Undisturbed (cfg : Config) (s : Kernel) : Prop where
  kReenter : s.kReenter = 0
  switching : s.switching = false
  serverQ : s.rdyHead .serverQ = none
  alarms : ∀ k, (s.proc k).alarm = 0
  isTask : (s.proc (cfg.procAddr CLOCK)).priority = .task
  stackOk : (s.proc (cfg.procAddr CLOCK)).stackOk
  number : (s.proc (cfg.procAddr CLOCK)).nr = CLOCK
  callerq : (s.proc (cfg.procAddr CLOCK)).callerq = none

/-- The clock task is blocked in `receive(ANY, &mc)` and no task is ready. -/
structure Asleep (cfg : Config) (s : Kernel) : Prop where
  taskQ : s.rdyHead .taskQ = none
  flags : (s.proc (cfg.procAddr CLOCK)).flags = {.receiving}
  getfrom : (s.proc (cfg.procAddr CLOCK)).getfrom = ANY

/-- The clock task runs on a tick, and no other task is ready. -/
structure Awake (cfg : Config) (s : Kernel) : Prop where
  taskQ : s.rdyHead .taskQ = some (cfg.procAddr CLOCK)
  procPtr : s.procPtr = cfg.procAddr CLOCK
  nextready : (s.proc (cfg.procAddr CLOCK)).nextready = none
  flags : (s.proc (cfg.procAddr CLOCK)).flags = ∅
  message : (s.proc (cfg.procAddr CLOCK)).messbuf.mType = HARD_INT
  intBlocked : (s.proc (cfg.procAddr CLOCK)).intBlocked = false

theorem Awake.of_eq (h : Awake cfg s)
    (clock : t.proc (cfg.procAddr CLOCK) = s.proc (cfg.procAddr CLOCK))
    (taskQ : t.rdyHead .taskQ = s.rdyHead .taskQ) (procPtr : t.procPtr = cfg.procAddr CLOCK) : Awake cfg t where
  taskQ := taskQ.trans h.taskQ
  procPtr := procPtr
  nextready := (congrArg Proc.nextready clock).trans h.nextready
  flags := (congrArg Proc.flags clock).trans h.flags
  message := (congrArg (fun p => p.messbuf.mType) clock).trans h.message
  intBlocked := (congrArg Proc.intBlocked clock).trans h.intBlocked

/-- The state after `interrupt(CLOCK)`. -/
def wake (cfg : Config) (s : Kernel) : Kernel :=
  { s.update (cfg.procAddr CLOCK) Proc.woken with
    procPtr := cfg.procAddr CLOCK
    rdyHead := Function.update s.rdyHead .taskQ (some (cfg.procAddr CLOCK))
    rdyTail := Function.update s.rdyTail .taskQ (some (cfg.procAddr CLOCK)) }

theorem interrupt_wakes (calm : Undisturbed cfg s) (asleep : Asleep cfg s) :
    s.interrupt cfg CLOCK = .ok (s.wake cfg) := by
  have runnable : ({.receiving} : Finset Flag).erase .receiving = ∅ := rfl
  unfold interrupt append linkLast
  simp [calm.kReenter, calm.switching, asleep.flags, asleep.getfrom, asleep.taskQ, isRxHardware,
    runnable, update, wake, Proc.woken, setHead, setTail, setNextready]

/-- The state after the clock task has blocked again and `head` has been picked. -/
def rest (cfg : Config) (head : Nat) (s : Kernel) : Kernel :=
  { s.update (cfg.procAddr CLOCK) Proc.waiting with
    procPtr := head
    billPtr := head
    rdyHead := Function.update s.rdyHead .taskQ none }

theorem miniRec_rests {hs : Handlers} {head : Nat} (calm : Undisturbed cfg s) (awake : Awake cfg s)
    (hhead : s.rdyHead .userQ = some head) :
    s.miniRec cfg hs (cfg.procAddr CLOCK) ANY = .ok (s.rest cfg head) := by
  have noSender : s.findSender ANY (cfg.endProcAddr + 1) none none = .ok none := rfl
  have notMm : CLOCK ≠ MM_PROC_NR := by decide
  unfold miniRec
  simp only [awake.flags, calm.callerq, noSender, awake.intBlocked]
  simp [blockReceiver, unready, unlink, pickProc, update, setHead, rest, Proc.waiting, Proc.isTaskp, calm.isTask,
    calm.stackOk, calm.number, calm.serverQ, awake.flags, awake.procPtr, awake.taskQ, awake.nextready,
    hhead, notMm]

theorem no_alarms {hs : Handlers} (alarms : ∀ k, (s.proc k).alarm = 0) (rps : List Nat) :
    rps.foldlM (checkAlarm hs) s = .ok s := by
  induction rps with
  | nil => rfl
  | cons rp rps ih =>
    rw [List.foldlM_cons]
    unfold checkAlarm
    rw [if_pos (alarms rp), ok_bind]
    exact ih

/-- The tick counted, after the next alarm has been computed as `v`. -/
def counted (s : Kernel) (v : Int) : Kernel := { s with nextAlarm := v, schedTicks := s.schedTicks - 1 }

/-- With no alarm set, `do_clocktick` counts the tick and ends the quantum when it was the last. -/
theorem doClocktick_counts (hs : Handlers) (alarms : ∀ k, (s.proc k).alarm = 0) :
    ∃ v, s.doClocktick cfg hs =
      if s.schedTicks - 1 = 0 then do
        let t ← if s.prevPtr = some s.billPtr then (s.counted v).lockSched cfg else .ok (s.counted v)
        return { t with schedTicks := cfg.SCHED_RATE, prevPtr := some t.billPtr }
      else .ok (s.counted v) := by
  unfold doClocktick
  split
  · refine ⟨LONG_MAX, ?_⟩
    rw [no_alarms (s := { s with nextAlarm := LONG_MAX }) alarms, ok_bind]
    rfl
  · exact ⟨s.nextAlarm, rfl⟩

/-- What the stages of a tick leave alone in every slot. -/
structure SameDuty (p p' : Proc) : Prop where
  priority : p'.priority = p.priority
  userPriority : p'.userPriority = p.userPriority
  alarm : p'.alarm = p.alarm
  stackOk : p'.stackOk = p.stackOk
  nr : p'.nr = p.nr
  callerq : p'.callerq = p.callerq

theorem SameDuty.trans {p p' p'' : Proc} (h : SameDuty p p') (h' : SameDuty p' p'') : SameDuty p p'' where
  priority := h'.priority.trans h.priority
  userPriority := h'.userPriority.trans h.userPriority
  alarm := h'.alarm.trans h.alarm
  stackOk := h'.stackOk.trans h.stackOk
  nr := h'.nr.trans h.nr
  callerq := h'.callerq.trans h.callerq

theorem SameDuty.refl {p : Proc} : SameDuty p p := ⟨rfl, rfl, rfl, rfl, rfl, rfl⟩

theorem update_sameDuty (h : SameDuty (s.proc k) (f (s.proc k))) (j : Nat) :
    SameDuty (s.proc j) ((s.update k f).proc j) := by
  by_cases hj : j = k
  · subst hj
    rw [update_proc_self]
    exact h
  · rw [update_proc_ne hj]
    exact .refl

theorem Undisturbed.congr (h : Undisturbed cfg s) (duty : ∀ k, SameDuty (s.proc k) (t.proc k))
    (serverQ : t.rdyHead .serverQ = s.rdyHead .serverQ) (kReenter : t.kReenter = s.kReenter)
    (switching : t.switching = s.switching) : Undisturbed cfg t where
  kReenter := kReenter.trans h.kReenter
  switching := switching.trans h.switching
  serverQ := serverQ.trans h.serverQ
  alarms := fun k => (duty k).alarm.trans (h.alarms k)
  isTask := (duty _).priority.trans h.isTask
  stackOk := (duty _).stackOk.trans h.stackOk
  number := (duty _).nr.trans h.number
  callerq := (duty _).callerq.trans h.callerq

theorem SameDuty.isUserp {p p' : Proc} (h : SameDuty p p') (user : p.isUserp) : p'.isUserp := by
  simpa [Proc.isUserp, h.priority] using user

/-- The user queue and its counters while the head is in its quantum number `quanta`. -/
structure Stage (cfg : Config) (priority : Nat → Nat) (queue : List Nat) (quanta : Nat) (s : Kernel) :
    Prop where
  calm : Undisturbed cfg s
  queued : UserQueue s queue
  several : 2 ≤ queue.length
  priorities : ∀ k ∈ queue, (s.proc k).userPriority = priority k
  counters : ∀ k ∈ queue,
    (s.proc k).timeCounter = if queue.head? = some k then ((quanta - 1 : Nat) : Int) else 0

namespace Stage

variable {priority : Nat → Nat} {queue l : List Nat} {quanta i : Nat}

theorem ne_clock (h : Stage cfg priority queue quanta s) {k : Nat} (hk : k ∈ queue) :
    k ≠ cfg.procAddr CLOCK := by
  rintro rfl
  have user := h.queued.users _ hk
  simp [Proc.isUserp, h.calm.isTask] at user

theorem nodup (h : Stage cfg priority queue quanta s) : queue.Nodup := h.queued.linked.nodup

theorem rdyHead (h : Stage cfg priority queue quanta s) : s.rdyHead .userQ = queue.head? :=
  Seg.head? h.queued.linked

/-- A change of the user queue and the counters only. -/
theorem renew {queue' : List Nat} {quanta' : Nat} (h : Stage cfg priority queue quanta s)
    (duty : ∀ k, SameDuty (s.proc k) (t.proc k)) (serverQ : t.rdyHead .serverQ = s.rdyHead .serverQ)
    (kReenter : t.kReenter = s.kReenter) (switching : t.switching = s.switching)
    (linked : Listed t.links (t.rdyHead .userQ) queue') (tail : t.rdyTail .userQ = queue'.getLast?)
    (perm : queue'.Perm queue) (counters : ∀ k ∈ queue, (t.proc k).timeCounter =
      if queue'.head? = some k then ((quanta' - 1 : Nat) : Int) else 0) :
    Stage cfg priority queue' quanta' t where
  calm := h.calm.congr duty serverQ kReenter switching
  queued := ⟨linked, tail, fun k hk => (duty k).isUserp (h.queued.users k (perm.mem_iff.1 hk))⟩
  several := perm.length_eq ▸ h.several
  priorities := fun k hk => (duty k).userPriority.trans (h.priorities k (perm.mem_iff.1 hk))
  counters := fun k hk => counters k (perm.mem_iff.1 hk)

/-- A stage reads nothing else of the state, and of the clock's slot not its link. -/
theorem congr (h : Stage cfg priority queue quanta s) (duty : ∀ k, SameDuty (s.proc k) (t.proc k))
    (counters : ∀ k, (t.proc k).timeCounter = (s.proc k).timeCounter)
    (links : ∀ k, k ≠ cfg.procAddr CLOCK → t.links k = s.links k)
    (userQ : t.rdyHead .userQ = s.rdyHead .userQ) (serverQ : t.rdyHead .serverQ = s.rdyHead .serverQ)
    (tail : t.rdyTail .userQ = s.rdyTail .userQ) (kReenter : t.kReenter = s.kReenter)
    (switching : t.switching = s.switching) : Stage cfg priority queue quanta t := by
  refine h.renew duty serverQ kReenter switching ?_ (tail.trans h.queued.tail) (.refl _) ?_
  · rw [userQ]
    exact h.queued.linked.congr fun k hk => links k (h.ne_clock hk)
  · exact fun k hk => (counters k).trans (h.counters k hk)

/-- A stage reads the slots, the queues and the interrupt state only. -/
theorem of_eq (h : Stage cfg priority queue quanta s) (proc : t.proc = s.proc)
    (rdyHead : t.rdyHead = s.rdyHead) (rdyTail : t.rdyTail = s.rdyTail)
    (kReenter : t.kReenter = s.kReenter) (switching : t.switching = s.switching) :
    Stage cfg priority queue quanta t := by
  refine h.congr (fun k => ?_) (fun k => ?_) (fun k _ => ?_) ?_ ?_ ?_ kReenter switching
  · rw [proc]
    exact .refl
  · rw [proc]
  · unfold links
    rw [proc]
  · rw [rdyHead]
  · rw [rdyHead]
  · rw [rdyTail]

theorem wake (h : Stage cfg priority queue quanta s) : Stage cfg priority queue quanta (s.wake cfg) := by
  have duty := update_sameDuty (s := s) (k := cfg.procAddr CLOCK) (f := Proc.woken)
    ⟨rfl, rfl, rfl, rfl, rfl, rfl⟩
  refine h.congr duty (update_field Proc.timeCounter rfl) ?_ ?_ ?_ ?_ rfl rfl
  · exact fun k hk => congrArg Proc.nextready (update_proc_ne hk)
  · simp [Kernel.wake]
  · simp [Kernel.wake]
  · simp [Kernel.wake]

theorem rest {head : Nat} (h : Stage cfg priority queue quanta s) :
    Stage cfg priority queue quanta (s.rest cfg head) := by
  have duty := update_sameDuty (s := s) (k := cfg.procAddr CLOCK) (f := Proc.waiting)
    ⟨rfl, rfl, rfl, rfl, rfl, rfl⟩
  refine h.congr duty (update_field Proc.timeCounter rfl) ?_ ?_ ?_ rfl rfl rfl
  · exact fun k hk => congrArg Proc.nextready (update_proc_ne hk)
  · simp [Kernel.rest]
  · simp [Kernel.rest]

theorem bill {rp : Nat} {ticks : Int} (h : Stage cfg priority queue quanta s) :
    Stage cfg priority queue quanta (s.bill cfg rp ticks) := by
  -- neither time is a field that a stage reads
  have charged {t : Kernel} {k : Nat} {f : Proc → Proc} (h : Stage cfg priority queue quanta t)
      (duty : ∀ p, SameDuty p (f p)) (counter : ∀ p, (f p).timeCounter = p.timeCounter)
      (link : ∀ p, (f p).nextready = p.nextready) : Stage cfg priority queue quanta (t.update k f) :=
    h.congr (update_sameDuty (duty _)) (update_field Proc.timeCounter (counter _))
      (fun j _ => update_field Proc.nextready (link _) j) rfl rfl rfl rfl rfl
  have user : Stage cfg priority queue quanta
      (s.update rp fun p => { p with userTime := p.userTime + ticks }) :=
    charged h (fun _ => ⟨rfl, rfl, rfl, rfl, rfl, rfl⟩) (fun _ => rfl) fun _ => rfl
  dsimp only [Kernel.bill]
  split
  · exact charged user (fun _ => ⟨rfl, rfl, rfl, rfl, rfl, rfl⟩) (fun _ => rfl) fun _ => rfl
  · exact user

theorem charge (h : Stage cfg priority queue quanta s) : Stage cfg priority queue quanta (s.charge cfg) := by
  have start : Stage cfg priority queue quanta { s with lostTicks := 0 } := h.of_eq rfl rfl rfl rfl rfl
  exact start.bill.of_eq rfl rfl rfl rfl rfl

/-- A call of `sched` below the priority counts the quantum. -/
theorem count (h : Stage cfg priority (i :: l) (quanta + 1) s) (below : quanta < priority i) :
    s.lockSched cfg = .ok (s.update i Proc.count) ∧
      Stage cfg priority (i :: l) (quanta + 2) (s.update i Proc.count) := by
  have counter : (s.proc i).timeCounter = quanta := by
    simpa using h.counters i List.mem_cons_self
  have limit := h.priorities i List.mem_cons_self
  constructor
  · have counted : { s with switching := true }.sched cfg =
        .ok ({ s with switching := true }.update i Proc.count) := by
      apply sched_tick
      · exact h.rdyHead
      · show (s.proc i).timeCounter ≠ (s.proc i).userPriority
        omega
    unfold lockSched
    rw [counted, ok_bind, ← h.calm.switching]
    rfl
  · refine h.renew (update_sameDuty ⟨rfl, rfl, rfl, rfl, rfl, rfl⟩) rfl rfl rfl ?_ h.queued.tail (.refl _) ?_
    · exact h.queued.linked.congr fun k _ => update_field Proc.nextready rfl k
    · intro k hk
      by_cases hki : k = i
      · subst hki
        rw [if_pos (show (k :: l).head? = some k from rfl), update_proc_self]
        show (s.proc k).timeCounter + 1 = ((quanta + 1 : Nat) : Int)
        omega
      · rw [update_proc_ne hki, h.counters k hk]
        have other : (i :: l).head? ≠ some k := by simpa using Ne.symm hki
        rw [if_neg other, if_neg other]

end Stage

/-- The queue after `sched` has moved `head` behind `last`; the clock task runs on. -/
def rotate (s : Kernel) (head last running : Nat) : Kernel :=
  let s := (s.update head Proc.reset).setNextready last (some head)
  { (((s.setTail .userQ (some head)).setHead .userQ (s.links head)).setNextready head none) with
    procPtr := running }

theorem sched_rotates {head last running : Nat} (hhead : s.rdyHead .userQ = some head)
    (htail : s.rdyTail .userQ = some last) (hrunning : s.rdyHead .taskQ = some running)
    (spent : (s.proc head).timeCounter = (s.proc head).userPriority) :
    s.sched cfg = .ok (s.rotate head last running) := by
  rw [sched_spent hhead htail spent]
  have tasks : (s.turn head last).rdyHead .taskQ = some running := hrunning
  unfold pickProc
  rw [tasks]
  rfl

theorem rotate_proc {head last running : Nat} : (s.rotate head last running).proc =
    (((s.update head Proc.reset).setNextready last (some head)).setNextready head none).proc := rfl

theorem links_rotate {head last running : Nat} : (s.rotate head last running).links =
    Function.update (Function.update s.links last (some head)) head none := by
  have reset : (s.update head Proc.reset).links = s.links := funext (update_field Proc.nextready rfl)
  have tail : ((s.update head Proc.reset).setNextready last (some head)).links =
      Function.update s.links last (some head) := by
    rw [links_setNextready, reset]
  rw [← tail]
  exact links_setNextready (s := (s.update head Proc.reset).setNextready last (some head))

theorem rotate_sameDuty {head last running : Nat} (k : Nat) :
    SameDuty (s.proc k) ((s.rotate head last running).proc k) := by
  have reset : SameDuty (s.proc k) ((s.update head Proc.reset).proc k) :=
    update_sameDuty ⟨rfl, rfl, rfl, rfl, rfl, rfl⟩ k
  have tail : SameDuty ((s.update head Proc.reset).proc k)
      (((s.update head Proc.reset).setNextready last (some head)).proc k) :=
    update_sameDuty ⟨rfl, rfl, rfl, rfl, rfl, rfl⟩ k
  rw [rotate_proc]
  exact (reset.trans tail).trans (update_sameDuty ⟨rfl, rfl, rfl, rfl, rfl, rfl⟩ k)

theorem rotate_proc_ne {head last running : Nat} (hhead : k ≠ head) (hlast : k ≠ last) :
    (s.rotate head last running).proc k = s.proc k := by
  rw [rotate_proc]
  exact (update_proc_ne hhead).trans ((update_proc_ne hlast).trans (update_proc_ne hhead))

theorem rotate_timeCounter {head last running : Nat} (k : Nat) :
    ((s.rotate head last running).proc k).timeCounter = if k = head then 0 else (s.proc k).timeCounter := by
  have tail : ((s.rotate head last running).proc k).timeCounter =
      ((s.update head Proc.reset).proc k).timeCounter := by
    rw [rotate_proc]
    exact (update_field Proc.timeCounter rfl k).trans (update_field Proc.timeCounter rfl k)
  rw [tail]
  split
  · subst k
    rw [update_proc_self]
    rfl
  · rename_i other
    rw [update_proc_ne other]

/-- The head that has used up its quanta goes behind the others, with its counter reset. -/
theorem Stage.rotate {priority : Nat → Nat} {i z : Nat} {l : List Nat}
    (h : Stage cfg priority (i :: (l ++ [z])) (priority i + 1) s) (awake : Awake cfg s) :
    s.lockSched cfg = .ok (s.rotate i z (cfg.procAddr CLOCK)) ∧
      Stage cfg priority (l ++ [z] ++ [i]) 0 (s.rotate i z (cfg.procAddr CLOCK)) := by
  have distinct : z ≠ i := by
    rintro rfl
    exact (List.nodup_cons.1 h.nodup).1 (List.mem_append_right l (List.mem_singleton_self z))
  have tail : s.rdyTail .userQ = some z := by
    rw [h.queued.tail, ← List.cons_append, List.getLast?_append]
    rfl
  have spent : (s.proc i).timeCounter = (s.proc i).userPriority := by
    rw [h.priorities i List.mem_cons_self]
    simpa using h.counters i List.mem_cons_self
  constructor
  · have rotated : { s with switching := true }.sched cfg =
        .ok ({ s with switching := true }.rotate i z (cfg.procAddr CLOCK)) :=
      sched_rotates h.rdyHead tail awake.taskQ spent
    unfold lockSched
    rw [rotated, ok_bind]
    show Except.ok { s.rotate i z (cfg.procAddr CLOCK) with switching := false } = _
    rw [← h.calm.switching]
    rfl
  · have next : (s.rotate i z (cfg.procAddr CLOCK)).rdyHead .userQ = s.links i := by
      show Function.update s.rdyHead .userQ
        (((s.update i Proc.reset).setNextready z (some i)).links i) .userQ = _
      rw [Function.update_self, links_setNextready, Function.update_of_ne distinct.symm]
      exact update_field Proc.nextready rfl i
    refine h.renew rotate_sameDuty ?_ rfl rfl ?_ ?_ ?_ ?_
    · rfl
    · rw [next, links_rotate]
      exact h.queued.linked.rotate
    · rw [List.getLast?_append]
      rfl
    · exact (List.perm_append_singleton i (l ++ [z]))
    · intro k hk
      rw [rotate_timeCounter]
      by_cases hki : k = i
      · rw [if_pos hki]
        split <;> rfl
      · have other : (i :: (l ++ [z])).head? ≠ some k := by simpa using Ne.symm hki
        rw [if_neg hki, h.counters k hk, if_neg other]
        split <;> rfl

/-- The head of `queue` is in its quantum number `quanta` and has had `ticks` ticks of it. -/
structure Numbers (cfg : Config) (priority : Nat → Nat) (queue : List Nat) (quanta ticks : Nat)
    (s : Kernel) : Prop where
  schedTicks : s.schedTicks + ticks = cfg.SCHED_RATE
  within : ticks < cfg.SCHED_RATE
  bound : ∀ i, queue.head? = some i → quanta < priority i + 2
  previous : s.prevPtr = queue.head? ↔ 1 ≤ quanta

theorem Numbers.of_eq {priority : Nat → Nat} {queue : List Nat} {quanta ticks : Nat}
    (h : Numbers cfg priority queue quanta ticks s) (schedTicks : t.schedTicks = s.schedTicks)
    (prevPtr : t.prevPtr = s.prevPtr) : Numbers cfg priority queue quanta ticks t where
  schedTicks := schedTicks ▸ h.schedTicks
  within := h.within
  bound := h.bound
  previous := prevPtr ▸ h.previous

/-- The kernel between two ticks. -/
structure Turn (cfg : Config) (priority : Nat → Nat) (queue : List Nat) (quanta ticks : Nat)
    (s : Kernel) : Prop where
  stage : Stage cfg priority queue quanta s
  numbers : Numbers cfg priority queue quanta ticks s
  asleep : Asleep cfg s
  procPtr : queue.head? = some s.procPtr
  billPtr : queue.head? = some s.billPtr

/-- The kernel while the clock task runs on a tick. -/
structure Working (cfg : Config) (priority : Nat → Nat) (queue : List Nat) (quanta ticks : Nat)
    (s : Kernel) : Prop where
  stage : Stage cfg priority queue quanta s
  numbers : Numbers cfg priority queue quanta ticks s
  awake : Awake cfg s

/-- Where a tick leads: to the next tick, the next quantum, or the turn of the next process. -/
inductive Following (cfg : Config) (priority : Nat → Nat) :
    List Nat → Nat → Nat → List Nat → Nat → Nat → Prop
  | tick {queue : List Nat} {quanta ticks : Nat} : ticks + 1 < cfg.SCHED_RATE →
      Following cfg priority queue quanta ticks queue quanta (ticks + 1)
  | quantum {i : Nat} {l : List Nat} {quanta ticks : Nat} : ticks + 1 = cfg.SCHED_RATE →
      quanta + 1 < priority i + 2 →
      Following cfg priority (i :: l) quanta ticks (i :: l) (quanta + 1) 0
  | turn {i : Nat} {l : List Nat} {quanta ticks : Nat} : ticks + 1 = cfg.SCHED_RATE →
      quanta + 1 = priority i + 2 →
      Following cfg priority (i :: l) quanta ticks (l ++ [i]) 0 0

section Tick

variable {priority : Nat → Nat} {queue l : List Nat} {quanta ticks i : Nat}

theorem Turn.head (h : Turn cfg priority queue quanta ticks s) :
    ∃ i l, queue = i :: l ∧ l ≠ [] ∧ s.procPtr = i ∧ s.billPtr = i := by
  have several := h.stage.several
  have running := h.procPtr
  have billed := h.billPtr
  match queue, several, running, billed with
  | i :: j :: l, _, running, billed =>
    exact ⟨i, j :: l, rfl, List.cons_ne_nil j l, (Option.some.inj running).symm, (Option.some.inj billed).symm⟩

/-- The clock task's last step: it blocks, and the head of the queue is picked. -/
theorem Working.rest (hs : Handlers) (h : Working cfg priority queue quanta ticks s) :
    ∃ t, s.miniRec cfg hs (cfg.procAddr CLOCK) ANY = .ok t ∧ Turn cfg priority queue quanta ticks t := by
  obtain ⟨head, hhead⟩ : ∃ head, queue.head? = some head := by
    have several := h.stage.several
    match queue, several with
    | i :: l, _ => exact ⟨i, rfl⟩
  have first := h.stage.rdyHead.trans hhead
  refine ⟨s.rest cfg head, miniRec_rests h.stage.calm h.awake first, h.stage.rest, ?_, ?_, hhead, hhead⟩
  · exact h.numbers.of_eq rfl rfl
  · constructor
    · show Function.update s.rdyHead .taskQ none .taskQ = none
      rw [Function.update_self]
    · exact congrArg Proc.flags update_proc_self
    · exact congrArg Proc.getfrom update_proc_self

theorem Stage.first (h : Stage cfg priority queue 0 s) : Stage cfg priority queue 1 s :=
  ⟨h.calm, h.queued, h.several, h.priorities, h.counters⟩

/-- The numbers when a quantum has ended. -/
theorem Numbers.restart (rate : 0 < cfg.SCHED_RATE) (bound : ∀ i, queue.head? = some i → quanta < priority i + 2)
    (previous : some t.billPtr = queue.head? ↔ 1 ≤ quanta) :
    Numbers cfg priority queue quanta 0 { t with schedTicks := cfg.SCHED_RATE, prevPtr := some t.billPtr } where
  schedTicks := by simp
  within := rate
  bound := bound
  previous := previous

theorem Numbers.rate (h : Numbers cfg priority queue quanta ticks s) : 0 < cfg.SCHED_RATE := by
  have within := h.within
  omega

/-- What `do_clocktick` does with a tick inside a quantum. -/
theorem Working.serve_tick (hs : Handlers) (h : Working cfg priority queue quanta ticks s)
    (inside : ticks + 1 < cfg.SCHED_RATE) :
    ∃ t, s.doClocktick cfg hs = .ok t ∧ Working cfg priority queue quanta (ticks + 1) t := by
  obtain ⟨v, served⟩ := doClocktick_counts hs h.stage.calm.alarms
  have schedTicks := h.numbers.schedTicks
  rw [if_neg (by omega)] at served
  refine ⟨_, served, h.stage.of_eq rfl rfl rfl rfl rfl, ?_, h.awake.of_eq rfl rfl h.awake.procPtr⟩
  refine ⟨?_, inside, h.numbers.bound, h.numbers.previous⟩
  show s.schedTicks - 1 + ((ticks + 1 : Nat) : Int) = _
  omega

/-- The end of a quantum that `prev_ptr` has not seen yet. -/
theorem Working.serve_first (hs : Handlers) (h : Working cfg priority (i :: l) 0 ticks s) (billed : s.billPtr = i)
    (ended : ticks + 1 = cfg.SCHED_RATE) :
    ∃ t, s.doClocktick cfg hs = .ok t ∧ Working cfg priority (i :: l) 1 0 t := by
  obtain ⟨v, served⟩ := doClocktick_counts hs h.stage.calm.alarms
  have schedTicks := h.numbers.schedTicks
  have other : s.prevPtr ≠ some s.billPtr := by
    rw [billed]
    exact fun same => absurd (h.numbers.previous.1 same) (by decide)
  rw [if_pos (by omega), if_neg other, ok_bind] at served
  refine ⟨_, served, h.stage.first.of_eq rfl rfl rfl rfl rfl, ?_, h.awake.of_eq rfl rfl h.awake.procPtr⟩
  refine .restart h.numbers.rate (fun k hk => by omega) ?_
  show some s.billPtr = some i ↔ _
  simp [billed]

/-- The end of a quantum that `sched` counts. -/
theorem Working.serve_count (hs : Handlers) (h : Working cfg priority (i :: l) (quanta + 1) ticks s)
    (billed : s.billPtr = i) (ended : ticks + 1 = cfg.SCHED_RATE) (below : quanta < priority i) :
    ∃ t, s.doClocktick cfg hs = .ok t ∧ Working cfg priority (i :: l) (quanta + 2) 0 t := by
  obtain ⟨v, served⟩ := doClocktick_counts hs h.stage.calm.alarms
  have schedTicks := h.numbers.schedTicks
  have same : s.prevPtr = some s.billPtr := by
    rw [billed]
    exact h.numbers.previous.2 (by omega)
  have stage : Stage cfg priority (i :: l) (quanta + 1) (s.counted v) := h.stage.of_eq rfl rfl rfl rfl rfl
  have notClock : i ≠ cfg.procAddr CLOCK := h.stage.ne_clock List.mem_cons_self
  obtain ⟨counted, stage⟩ := stage.count below
  rw [if_pos (by omega), if_pos same, counted, ok_bind] at served
  refine ⟨_, served, stage.of_eq rfl rfl rfl rfl rfl, ?_, ?_⟩
  · refine .restart h.numbers.rate (fun k hk => ?_) ?_
    · obtain rfl := Option.some.inj hk
      omega
    · show some s.billPtr = some i ↔ _
      simp [billed]
  · exact h.awake.of_eq (update_proc_ne notClock.symm) rfl h.awake.procPtr

/-- The end of the last quantum of a turn, at which `sched` rotates the queue. -/
theorem Working.serve_turn (hs : Handlers) (h : Working cfg priority (i :: l) (priority i + 1) ticks s)
    (billed : s.billPtr = i) (ended : ticks + 1 = cfg.SCHED_RATE) :
    ∃ t, s.doClocktick cfg hs = .ok t ∧ Working cfg priority (l ++ [i]) 0 0 t := by
  have schedTicks := h.numbers.schedTicks
  have same : s.prevPtr = some s.billPtr := by
    rw [billed]
    exact h.numbers.previous.2 (by omega)
  obtain ⟨l', z, rfl⟩ : ∃ l' z, l = l' ++ [z] := by
    have several := h.stage.several
    rcases List.eq_nil_or_concat l with rfl | ⟨l', z, rfl⟩
    · simp at several
    · exact ⟨l', z, List.concat_eq_append⟩
  obtain ⟨v, served⟩ := doClocktick_counts hs h.stage.calm.alarms
  have stage : Stage cfg priority (i :: (l' ++ [z])) (priority i + 1) (s.counted v) := h.stage.of_eq rfl rfl rfl rfl rfl
  have awake : Awake cfg (s.counted v) := h.awake.of_eq rfl rfl h.awake.procPtr
  have notClock : i ≠ cfg.procAddr CLOCK := h.stage.ne_clock List.mem_cons_self
  have lastNotClock : z ≠ cfg.procAddr CLOCK := h.stage.ne_clock (by simp)
  obtain ⟨rotated, stage⟩ := stage.rotate awake
  rw [if_pos (by omega), if_pos same, rotated, ok_bind] at served
  refine ⟨_, served, stage.of_eq rfl rfl rfl rfl rfl, ?_, ?_⟩
  · refine .restart h.numbers.rate (fun k hk => by omega) ?_
    -- the process that is billed is not the new head
    have fresh : i ∉ l' ++ [z] := (List.nodup_cons.1 h.stage.nodup).1
    have other : some i ≠ (l' ++ [z] ++ [i]).head? := by
      rw [List.head?_append_of_ne_nil _ (by simp)]
      exact fun same => fresh (List.mem_of_mem_head? same.symm)
    refine iff_of_false ?_ (by decide)
    show some s.billPtr ≠ _
    rw [billed]
    exact other
  · have clock : ((s.counted v).rotate i z (cfg.procAddr CLOCK)).proc (cfg.procAddr CLOCK) = _ :=
      rotate_proc_ne notClock.symm lastNotClock.symm
    exact awake.of_eq clock rfl rfl

/-- What `do_clocktick` does with a tick, in a quantum that `prev_ptr` has not seen yet, in one that
is counted, and in the last one. -/
theorem Working.serve (hs : Handlers) (h : Working cfg priority (i :: l) quanta ticks s)
    (billed : s.billPtr = i) :
    ∃ t queue' quanta' ticks', s.doClocktick cfg hs = .ok t ∧
      Following cfg priority (i :: l) quanta ticks queue' quanta' ticks' ∧
      Working cfg priority queue' quanta' ticks' t := by
  have within := h.numbers.within
  have bound := h.numbers.bound i rfl
  by_cases inside : ticks + 1 < cfg.SCHED_RATE
  · obtain ⟨t, served, working⟩ := h.serve_tick hs inside
    exact ⟨t, _, _, _, served, .tick inside, working⟩
  · have ended : ticks + 1 = cfg.SCHED_RATE := by omega
    cases quanta with
    | zero =>
      obtain ⟨t, served, working⟩ := h.serve_first hs billed ended
      exact ⟨t, _, _, _, served, .quantum ended (by omega), working⟩
    | succ quanta =>
      by_cases below : quanta < priority i
      · obtain ⟨t, served, working⟩ := h.serve_count hs billed ended below
        exact ⟨t, _, _, _, served, .quantum ended (by omega), working⟩
      · obtain rfl : quanta = priority i := by omega
        obtain ⟨t, served, working⟩ := h.serve_turn hs billed ended
        exact ⟨t, _, _, _, served, .turn ended rfl, working⟩

/-- One iteration of the clock task. -/
theorem Working.clockTask (hs : Handlers) (h : Working cfg priority (i :: l) quanta ticks s)
    (billed : s.billPtr = i) :
    ∃ t queue' quanta' ticks', s.clockTask cfg hs = .ok t ∧
      Following cfg priority (i :: l) quanta ticks queue' quanta' ticks' ∧
      Turn cfg priority queue' quanta' ticks' t := by
  have started : Working cfg priority (i :: l) quanta ticks
      { s with realtime := s.realtime + s.pendingTicks, pendingTicks := 0 } :=
    ⟨h.stage.of_eq rfl rfl rfl rfl rfl,
      h.numbers.of_eq rfl rfl,
      h.awake.of_eq rfl rfl h.awake.procPtr⟩
  obtain ⟨t, queue', quanta', ticks', served, following, working⟩ := started.serve hs billed
  obtain ⟨u, rested, turn⟩ := working.rest hs
  refine ⟨u, queue', quanta', ticks', ?_, following, turn⟩
  unfold Kernel.clockTask
  simp only [h.awake.message, if_true, served, ok_bind]
  exact rested

theorem Turn.charge (h : Turn cfg priority queue quanta ticks s) :
    Turn cfg priority queue quanta ticks (s.charge cfg) := by
  have stage := h.stage.charge
  have flags : ((s.charge cfg).proc (cfg.procAddr CLOCK)).flags = _ :=
    bill_field Proc.flags (fun _ _ => rfl) (fun _ _ => rfl) _
  have getfrom : ((s.charge cfg).proc (cfg.procAddr CLOCK)).getfrom = _ :=
    bill_field Proc.getfrom (fun _ _ => rfl) (fun _ _ => rfl) _
  obtain ⟨proc, charged⟩ := charge_eq cfg s
  rw [charged] at stage flags getfrom ⊢
  exact ⟨stage, h.numbers.of_eq rfl rfl,
    ⟨h.asleep.taskQ, flags.trans h.asleep.flags, getfrom.trans h.asleep.getfrom⟩, h.procPtr, h.billPtr⟩

theorem wake_awake : Awake cfg (s.wake cfg) := by
  constructor
  · exact Function.update_self Queue.taskQ _ s.rdyHead
  · rfl
  · exact congrArg Proc.nextready update_proc_self
  · exact congrArg Proc.flags update_proc_self
  · exact congrArg (fun p => p.messbuf.mType) update_proc_self
  · exact congrArg Proc.intBlocked update_proc_self

/-- A tick that `clock_handler` only counts. -/
theorem Turn.counts (h : Turn cfg priority (i :: l) quanta ticks s)
    (notDue : ¬ (s.schedTicks = 1 ∧ s.prevPtr = some s.billPtr ∧ s.rdyHead .userQ ≠ none)) :
    ∃ queue' quanta' ticks', Following cfg priority (i :: l) quanta ticks queue' quanta' ticks' ∧
      Turn cfg priority queue' quanta' ticks'
        (if s.schedTicks - 1 = 0 then { s with schedTicks := cfg.SCHED_RATE, prevPtr := some s.billPtr }
          else { s with schedTicks := s.schedTicks - 1 }) := by
  have schedTicks := h.numbers.schedTicks
  have within := h.numbers.within
  have billed : i = s.billPtr := Option.some.inj h.billPtr
  by_cases last : ticks + 1 < cfg.SCHED_RATE
  · rw [if_neg (by omega)]
    refine ⟨_, _, _, .tick last, h.stage.of_eq rfl rfl rfl rfl rfl, ?_, ?_, h.procPtr, h.billPtr⟩
    · refine ⟨?_, last, h.numbers.bound, h.numbers.previous⟩
      show s.schedTicks - 1 + ((ticks + 1 : Nat) : Int) = _
      omega
    · exact ⟨h.asleep.taskQ, h.asleep.flags, h.asleep.getfrom⟩
  · rw [if_pos (by omega)]
    have ended : ticks + 1 = cfg.SCHED_RATE := by omega
    have ready : s.rdyHead .userQ ≠ none := by
      rw [h.stage.rdyHead]
      exact Option.some_ne_none i
    -- the process is billed for the first time, or the call of `sched` would have been due
    have fresh : s.prevPtr ≠ some s.billPtr := fun same => notDue ⟨by omega, same, ready⟩
    obtain rfl : quanta = 0 := by
      by_contra counted
      apply fresh
      rw [← billed]
      exact h.numbers.previous.2 (by omega)
    refine ⟨_, _, _, .quantum ended (by omega), h.stage.first.of_eq rfl rfl rfl rfl rfl, ?_, ?_,
      h.procPtr, h.billPtr⟩
    · refine .restart h.numbers.rate (fun k _ => by omega) ?_
      show some s.billPtr = some i ↔ _
      simp [billed]
    · exact ⟨h.asleep.taskQ, h.asleep.flags, h.asleep.getfrom⟩

/-- **One tick** of the kernel takes the process whose turn it is to its next tick, its next quantum, or
the end of its turn, on whichever of the two paths the tick is served. -/
theorem Turn.tick (hs : Handlers) (h : Turn cfg priority queue quanta ticks s) :
    ∃ t queue' quanta' ticks', s.tick cfg hs = .ok t ∧
      Following cfg priority queue quanta ticks queue' quanta' ticks' ∧
      Turn cfg priority queue' quanta' ticks' t := by
  obtain ⟨i, l, rfl, -, running, billed⟩ := h.charge.head
  have charged := h.charge
  have notClock : i ≠ cfg.procAddr CLOCK := charged.stage.ne_clock List.mem_cons_self
  unfold Kernel.tick clockHandler
  dsimp only
  split
  · rw [interrupt_wakes charged.stage.calm charged.asleep, ok_bind,
      if_pos (show ((s.charge cfg).wake cfg).procPtr = cfg.procAddr CLOCK from rfl)]
    have woken : Working cfg priority (i :: l) quanta ticks ((s.charge cfg).wake cfg) :=
      ⟨charged.stage.wake, charged.numbers.of_eq rfl rfl, wake_awake⟩
    exact woken.clockTask hs billed
  · rename_i notDue
    obtain ⟨queue', quanta', ticks', following, turn⟩ := charged.counts fun due => notDue (.inr due)
    refine ⟨_, queue', quanta', ticks', ?_, following, turn⟩
    rw [ok_bind]
    have running' : ∀ t : Kernel, t.procPtr = i → t.procPtr ≠ cfg.procAddr CLOCK := fun t ht => ht ▸ notClock
    rw [if_neg]
    · rfl
    · apply running'
      split
      · exact running
      · exact running

end Tick

/-- The ticks of a whole turn. -/
def share (cfg : Config) (priority : Nat → Nat) (i : Nat) : Nat := (priority i + 2) * cfg.SCHED_RATE

/-- A tick, with the process that it interrupts and its number within that process's turn. Up to tick
`SCHED_RATE`, `prev_ptr` is another process; from there on it is the one that runs, and the counter is
the number of calls of `sched` so far. -/
def TickStep (cfg : Config) (hs : Handlers) (s : Kernel) (e : Nat × Nat) (t : Kernel) : Prop :=
  s.tick cfg hs = .ok t ∧ s.procPtr = e.1 ∧ s.billPtr = e.1 ∧
    (s.prevPtr = some e.1 ↔ cfg.SCHED_RATE ≤ e.2) ∧
    (s.proc e.1).timeCounter = ((e.2 / cfg.SCHED_RATE - 1 : Nat) : Int)

/-- The place of a round robin at which the kernel is. -/
def At (cfg : Config) (priority : Nat → Nat) (place : List Nat × Nat) (s : Kernel) : Prop :=
  ∃ quanta ticks, place.2 = quanta * cfg.SCHED_RATE + ticks ∧ Turn cfg priority place.1 quanta ticks s

/-- Following and the units of the round robin agree. -/
theorem Following.next {priority : Nat → Nat} {queue queue' queue'' : List Nat}
    {quanta ticks quanta' ticks' j : Nat} {e : Nat × Nat} (within : ticks < cfg.SCHED_RATE)
    (bound : ∀ i, queue.head? = some i → quanta < priority i + 2)
    (following : Following cfg priority queue quanta ticks queue' quanta' ticks')
    (next : Next (share cfg priority) (queue, quanta * cfg.SCHED_RATE + ticks) e (queue'', j)) :
    queue'' = queue' ∧ j = quanta' * cfg.SCHED_RATE + ticks' ∧ queue.head? = some e.1 ∧
      e.2 = quanta * cfg.SCHED_RATE + ticks := by
  cases next with
  | @more i l _ inside =>
    unfold share at inside
    refine ⟨?_, ?_, rfl, rfl⟩
    · cases following with
      | tick => rfl
      | quantum => rfl
      | turn ended last =>
        rw [← last, Nat.succ_mul] at inside
        omega
    · cases following with
      | tick => rfl
      | quantum ended =>
        rw [Nat.succ_mul]
        omega
      | turn ended last =>
        rw [← last, Nat.succ_mul] at inside
        omega
  | @last i l _ spent =>
    have := bound i rfl
    have whole : (quanta + 1) * cfg.SCHED_RATE ≤ (priority i + 2) * cfg.SCHED_RATE :=
      Nat.mul_le_mul_right _ this
    unfold share at spent
    rw [Nat.succ_mul] at whole
    cases following with
    | tick inside => omega
    | quantum ended more =>
      have longer : (quanta + 1 + 1) * cfg.SCHED_RATE ≤ (priority i + 2) * cfg.SCHED_RATE :=
        Nat.mul_le_mul_right _ more
      rw [Nat.succ_mul, Nat.succ_mul] at longer
      omega
    | turn => exact ⟨rfl, by simp, rfl, rfl⟩

/-- A tick simulates a unit of the round robin. -/
theorem At.tick {hs : Handlers} {priority : Nat → Nat} {place place' : List Nat × Nat} {e : Nat × Nat}
    (h : At cfg priority place s) (next : Next (share cfg priority) place e place') :
    ∃ t, TickStep cfg hs s e t ∧ At cfg priority place' t := by
  obtain ⟨queue, j⟩ := place
  obtain ⟨queue'', j'⟩ := place'
  obtain ⟨quanta, ticks, hj, turn⟩ := h
  obtain rfl : j = quanta * cfg.SCHED_RATE + ticks := hj
  obtain ⟨t, queue', quanta', ticks', ticked, following, turn'⟩ := turn.tick hs
  have within := turn.numbers.within
  obtain ⟨rfl, rfl, head, unit⟩ := following.next within turn.numbers.bound next
  obtain ⟨i, k⟩ := e
  obtain rfl : k = quanta * cfg.SCHED_RATE + ticks := unit
  have first : queue.head? = some i := head
  have quotient : (quanta * cfg.SCHED_RATE + ticks) / cfg.SCHED_RATE = quanta := by
    rw [Nat.mul_comm, Nat.mul_add_div (by omega), Nat.div_eq_of_lt within, Nat.add_zero]
  refine ⟨t, ⟨ticked, ?_, ?_, ?_, ?_⟩, quanta', ticks', rfl, turn'⟩
  · exact Option.some.inj (turn.procPtr.symm.trans first)
  · exact Option.some.inj (turn.billPtr.symm.trans first)
  · show s.prevPtr = some i ↔ _
    rw [← first, turn.numbers.previous]
    constructor
    · intro counted
      have : 1 * cfg.SCHED_RATE ≤ quanta * cfg.SCHED_RATE := Nat.mul_le_mul_right _ counted
      omega
    · intro later
      by_contra none
      obtain rfl : quanta = 0 := by omega
      omega
  · show (s.proc i).timeCounter = _
    rw [quotient, turn.stage.counters i (List.mem_of_mem_head? first), if_pos first]

/-- The head of the user queue has just been selected, and every process has its whole share before it. -/
structure RoundStart (cfg : Config) (queue : List Nat) (s : Kernel) : Prop where
  calm : Undisturbed cfg s
  asleep : Asleep cfg s
  queued : UserQueue s queue
  several : 2 ≤ queue.length
  counters : ∀ k ∈ queue, (s.proc k).timeCounter = 0
  priorities : ∀ k ∈ queue, 0 ≤ (s.proc k).userPriority
  procPtr : queue.head? = some s.procPtr
  billPtr : queue.head? = some s.billPtr
  prevPtr : s.prevPtr ≠ queue.head?
  schedTicks : s.schedTicks = cfg.SCHED_RATE

/-- **Priorities give an exact weighted round robin.** Driven by clock ticks, the processes run in queue
order, each for `(p + 2) * SCHED_RATE` consecutive ticks, and then everything is as it was. -/
theorem weighted_round_robin {hs : Handlers} {queue : List Nat} (start : RoundStart cfg queue s) :
    ∃ t, Run (TickStep cfg hs) s
        (queue.flatMap (turnOf fun i => ((s.proc i).userPriority.toNat + 2) * cfg.SCHED_RATE)) t ∧
      RoundStart cfg queue t ∧ ∀ k ∈ queue, (t.proc k).userPriority = (s.proc k).userPriority := by
  have rate := cfg.rate_pos
  have priorities : ∀ k ∈ queue, (s.proc k).userPriority = ((s.proc k).userPriority.toNat : Int) :=
    fun k hk => (Int.toNat_of_nonneg (start.priorities k hk)).symm
  have init : At cfg (fun k => (s.proc k).userPriority.toNat) (queue ++ [], 0) s := by
    refine ⟨0, 0, by simp, ?_, ?_, start.asleep, ?_, ?_⟩
    · rw [List.append_nil]
      refine ⟨start.calm, start.queued, start.several, priorities, fun k hk => ?_⟩
      rw [start.counters k hk]
      split <;> rfl
    · rw [List.append_nil]
      refine ⟨by simp [start.schedTicks], rate, fun i _ => by omega, ?_⟩
      exact iff_of_false start.prevPtr (by decide)
    · rw [List.append_nil]
      exact start.procPtr
    · rw [List.append_nil]
      exact start.billPtr
  have pos : ∀ i ∈ queue, 0 < share cfg (fun k => (s.proc k).userPriority.toNat) i :=
    fun i _ => Nat.mul_pos (by omega) rate
  have round : Run _ (queue ++ [], 0) _ ([] ++ queue, 0) := Next.round pos
  obtain ⟨t, run, quanta, ticks, place, turn⟩ :=
    Run.simulate (R := At cfg _) round init fun h next => At.tick h next
  have : quanta * cfg.SCHED_RATE = 0 ∧ ticks = 0 := by
    have place : 0 = quanta * cfg.SCHED_RATE + ticks := place
    omega
  obtain rfl : ticks = 0 := this.2
  obtain rfl : quanta = 0 := by
    rcases Nat.mul_eq_zero.1 this.1 with zero | none
    · exact zero
    · omega
  refine ⟨t, run, ?_, ?_⟩
  · refine ⟨turn.stage.calm, turn.asleep, turn.stage.queued, turn.stage.several, ?_, ?_, turn.procPtr,
      turn.billPtr, ?_, ?_⟩
    · intro k hk
      rw [turn.stage.counters k hk]
      split <;> rfl
    · intro k hk
      rw [turn.stage.priorities k hk]
      omega
    · exact fun same => absurd (turn.numbers.previous.1 same) (by decide)
    · have schedTicks := turn.numbers.schedTicks
      omega
  · exact fun k hk => (turn.stage.priorities k hk).trans (priorities k hk).symm

/-- Two processes, of priorities 10 and 0, and the clock task waiting. -/
def pair : Kernel :=
  { initAt 0 10 with
    proc := fun k =>
      if k = 5 then { Proc.unused with nr := CLOCK, priority := .task, flags := {.receiving}, getfrom := ANY }
      else if k = 10 then { Proc.unused with nr := 2, pid := 1, priority := .user, userPriority := 10, nextready := some 11 }
      else if k = 11 then { Proc.unused with nr := 3, pid := 2, priority := .user }
      else .unused
    rdyTail := Function.update (fun _ => none) .userQ (some 11)
    schedTicks := minix.SCHED_RATE
    prevPtr := some 11 }

theorem pair_start : RoundStart minix [10, 11] pair where
  calm := {
    kReenter := rfl
    switching := rfl
    serverQ := rfl
    alarms := fun k => by
      simp only [pair]
      split_ifs <;> rfl
    isTask := rfl
    stackOk := rfl
    number := rfl
    callerq := rfl }
  asleep := ⟨rfl, rfl, rfl⟩
  queued := ⟨⟨rfl, rfl, rfl⟩, rfl, by decide⟩
  several := by decide
  counters := by decide
  priorities := by decide
  procPtr := rfl
  billPtr := rfl
  prevPtr := by decide
  schedTicks := rfl

/-- In one round of the two, `init` has 72 ticks and the other process 12. -/
theorem weighted_round_robin_pair : ∃ t, Run (TickStep minix ⟨fun _ s => .ok s, .ok, .ok⟩) pair
      ([10, 11].flatMap (turnOf fun i => ((pair.proc i).userPriority.toNat + 2) * minix.SCHED_RATE)) t ∧
    RoundStart minix [10, 11] t ∧ ∀ k ∈ [10, 11], (t.proc k).userPriority = (pair.proc k).userPriority :=
  weighted_round_robin pair_start

end Kernel

end SoiExercises.Sched
