import SoiExercises.Sched.Frame
import SoiExercises.Sched.Signals

/-!
# Traps and interrupts

`mini_rec`, `sys_call` and `interrupt` lead from a valid kernel to a valid kernel. A trap names a process
other than the caller as the receiver of a message: a process that sends to itself hangs the search for a
deadlock, which looks for a path that leads back to the caller.
-/

namespace SoiExercises.Sched

open SoiExercises.Lib

/-- The slot with an interrupt that was held back in its buffer. -/
def Proc.fetched (p : Proc) : Proc := { p with messbuf := ⟨HARDWARE, HARD_INT⟩, intBlocked := false }

/-- The slot of a task whose interrupt is held up. -/
def Proc.heldUp (p : Proc) : Proc := { p with intHeld := true }

/-- The slot with another link in the queue of held-up interrupts. -/
def Proc.heldBefore (p : Proc) (v : Option Nat) : Proc := { p with nextheld := v }

namespace Kernel

variable {cfg : Config} {s t u : Kernel} {A B : Scheduler} {P P' : Mail} {k j rp caller dest : Nat} {m : Message} {src : Int}

/-- A task or a server or a user process that has the turn is awake. -/
theorem Sound.running (h : Sound cfg s A P) (scheduled : (s.proc s.procPtr).priority.scheduled) :
    (s.proc s.procPtr).flags = ∅ := by
  rcases h.manned.current.turn with idle | first
  · rw [h.manned.lined.procPtr, idle, h.table.idle] at scheduled
    cases scheduled
  · rw [← h.manned.lined.procPtr] at first
    exact (h.manned.members.1 (List.mem_of_head? first)).1

/-- The slot of the hardware has no flag. -/
theorem Table.hardware_idle (h : Table cfg s) : (s.proc (cfg.procAddr HARDWARE)).flags = ∅ := by
  rw [Finset.eq_empty_iff_forall_notMem]
  intro x hx
  have scheduled := h.live hx
  rw [h.hardware] at scheduled
  cases scheduled

theorem hardware_number : ((cfg.procAddr HARDWARE : Nat) : Int) - cfg.NR_TASKS = HARDWARE := by
  have tasks := cfg.tasks
  unfold Config.procAddr HARDWARE
  omega

/-- A receive that accepts interrupts accepts the hardware. -/
theorem accepts_hardware (hardware : isRxHardware src) : cfg.accepts src (cfg.procAddr HARDWARE) := by
  unfold isRxHardware at hardware
  unfold Config.accepts
  rw [hardware_number]
  simpa using hardware


/-- The message that `sys_call` accepts, if it does. -/
def accepted (cfg : Config) (function : SysFunction) (caller : Nat) (srcDest : Int) (m : Message) (n : Reply) :
    Nat → Nat → List Int :=
  if function ≠ .receive ∧ n = .OK then Post.only caller (cfg.procAddr srcDest) m.mType else Post.nothing

namespace Valid

/-- The caller waits, and is told about a signal at once if it is MM. -/
theorem blockReceiver {hs : Handlers} (h : Valid cfg s A P) (told : ∀ s, hs.inform s = s.inform cfg)
    (awake : .receiving ∉ (s.proc caller).flags) (scheduled : (s.proc caller).priority.scheduled)
    (nobody : ∀ k ∈ (P.queue caller).map Prod.fst, ¬ cfg.accepts src k)
    (answer : .sending ∈ (s.proc caller).flags → src = (s.proc caller).sendto)
    (calm : .sending ∉ (s.proc caller).flags → isRxHardware src → (s.proc caller).intBlocked = false) :
    Ends Fault.Overrun (Carried cfg s P Post.nothing) (s.blockReceiver cfg hs caller src) := by
  rw [blockReceiver_eq]
  refine Ends.bind (h.toSound.awaitMessage awake scheduled nobody answer calm)
    fun t ⟨⟨B, sound⟩, step, steady, others, nr⟩ => ?_
  have signals : Signals cfg t := h.signals.steady steady
  have number : (t.proc caller).nr = caller - cfg.NR_TASKS := sound.posted.number caller
  have waits : .receiving ∈ (t.proc caller).flags ∧ (t.proc caller).getfrom = src :=
    sound.posted.waiting_some.1 (Function.update_self ..)
  refine .ite (fun ⟨_, isMM, any⟩ => ?_) fun quiet => ?_
  · have slot : cfg.procAddr MM_PROC_NR = caller := by
      unfold Config.procAddr
      omega
    rw [told]
    refine .of_returns ((sound.inform signals (slot ▸ waits.1) (slot ▸ waits.2.trans any)).imp
      fun u ⟨⟨C, P', valid, run, stable⟩, _⟩ => ?_)
    exact ⟨C, P', valid, (Post.Passes.wait step).silently run, steady.toStable.trans stable⟩
  · refine Ends.pure ⟨B, _, ⟨sound, signals, fun receiving any => ?_⟩, .wait step, steady.toStable⟩
    by_cases same : cfg.procAddr MM_PROC_NR = caller
    · have isMM : (t.proc caller).nr = MM_PROC_NR := by
        rw [number, ← same]
        unfold Config.procAddr MM_PROC_NR
        omega
      have count := signals.count
      rw [same, waits.2] at any
      by_contra pending
      exact quiet ⟨by omega, isMM, any⟩
    · rw [steady.sigProcs]
      exact h.informed ((others _ same).receiving.1 receiving) ((others _ same).getfrom ▸ any)

/-- **`mini_rec`**: the caller gets a message, or an interrupt that was held back, or waits. -/
theorem miniRec {hs : Handlers} (h : Valid cfg s A P) (told : ∀ s, hs.inform s = s.inform cfg)
    (scheduled : (s.proc caller).priority.scheduled)
    (state : (s.proc caller).flags = ∅ ∨ (s.proc caller).flags = {.sending} ∧ (s.proc caller).sendto = src)
    (turn : (s.proc caller).flags = ∅ → ∀ k, cfg.accepts src k → (s.proc k).priority.queue = .userQ → s.InSystem) :
    Ends Fault.Overrun (Carried cfg s P Post.nothing) (s.miniRec cfg hs caller src) := by
  have awake : .receiving ∉ (s.proc caller).flags := by
    rcases state with idle | ⟨sending, -⟩
    · simp [idle]
    · simp [sending]
  unfold Kernel.miniRec
  refine .ite (fun sending => ?_) fun free => ?_
  · -- the caller of a `BOTH` is blocked in the send, to whom it would answer
    have answer : (s.proc caller).sendto = src := by
      rcases state with idle | ⟨-, same⟩
      · simp [idle] at sending
      · exact same
    refine h.blockReceiver told awake scheduled (fun k hk ok => ?_) (fun _ => answer.symm) fun free => absurd sending free
    have back : s.awaits cfg k = some caller := h.posted.sends.1 hk
    have target := h.posted.target sending
    have there : s.awaits cfg caller = some k := by
      rw [awaits_of_sending sending, answer]
      rw [answer] at target
      have any := h.table.any
      unfold Config.accepts at ok
      unfold Config.procAddr Config.endProcAddr at target
      unfold Config.procAddr
      rcases ok with rfl | rfl
      · omega
      · congr 1
        omega
    exact h.posted.ending.ne_pair there back
  · have idle : (s.proc caller).flags = ∅ := by
      rcases state with idle | ⟨sending, -⟩
      · exact idle
      · simp [sending] at free
    have number (k : Nat) : (src = ANY ∨ src = (s.proc k).nr) ↔ cfg.accepts src k := by
      unfold Config.accepts
      rw [h.posted.number]
    rcases findSender_listed src none (h.posted.queued.listed caller)
      (Nat.lt_succ_of_le (h.posted.queue_short caller)) with ⟨before, sender, after, split, ok, earlier, found⟩ | ⟨nobody, found⟩
    · rw [found, ok_bind, Option.or_none]
      obtain ⟨first, rest, mail, rfl, tail⟩ := List.map_eq_append_iff.1 split
      obtain ⟨⟨sender', a⟩, last, rfl, rfl, rfl⟩ := List.map_eq_cons_iff.1 tail
      have taken := h.toSound.acceptFrom idle scheduled mail ((number sender').1 ok)
        (fun e he ok => earlier e.1 (List.mem_map_of_mem he) ((number e.1).2 ok)) (turn idle sender' ((number sender').1 ok))
      exact .of_returns (taken.imp fun t ⟨moved, waits⟩ => moved.carried h.signals h.informed waits)
    · rw [found, ok_bind]
      have nobody' (k : Nat) (hk : k ∈ (P.queue caller).map Prod.fst) : ¬ cfg.accepts src k := fun ok =>
        nobody k hk ((number k).2 ok)
      dsimp only
      by_cases hardware : isRxHardware src
      · cases blocked : (s.proc caller).intBlocked with
        | true =>
          simp only [hardware, Bool.and_true, if_true]
          obtain ⟨run, posted⟩ := h.posted.fetchInterrupt (a := HARD_INT) free awake nobody' (by simp [h.table.hardware_idle])
            (accepts_hardware hardware) fun counts => counts.1 rfl
          rw [hardware_number] at posted
          have sound : Sound cfg (s.update caller Proc.fetched) A _ :=
            ⟨h.table.update rfl fun x hx => .inl hx, h.manned.update rfl rfl fun k _ => by rw [update_field Proc.flags (by rfl)],
              posted⟩
          have moved : Moved cfg s P Post.nothing (s.update caller Proc.fetched) :=
            ⟨A, _, sound, run, .update (.update rfl rfl rfl rfl) fun _ _ _ => Iff.rfl⟩
          refine Ends.pure (moved.carried h.signals h.informed fun k receiving => ?_)
          rw [update_field Proc.flags (by rfl)] at receiving
          exact ⟨receiving, update_field Proc.getfrom (by rfl) k⟩
        | false =>
          simp only [Bool.false_and, Bool.false_eq_true, if_false]
          exact h.blockReceiver told awake scheduled nobody' (fun sending => absurd sending free) fun _ _ => blocked
      · simp only [hardware, Bool.and_false, Bool.false_eq_true, if_false]
        exact h.blockReceiver told awake scheduled nobody' (fun sending => absurd sending free) fun _ yes => absurd yes hardware

/-- **`sys_call`** -/
theorem sysCall {hs : Handlers} {function : SysFunction} {srcDest : Int} {mapped : Bool} (h : Valid cfg s A P)
    (told : ∀ s, hs.inform s = s.inform cfg)
    (caller : (s.proc s.procPtr).isTaskp ∨ (s.proc s.procPtr).isServp ∨ (s.proc s.procPtr).isUserp)
    (other : function ≠ .receive → cfg.procAddr srcDest ≠ s.procPtr) :
    Ends Fault.Overrun (fun r => Carried cfg s P (accepted cfg function s.procPtr srcDest m r.1) r.2)
      (s.sysCall cfg hs function srcDest m mapped) := by
  have scheduled : (s.proc s.procPtr).priority.scheduled := by
    simp only [Proc.isTaskp, Proc.isServp, Proc.isUserp, decide_eq_true_eq] at caller
    rcases caller with task | server | user
    · rw [task]; rfl
    · rw [server]; rfl
    · rw [user]; rfl
  have idle := h.toSound.running scheduled
  have system (notUser : (s.proc s.procPtr).isUserp = false) : s.InSystem := by
    simp only [Proc.isTaskp, Proc.isServp, Proc.isUserp, decide_eq_true_eq, decide_eq_false_iff_not] at caller notUser
    unfold InSystem
    rcases caller with task | server | user
    · rw [task]; decide
    · rw [server]; decide
    · exact absurd user notUser
  have refused (n : Reply) (hn : n ≠ .OK) :
      Ends Fault.Overrun (fun r => Carried cfg s P (accepted cfg function s.procPtr srcDest m r.1) r.2) (.ok (n, s)) := by
    refine Ends.ok ?_
    unfold accepted
    rw [if_neg fun both => hn both.2]
    exact .refl h
  unfold Kernel.sysCall
  dsimp only
  refine .ite (fun _ => refused _ (by decide)) fun okSrcDest => ?_
  refine .ite (fun _ => refused _ (by decide)) fun permitted => ?_
  have valid : 0 ≤ srcDest + cfg.NR_TASKS := by
    unfold Config.isOkSrcDest ANY at okSrcDest
    simp at okSrcDest
    omega
  have sent (other : cfg.procAddr srcDest ≠ s.procPtr) : Ends Fault.Overrun (Sound.Sent cfg s P s.procPtr srcDest m)
      (s.miniSend cfg s.procPtr srcDest m mapped) :=
    h.toSound.miniSend idle valid other (.inl scheduled) fun notUser _ => system notUser
  cases function with
  | send =>
    refine (sent (other (by decide))).imp fun r sent => ?_
    have carried := sent.moved.carried h.signals h.informed sent.waits
    unfold accepted
    simpa using carried
  | receive =>
    have notUser : (s.proc s.procPtr).isUserp = false := by
      by_contra user
      exact permitted (by simp [user])
    refine (h.miniRec told scheduled (.inl idle) fun _ _ _ _ => system notUser).bind fun t carried => Ends.pure ?_
    unfold accepted
    rw [if_neg fun both => both.1 rfl]
    exact carried
  | both =>
    refine Ends.bind (sent (other (by decide))) fun r sent => ?_
    obtain ⟨B, P', valid', run, stable⟩ := sent.moved.carried h.signals h.informed sent.waits
    have accepts : (if r.1 = .OK then Post.only s.procPtr (cfg.procAddr srcDest) m.mType else Post.nothing) =
        accepted cfg .both s.procPtr srcDest m r.1 := by simp [accepted]
    rw [accepts] at run
    refine .ite (fun _ => Ends.pure ⟨B, P', valid', run, stable⟩) fun ok => ?_
    have ok : r.1 = .OK := not_not.1 ok
    rw [ok] at run
    obtain ⟨permission, state⟩ := sent.ok ok
    have turn (awake : (r.2.proc s.procPtr).flags = ∅) (k : Nat) (takes : cfg.accepts srcDest k)
        (user : (r.2.proc k).priority.queue = .userQ) : r.2.InSystem := by
      cases kind : (s.proc s.procPtr).isUserp with
      | false =>
        rcases state with ⟨-, busy⟩ | ⟨sending, -⟩
        · exact busy (system kind)
        · rw [sending] at awake
          exact absurd awake (Finset.singleton_ne_empty _)
      | true =>
        -- a user process only gets an answer of a server
        have server := valid'.table.servers (permission kind)
        have slot : cfg.procAddr srcDest = k := by
          have notAny : srcDest ≠ ANY := by
            rintro rfl
            exact absurd (permission kind) (by decide)
          have number := takes.resolve_left notAny
          unfold Config.procAddr
          omega
        rw [slot] at server
        rw [server] at user
        cases user
    refine (valid'.miniRec told (by rw [stable.priority]; exact scheduled) (state.imp And.left id) turn).bind ?_
    rintro t ⟨C, P'', valid'', run', stable'⟩
    exact Ends.pure ⟨C, P'', valid'', run.rest run', stable.trans stable'⟩

end Valid

/-- The slot has the same part in scheduling, in messages and in signals. -/
structure SamePart (p p' : Proc) : Prop extends SameText p p' where
  priority : p'.priority = p.priority
  flags : p'.flags = p.flags
  callerq : p'.callerq = p.callerq
  sendlink : p'.sendlink = p.sendlink
  nextready : p'.nextready = p.nextready

/-- What is not scheduling, messages or signals has changed. -/
structure Aside (s t : Kernel) : Prop where
  proc : ∀ k, SamePart (s.proc k) (t.proc k)
  rdyHead : t.rdyHead = s.rdyHead
  rdyTail : t.rdyTail = s.rdyTail
  procPtr : t.procPtr = s.procPtr
  billPtr : t.billPtr = s.billPtr
  sigProcs : t.sigProcs = s.sigProcs

theorem Valid.aside (h : Valid cfg s A P) (same : Aside s t) : Valid cfg t A P where
  table := h.table.of_flags (fun k => (same.proc k).priority) fun k => by rw [(same.proc k).flags]
  manned := h.manned.congr (funext fun k => (same.proc k).nextready) (fun k => (same.proc k).priority) same.rdyHead
    same.rdyTail same.procPtr same.billPtr fun k _ => by rw [(same.proc k).flags]
  posted := h.posted.congr (fun k => (same.proc k).toSameText) (fun k => (same.proc k).callerq) fun k => (same.proc k).sendlink
  signals := by
    refine ⟨?_, fun {k} pending => ?_⟩
    · have pendings : t.pendings cfg = s.pendings cfg := by
        ext k
        rw [mem_pendings, mem_pendings, (same.proc k).flags]
      rw [same.sigProcs, pendings]
      exact h.signals.count
    · rw [(same.proc k).flags] at pending ⊢
      exact h.signals.held pending
  informed receiving any := by
    rw [same.sigProcs]
    exact h.informed ((same.proc _).receiving.1 receiving) ((same.proc _).getfrom ▸ any)

theorem SamePart.refl (p : Proc) : SamePart p p := ⟨.refl p, rfl, rfl, rfl, rfl, rfl⟩

theorem SamePart.heldUp (p : Proc) : SamePart p p.heldUp :=
  ⟨⟨rfl, rfl, rfl, rfl, rfl, Iff.rfl, Iff.rfl⟩, rfl, rfl, rfl, rfl, rfl⟩

theorem SamePart.heldBefore (v : Option Nat) (p : Proc) : SamePart p (p.heldBefore v) :=
  ⟨⟨rfl, rfl, rfl, rfl, rfl, Iff.rfl, Iff.rfl⟩, rfl, rfl, rfl, rfl, rfl⟩

namespace Aside

theorem refl (s : Kernel) : Aside s s :=
  ⟨fun k => .refl (s.proc k), rfl, rfl, rfl, rfl, rfl⟩

theorem trans (h : Aside s t) (h' : Aside t u) : Aside s u where
  proc k := ⟨(h.proc k).toSameText.trans (h'.proc k).toSameText, (h'.proc k).priority.trans (h.proc k).priority,
    (h'.proc k).flags.trans (h.proc k).flags, (h'.proc k).callerq.trans (h.proc k).callerq,
    (h'.proc k).sendlink.trans (h.proc k).sendlink, (h'.proc k).nextready.trans (h.proc k).nextready⟩
  rdyHead := h'.rdyHead.trans h.rdyHead
  rdyTail := h'.rdyTail.trans h.rdyTail
  procPtr := h'.procPtr.trans h.procPtr
  billPtr := h'.billPtr.trans h.billPtr
  sigProcs := h'.sigProcs.trans h.sigProcs

theorem update {f : Proc → Proc} (same : SamePart (s.proc k) (f (s.proc k))) : Aside s (s.update k f) := by
  refine ⟨fun j => ?_, rfl, rfl, rfl, rfl, rfl⟩
  by_cases hj : j = k
  · subst hj
    rw [update_proc_self]
    exact same
  · rw [update_proc_ne hj]
    exact .refl _

/-- Variables that nothing of this is about have changed. -/
theorem of_eq (proc : t.proc = s.proc) (rdyHead : t.rdyHead = s.rdyHead) (rdyTail : t.rdyTail = s.rdyTail)
    (procPtr : t.procPtr = s.procPtr) (billPtr : t.billPtr = s.billPtr) (sigProcs : t.sigProcs = s.sigProcs) : Aside s t :=
  ⟨fun k => by rw [proc]; exact .refl _, rdyHead, rdyTail, procPtr, billPtr, sigProcs⟩

end Aside

/-- Nobody's role or alarm has changed, nor the time. -/
structure Settled (s t : Kernel) : Prop where
  priority : ∀ k, (t.proc k).priority = (s.proc k).priority
  alarm : ∀ k, (t.proc k).alarm = (s.proc k).alarm
  realtime : t.realtime = s.realtime
  nextAlarm : t.nextAlarm = s.nextAlarm

theorem Settled.trans (h : Settled s t) (h' : Settled t u) : Settled s u where
  priority k := (h'.priority k).trans (h.priority k)
  alarm k := (h'.alarm k).trans (h.alarm k)
  realtime := h'.realtime.trans h.realtime
  nextAlarm := h'.nextAlarm.trans h.nextAlarm

theorem Settled.update {f : Proc → Proc} (priority : (f (s.proc k)).priority = (s.proc k).priority)
    (alarm : (f (s.proc k)).alarm = (s.proc k).alarm) : Settled s (s.update k f) :=
  ⟨update_field Proc.priority priority, update_field Proc.alarm alarm, rfl, rfl⟩

theorem Stable.settled (h : Stable s t) : Settled s t := ⟨h.priority, h.alarm, h.realtime, h.nextAlarm⟩

/-- The links of the queue of held-up interrupts. -/
def heldlinks (s : Kernel) (k : Nat) : Option Nat := (s.proc k).nextheld

/-- The tasks whose interrupts are held up, in order. -/
structure Holds (s : Kernel) (H : List Nat) : Prop where
  listed : Listed s.heldlinks s.heldHead H
  tail : ∀ {k}, H.getLast? = some k → s.heldTail = some k
  marked : ∀ {k}, k ∈ H ↔ (s.proc k).intHeld
  task : ∀ {k}, k ∈ H → (s.proc k).priority = .task

theorem heldlinks_heldBefore {v : Option Nat} : (s.update k fun p => p.heldBefore v).heldlinks = Function.update s.heldlinks k v := by
  funext j
  unfold heldlinks
  by_cases hj : j = k
  · subst hj
    rw [update_proc_self, Function.update_self]
    rfl
  · rw [update_proc_ne hj, Function.update_of_ne hj]

variable {H : List Nat}

theorem Holds.stable (h : Holds s H) (stable : Stable s t) : Holds t H where
  listed := by
    have links : t.heldlinks = s.heldlinks := funext stable.nextheld
    rw [links, stable.heldHead]
    exact h.listed
  tail last := by
    rw [stable.heldTail]
    exact h.tail last
  marked {k} := by
    rw [stable.intHeld]
    exact h.marked
  task {k} hk := (stable.priority k).trans (h.task hk)

theorem Holds.update {f : Proc → Proc} (h : Holds s H) (intHeld : (f (s.proc k)).intHeld = (s.proc k).intHeld)
    (nextheld : (f (s.proc k)).nextheld = (s.proc k).nextheld) (priority : (f (s.proc k)).priority = (s.proc k).priority) :
    Holds (s.update k f) H where
  listed := by
    have links : (s.update k f).heldlinks = s.heldlinks := funext (update_field Proc.nextheld nextheld)
    rw [links]
    exact h.listed
  tail last := h.tail last
  marked {j} := by
    rw [update_field Proc.intHeld intHeld]
    exact h.marked
  task {j} hj := (update_field Proc.priority priority j).trans (h.task hj)

theorem Holds.head (h : Holds s H) : s.heldHead = H.head? := h.listed.head?

/-- `hold` with an empty queue. -/
theorem hold_first (free : (s.proc rp).intHeld = false) (head : s.heldHead = none) :
    s.hold rp = .ok ({ s.update rp Proc.heldUp with heldHead := some rp, heldTail := some rp }.update rp fun p => p.heldBefore none) := by
  unfold hold
  rw [if_neg (by simp [free])]
  have empty : (s.update rp fun p => { p with intHeld := true }).heldHead = none := head
  dsimp only
  rw [empty]
  rfl

/-- `hold` behind the last of the queue. -/
theorem hold_next {first last : Nat} (free : (s.proc rp).intHeld = false) (head : s.heldHead = some first)
    (tail : s.heldTail = some last) :
    s.hold rp = .ok ({ (s.update rp Proc.heldUp).update last (fun p => p.heldBefore (some rp)) with heldTail := some rp }.update rp
      fun p => p.heldBefore none) := by
  unfold hold
  rw [if_neg (by simp [free])]
  have queued : (s.update rp fun p => { p with intHeld := true }).heldHead = some first := head
  have end_ : (s.update rp fun p => { p with intHeld := true }).heldTail = some last := tail
  dsimp only
  rw [queued]
  dsimp only
  rw [end_]
  rfl

/-- **`interrupt`, when it would compete**: the task joins the queue of held-up interrupts, if it is not in it. -/
theorem Holds.hold (h : Holds s H) (task : (s.proc rp).priority = .task) :
    Returns (fun t => Holds t (if rp ∈ H then H else H ++ [rp]) ∧ Aside s t ∧ Settled s t ∧ t.kReenter = s.kReenter ∧
      t.switching = s.switching) (s.hold rp) := by
  by_cases held : (s.proc rp).intHeld
  · unfold Kernel.hold
    rw [if_pos held, if_pos (h.marked.2 held)]
    exact Ends.ok ⟨h, .refl s, (Stable.refl s).settled, rfl, rfl⟩
  · have fresh : rp ∉ H := mt h.marked.1 held
    rw [if_neg fresh]
    -- whatever the queue was, `rp` is linked behind it
    have joined {u : Kernel} (listed : Listed (Function.update u.heldlinks rp none) u.heldHead (H ++ [rp]))
        (marked : ∀ k, (u.proc k).intHeld = ((s.update rp Proc.heldUp).proc k).intHeld)
        (aside : Aside (s.update rp Proc.heldUp) u) (settled : Settled (s.update rp Proc.heldUp) u)
        (modes : u.kReenter = s.kReenter ∧ u.switching = s.switching) :
        let t := { u with heldTail := some rp }.update rp fun p => p.heldBefore none
        Holds t (H ++ [rp]) ∧ Aside s t ∧ Settled s t ∧ t.kReenter = s.kReenter ∧ t.switching = s.switching := by
      have tailed : Aside u { u with heldTail := some rp } := .of_eq rfl rfl rfl rfl rfl rfl
      have settled' : Settled u { u with heldTail := some rp } := ⟨fun _ => rfl, fun _ => rfl, rfl, rfl⟩
      refine ⟨⟨?_, fun last => ?_, fun {k} => ?_, fun {k} hk => ?_⟩, ?_, ?_, modes⟩
      · rw [heldlinks_heldBefore]
        exact listed
      · rw [List.getLast?_concat] at last
        exact last
      · rw [update_field Proc.intHeld (by rfl)]
        show k ∈ H ++ [rp] ↔ (u.proc k).intHeld
        rw [marked, List.mem_append, List.mem_singleton, h.marked]
        by_cases hk : k = rp
        · subst hk
          rw [update_proc_self]
          simp [Proc.heldUp]
        · rw [update_proc_ne hk]
          simp [hk]
      · rw [update_field Proc.priority (by rfl)]
        refine ((settled.priority k).trans (update_field Proc.priority (by rfl) k)).trans ?_
        rcases List.mem_append.1 hk with old | new
        · exact h.task old
        · rw [List.mem_singleton.1 new]
          exact task
      · have first : Aside s (s.update rp Proc.heldUp) := .update (.heldUp _)
        exact ((first.trans aside).trans tailed).trans (.update (.heldBefore none _))
      · have first : Settled s (s.update rp Proc.heldUp) := .update rfl rfl
        exact ((first.trans settled).trans settled').trans (.update rfl rfl)
    have free : (s.proc rp).intHeld = false := by simpa using held
    have links : (s.update rp Proc.heldUp).heldlinks = s.heldlinks := funext (update_field Proc.nextheld (by rfl))
    rcases List.eq_nil_or_concat H with rfl | ⟨before, last, rfl⟩
    · rw [hold_first free h.head]
      exact Ends.ok (joined (u := { s.update rp Proc.heldUp with heldHead := some rp })
        ⟨rfl, seg_nil.2 (Function.update_self ..)⟩ (fun _ => rfl) (.of_eq rfl rfl rfl rfl rfl rfl)
        ⟨fun _ => rfl, fun _ => rfl, rfl, rfl⟩ ⟨rfl, rfl⟩)
    · rw [List.concat_eq_append] at *
      obtain ⟨first, head⟩ : ∃ first, s.heldHead = some first := by
        rw [h.head]
        cases before with
        | nil => exact ⟨last, rfl⟩
        | cons x before => exact ⟨x, rfl⟩
      rw [hold_next free head (h.tail (List.getLast?_concat ..))]
      refine Ends.ok (joined (u := (s.update rp Proc.heldUp).update last (fun p => p.heldBefore (some rp))) ?_
        (update_field Proc.intHeld (by rfl)) (.update (.heldBefore _ _)) (.update rfl rfl) ⟨rfl, rfl⟩)
      rw [heldlinks_heldBefore, links]
      exact h.listed.snoc fresh

/-- A valid kernel with its held-up interrupts. -/
structure Intact (cfg : Config) (s : Kernel) (A : Scheduler) (P : Mail) (H : List Nat) : Prop extends Valid cfg s A P where
  holds : Holds s H

/-- The kernel is intact again, and its messages have moved by the protocol. -/
def Advanced (cfg : Config) (P : Mail) (sent : Nat → Nat → List Int) (t : Kernel) : Prop :=
  ∃ B P' H, Intact cfg t B P' H ∧ Passes cfg P sent P'

/-- Nobody is blocked. -/
def NobodyBlocked (s t : Kernel) : Prop := ∀ k, (t.proc k).flags ⊆ (s.proc k).flags

theorem interrupt_waits {n : Int} (calm : ¬ (s.kReenter ≠ 0 ∨ s.switching)) (task : (s.proc (cfg.procAddr n)).isTaskp)
    (receiving : (s.proc (cfg.procAddr n)).flags = {.receiving}) (hardware : isRxHardware (s.proc (cfg.procAddr n)).getfrom)
    (unblocked : (s.proc (cfg.procAddr n)).intBlocked = false) (number : (s.proc (cfg.procAddr HARDWARE)).nr = HARDWARE) :
    s.interrupt cfg n = s.deliver (cfg.procAddr HARDWARE) (cfg.procAddr n) ⟨HARDWARE, HARD_INT⟩ := by
  unfold interrupt
  dsimp only
  rw [if_neg calm, if_neg (by simp [receiving, hardware])]
  have same : (s.update (cfg.procAddr n) fun p => { p with
      messbuf := ⟨HARDWARE, HARD_INT⟩, flags := p.flags.erase .receiving, intBlocked := false }) =
      s.update (cfg.procAddr n) fun p => p.received ⟨(s.proc (cfg.procAddr HARDWARE)).nr, HARD_INT⟩ := by
    unfold update
    rw [number]
    dsimp only [Proc.received]
    rw [unblocked]
  rw [same]
  have awake : ((s.update (cfg.procAddr n) fun p =>
      p.received ⟨(s.proc (cfg.procAddr HARDWARE)).nr, HARD_INT⟩).proc (cfg.procAddr n)).flags = ∅ := by
    rw [update_proc_self]
    show (s.proc (cfg.procAddr n)).flags.erase .receiving = ∅
    rw [receiving]
    rfl
  have still : ((s.update (cfg.procAddr n) fun p =>
      p.received ⟨(s.proc (cfg.procAddr HARDWARE)).nr, HARD_INT⟩).proc (cfg.procAddr n)).isTaskp := by
    rw [update_proc_self]
    exact task
  rw [deliver_eq]
  dsimp only
  rw [if_pos awake]
  unfold ready
  rw [if_pos still]

/-- The call of `interrupt` would compete with other functions that switch processes. -/
abbrev Competes (s : Kernel) : Prop := s.kReenter ≠ 0 ∨ s.switching

/-- **`interrupt`, when it would compete**: the task is held up. -/
theorem Intact.interrupt_held {n : Int} (h : Intact cfg s A P H) (competes : s.Competes)
    (task : (s.proc (cfg.procAddr n)).isTaskp) :
    Returns (fun t => Intact cfg t A P (if cfg.procAddr n ∈ H then H else H ++ [cfg.procAddr n]) ∧ Aside s t ∧ Settled s t ∧
      t.kReenter = s.kReenter ∧ t.switching = s.switching) (s.interrupt cfg n) := by
  have isTask : (s.proc (cfg.procAddr n)).priority = .task := by simpa [Proc.isTaskp] using task
  unfold Kernel.interrupt
  dsimp only
  rw [if_pos competes]
  refine (h.holds.hold isTask).imp ?_
  rintro t ⟨holds, aside, rest⟩
  exact ⟨⟨h.toValid.aside aside, holds⟩, aside, rest⟩

/-- An interrupt has come to the task: it has the message, or will find it when it receives next. -/
def Alerted (s : Kernel) (k : Nat) : Prop :=
  (s.proc k).intBlocked ∨ .receiving ∉ (s.proc k).flags ∧ (s.proc k).messbuf = ⟨HARDWARE, HARD_INT⟩

theorem Alerted.congr (h : s.Alerted k) (intBlocked : (t.proc k).intBlocked = (s.proc k).intBlocked)
    (flags : (t.proc k).flags = (s.proc k).flags) (messbuf : (t.proc k).messbuf = (s.proc k).messbuf) : t.Alerted k := by
  unfold Alerted
  rw [intBlocked, flags, messbuf]
  exact h

/-- Interrupts of other tasks and messages to other processes do not look at the slot. -/
theorem frame_alerted : Frame fun p p' => p'.intBlocked = p.intBlocked ∧ p'.flags = p.flags ∧ p'.messbuf = p.messbuf where
  refl _ := ⟨rfl, rfl, rfl⟩
  trans h h' := ⟨h'.1.trans h.1, h'.2.1.trans h.2.1, h'.2.2.trans h.2.2⟩
  nextready _ _ := ⟨rfl, rfl, rfl⟩
  callerq _ _ := ⟨rfl, rfl, rfl⟩
  sendlink _ _ := ⟨rfl, rfl, rfl⟩
  childUtime _ _ := ⟨rfl, rfl, rfl⟩
  childStime _ _ := ⟨rfl, rfl, rfl⟩
  alarm _ _ := ⟨rfl, rfl, rfl⟩

/-- A message that is delivered leaves the other slots alone, but for their links. -/
theorem deliver_apart {R : Proc → Proc → Prop} (frame : Frame R) (hj : j ≠ dest) :
    Completes (fun t => R (s.proc j) (t.proc j)) (s.deliver caller dest m) := by
  rw [deliver_eq]
  have apart : (s.update dest fun p => p.received ⟨(s.proc caller).nr, m.mType⟩).proc j = s.proc j := update_proc_ne hj
  refine .ite (fun t done => ?_) (.ok ?_)
  · rw [← apart]
    exact ready_framed frame t done j
  · rw [apart]
    exact frame.refl _

/-- The interrupt of the task has been seen to: the held-up interrupts are the same. -/
structure Seen (cfg : Config) (s : Kernel) (P : Mail) (H : List Nat) (n : Int) (t : Kernel) : Prop where
  intact : ∃ B P', Intact cfg t B P' H ∧ Passes cfg P Post.nothing P'
  settled : Settled s t
  nobody : NobodyBlocked s t
  turn : t.procPtr = s.procPtr ∨ (t.proc (cfg.procAddr n)).messbuf.mType = HARD_INT
  alerted : t.Alerted (cfg.procAddr n)
  kept : ∀ k, s.Alerted k → t.Alerted k
  kReenter : t.kReenter = s.kReenter
  switching : t.switching = s.switching

/-- **`interrupt`, when it does not compete**: the task gets the message of the interrupt, or finds it when it
receives next. -/
theorem Intact.interrupt_calm {n : Int} (h : Intact cfg s A P H) (calm : ¬ s.Competes)
    (task : (s.proc (cfg.procAddr n)).isTaskp) : Returns (Seen cfg s P H n) (s.interrupt cfg n) := by
  have isTask : (s.proc (cfg.procAddr n)).priority = .task := by simpa [Proc.isTaskp] using task
  by_cases waits : .receiving ∈ (s.proc (cfg.procAddr n)).flags ∧ .sending ∉ (s.proc (cfg.procAddr n)).flags ∧
      isRxHardware (s.proc (cfg.procAddr n)).getfrom
  · obtain ⟨receiving, open_, hardware⟩ := waits
    have only : (s.proc (cfg.procAddr n)).flags = {.receiving} := by
      ext x
      rw [Finset.mem_singleton]
      constructor
      · intro hx
        refine (h.table.taskFlags hx isTask).resolve_left ?_
        rintro rfl
        exact open_ hx
      · rintro rfl
        exact receiving
    have number : (s.proc (cfg.procAddr HARDWARE)).nr = HARDWARE := (h.posted.number _).trans hardware_number
    have ready : (s.proc (cfg.procAddr n)).waitsFor (s.proc (cfg.procAddr HARDWARE)).nr :=
      (waitsFor_iff (h.posted.number _)).2 ⟨receiving, open_, accepts_hardware hardware⟩
    rw [interrupt_waits calm task only hardware (h.posted.alert receiving open_ hardware) number]
    have delivered := h.toSound.deliver (m := ⟨HARDWARE, HARD_INT⟩) (by simp [h.table.hardware_idle]) ready fun user => by
      rw [isTask] at user
      cases user
    obtain ⟨t, done, ⟨B, sound⟩, step, steady, waits', others, here, -, kReenter, switching⟩ := delivered.returns
    have message : (t.proc (cfg.procAddr n)).messbuf = ⟨HARDWARE, HARD_INT⟩ := by
      rw [sound.posted.inbox (Function.update_self ..), hardware_number]
    have alerted : t.Alerted (cfg.procAddr n) := by
      right
      rw [here]
      exact ⟨Finset.notMem_erase _ _, message⟩
    rw [done]
    refine Ends.ok ?_
    constructor
    case intact =>
      exact ⟨B, _, ⟨⟨sound, h.signals.steady steady, h.informed.noNewWaits waits' steady.sigProcs⟩,
        h.holds.stable steady.toStable⟩, .hand_of_other step fun counts => counts.1 rfl⟩
    case settled => exact steady.toStable.settled
    case nobody =>
      intro k
      by_cases hk : k = cfg.procAddr n
      · rw [hk, here]
        exact Finset.erase_subset ..
      · rw [others k hk]
    case turn =>
      right
      rw [message]
    case alerted => exact alerted
    case kept =>
      intro k before
      by_cases hk : k = cfg.procAddr n
      · subst hk
        exact alerted
      · obtain ⟨intBlocked, flags, messbuf⟩ := deliver_apart frame_alerted hk t done
        exact before.congr intBlocked flags messbuf
    case kReenter => exact kReenter
    case switching => exact switching
  · have busy : ¬ (.receiving ∈ (s.proc (cfg.procAddr n)).flags ∧ .sending ∉ (s.proc (cfg.procAddr n)).flags) ∨
        isRxHardware (s.proc (cfg.procAddr n)).getfrom = false := by
      by_cases hardware : isRxHardware (s.proc (cfg.procAddr n)).getfrom
      · exact .inl fun both => waits ⟨both.1, both.2, hardware⟩
      · exact .inr (by simpa using hardware)
    have flags := update_field (s := s) (k := cfg.procAddr n) (f := fun p => { p with intBlocked := true }) Proc.flags rfl
    have steady : Steady s (s.update (cfg.procAddr n) fun p => { p with intBlocked := true }) :=
      .update (.update rfl rfl rfl rfl) fun _ _ _ => Iff.rfl
    have sound : Sound cfg (s.update (cfg.procAddr n) fun p => { p with intBlocked := true }) A P :=
      ⟨h.table.update rfl fun x hx => .inl hx, h.manned.update rfl rfl fun k _ => by rw [flags], h.posted.blockInterrupt busy⟩
    have waits' : NoNewWaits s (s.update (cfg.procAddr n) fun p => { p with intBlocked := true }) := by
      intro k receiving
      rw [flags] at receiving
      exact ⟨receiving, update_field Proc.getfrom (by rfl) k⟩
    unfold Kernel.interrupt
    dsimp only
    rw [if_neg calm, if_pos (by simpa using busy)]
    have alerted : (s.update (cfg.procAddr n) fun p => { p with intBlocked := true }).Alerted (cfg.procAddr n) := by
      left
      rw [update_proc_self]
    refine Ends.ok ⟨⟨A, P, ⟨⟨sound, h.signals.steady steady, h.informed.noNewWaits waits' steady.sigProcs⟩,
      h.holds.stable steady.toStable⟩, .refl P⟩, steady.toStable.settled, fun k => by rw [flags], .inl rfl, alerted, ?_, rfl, rfl⟩
    intro k before
    by_cases hk : k = cfg.procAddr n
    · subst hk
      exact alerted
    · unfold Alerted
      rw [update_proc_ne hk]
      exact before

/-- **`interrupt`**: the task gets the message of the interrupt, or finds it when it receives next, or is held up. -/
theorem Intact.interrupt {n : Int} (h : Intact cfg s A P H) (task : (s.proc (cfg.procAddr n)).isTaskp) :
    Returns (fun t => Advanced cfg P Post.nothing t ∧ Settled s t ∧ NobodyBlocked s t ∧
      (t.procPtr = s.procPtr ∨ (t.proc (cfg.procAddr n)).messbuf.mType = HARD_INT)) (s.interrupt cfg n) := by
  by_cases competes : s.Competes
  · refine (h.interrupt_held competes task).imp ?_
    rintro t ⟨intact, aside, settled, -⟩
    exact ⟨⟨A, P, _, intact, .refl P⟩, settled, fun k => by rw [(aside.proc k).flags], .inl aside.procPtr⟩
  · refine (h.interrupt_calm competes task).imp ?_
    rintro t seen
    obtain ⟨B, P', intact, run⟩ := seen.intact
    exact ⟨⟨B, P', H, intact, run⟩, seen.settled, seen.nobody, seen.turn⟩

end Kernel

end SoiExercises.Sched
