import SoiExercises.Monitor.IntegerBuffer
import SoiExercises.Monitor.Waiting

/-!
# No lost wake-up and no deadlock

A producer that leaves an item signals `empty` at a counter of one, a consumer that leaves room signals `full`
at one below the size, and a woken thread hands the wake-up on to the next waiter (`waiters`). So the threads
that wait while the monitor is free all wait for the same thing, and not all of them can.
-/

namespace SoiExercises.Monitor

open SoiExercises.Lib

variable {ι : Type}

/-- While anybody waits on `empty` the counter is `e`, and while anybody waits on `full` it is `f`. -/
structure Waiters (e f : Int) (sh : IntegerBufferMonitor) (wc : Condition → Int) : Prop where
  counts : ∀ c, 0 ≤ wc c
  empty : 0 < wc .empty → sh.counter = e
  full : 0 < wc .full → sh.counter = f

/-- What the waiting counts are at each label of an owner. -/
def waiters (size : Nat) : Label → IntegerBufferMonitor → (Condition → Int) → Prop
  | .produceWait, sh, wc => Waiters 0 size sh wc ∧ sh.counter = size
  | .consumeWait, sh, wc => Waiters 0 size sh wc ∧ sh.counter = 0
  | .produceMake, sh, wc | .produceStore _, sh, wc | .producePrint _, sh, wc | .produceIn, sh, wc
  | .produceCount, sh, wc | .consumeSignal, sh, wc => Waiters 0 (size - 1) sh wc
  | .consumeFetch, sh, wc | .consumeClear _, sh, wc | .consumePrint _, sh, wc | .consumeOut, sh, wc
  | .consumeCount, sh, wc | .produceSignal, sh, wc => Waiters 1 size sh wc
  | _, sh, wc => Waiters 0 size sh wc

/-- What a signaller leaves. -/
def signalledWaiters (size : Nat) : Condition → IntegerBufferMonitor → (Condition → Int) → Prop
  | .empty => Waiters 1 size
  | .full => Waiters 0 (size - 1)

namespace Waiters

variable {e f e' f' : Int} {sh : IntegerBufferMonitor} {wc : Condition → Int}

/-- The other variables do not matter. -/
theorem congr {sh' : IntegerBufferMonitor} (h : Waiters e f sh wc) (counter : sh'.counter = sh.counter) :
    Waiters e f sh' wc where
  counts := h.counts
  empty := by rw [counter]; exact h.empty
  full := by rw [counter]; exact h.full

/-- `counter` moves. -/
theorem count {sh' : IntegerBufferMonitor} {d : Int} (h : Waiters e f sh wc) (counter : sh'.counter = sh.counter + d)
    (he : e' = e + d) (hf : f' = f + d) : Waiters e' f' sh' wc where
  counts := h.counts
  empty waits := by rw [counter, h.empty waits, he]
  full waits := by rw [counter, h.full waits, hf]

/-- `++ empty.waitingCount` -/
theorem waitEmpty (h : Waiters e f sh wc) (counter : sh.counter = e) :
    Waiters e f sh (Function.update wc .empty (wc .empty + 1)) where
  counts c := by
    have := h.counts c
    cases c with
    | empty => rw [Function.update_self]; omega
    | full => exact this
  empty _ := counter
  full := h.full

/-- `++ full.waitingCount` -/
theorem waitFull (h : Waiters e f sh wc) (counter : sh.counter = f) :
    Waiters e f sh (Function.update wc .full (wc .full + 1)) where
  counts c := by
    have := h.counts c
    cases c with
    | empty => exact this
    | full => rw [Function.update_self]; omega
  empty := h.empty
  full _ := counter

/-- `-- waitingCount` -/
theorem signal (h : Waiters e f sh wc) {c : Condition} (some : wc c ≠ 0) :
    Waiters e f sh (Function.update wc c (wc c - 1)) := by
  have positive := h.counts c
  have less : ∀ c', 0 < Function.update wc c (wc c - 1) c' → 0 < wc c' := by
    intro c' waits
    by_cases same : c' = c
    · subst same
      omega
    · rwa [Function.update_of_ne same] at waits
  refine ⟨fun c' => ?_, fun waits => h.empty (less _ waits), fun waits => h.full (less _ waits)⟩
  by_cases same : c' = c
  · subst same
    rw [Function.update_self]
    omega
  · rw [Function.update_of_ne same]
    exact h.counts c'

/-- With nobody waiting on `empty`, its value does not matter. -/
theorem noEmpty (h : Waiters e f sh wc) (none : wc .empty = 0) : Waiters e' f sh wc where
  counts := h.counts
  empty waits := by omega
  full := h.full

theorem noFull (h : Waiters e f sh wc) (none : wc .full = 0) : Waiters e f' sh wc where
  counts := h.counts
  empty := h.empty
  full waits := by omega

/-- A counter apart from its value excludes waiters. -/
theorem not_empty (h : Waiters e f sh wc) (counter : sh.counter ≠ e) : wc .empty = 0 := by
  have counts := h.counts .empty
  by_contra some
  exact counter (h.empty (by omega))

theorem not_full (h : Waiters e f sh wc) (counter : sh.counter ≠ f) : wc .full = 0 := by
  have counts := h.counts .full
  by_contra some
  exact counter (h.full (by omega))

end Waiters

/-- An access keeps what the threads know of the waiting counts. -/
theorem waiters_access {id : Int} {size : Nat} {calls : ι → Operation → Prop} {i : ι} {l : Label}
    {effect : IntegerBufferMonitor → IntegerBufferMonitor → Label → Prop} (h : code id size calls i l = .access effect) :
    l.inside ∧ ∀ {sh sh' wc next}, waiters size l sh wc → effect sh sh' next → next.inside ∧ waiters size next sh' wc := by
  cases l <;> simp only [code, run, reduceCtorEq, Instr.access.injEq] at h
  all_goals
    subst h
    refine ⟨trivial, fun {sh sh' wc next} known step => ?_⟩
    obtain ⟨rfl, rfl⟩ := Prod.mk.inj step
  case produceTest =>
    split
    case isTrue full => exact ⟨trivial, known, full⟩
    case isFalse room => exact ⟨trivial, known.noFull (known.not_full room)⟩
  case produceStore | producePrint | produceIn => exact ⟨trivial, known.congr rfl⟩
  case produceCount => exact ⟨trivial, known.count rfl (by omega) (by omega)⟩
  case consumeTest =>
    split
    case isTrue empty => exact ⟨trivial, known, empty⟩
    case isFalse items => exact ⟨trivial, known.noEmpty (known.not_empty items)⟩
  case consumeFetch | consumeClear | consumePrint | consumeOut => exact ⟨trivial, known.congr rfl⟩
  case consumeCount => exact ⟨trivial, known.count (Int.sub_eq_add_neg ..) (by omega) (by omega)⟩

/-- The outline of the waiting counts. -/
def waitersOutline (id : Int) (size : Nat) (calls : ι → Operation → Prop) : CountingOutline (code id size calls) where
  inside := Label.inside
  free := Waiters 0 size
  signalled := signalledWaiters size
  at' _ := waiters size
  enter := by
    intro i l next h
    obtain ⟨rfl, rfl⟩ | ⟨rfl, rfl⟩ := code_enter h
    all_goals exact ⟨fun outside => outside, trivial, fun free => free⟩
  leave := by
    intro i l next h
    obtain ⟨rfl | rfl, rfl⟩ := code_leave h
    all_goals exact ⟨trivial, fun outside => outside, fun known => known⟩
  wait := by
    intro i l c next h
    obtain ⟨rfl, rfl, rfl⟩ | ⟨rfl, rfl, rfl⟩ := code_wait h
    · exact ⟨trivial, trivial, fun ⟨known, counter⟩ => known.waitFull counter, fun left => left⟩
    · exact ⟨trivial, trivial, fun ⟨known, counter⟩ => known.waitEmpty counter, fun left => left⟩
  signal := by
    intro i l c next h
    obtain ⟨rfl, rfl, rfl⟩ | ⟨rfl, rfl, rfl⟩ := code_signal h
    · exact ⟨trivial, trivial, fun known some => known.signal some, fun known none => known.noEmpty none,
        fun free => free⟩
    · exact ⟨trivial, trivial, fun known some => known.signal some, fun known none => known.noFull none,
        fun free => free⟩
  access := waiters_access
  pause := by
    intro i l nexts next h hn
    obtain ⟨rfl, ⟨-, rfl⟩ | ⟨-, rfl⟩⟩ | ⟨rfl, item, drawn, rfl⟩ := code_pause h hn
    · exact ⟨Iff.rfl, fun outside => outside.elim⟩
    · exact ⟨Iff.rfl, fun outside => outside.elim⟩
    · exact ⟨Iff.rfl, fun _ known => known⟩

/-- The operation that a label belongs to. -/
def Label.operation : Label → Option Operation
  | .idle => none
  | .produceEnter | .produceTest | .produceWait | .produceMake | .produceStore _ | .producePrint _ | .produceIn
  | .produceCount | .produceSignal | .produceLeave => some .produce
  | .consumeEnter | .consumeTest | .consumeWait | .consumeFetch | .consumeClear _ | .consumePrint _ | .consumeOut
  | .consumeCount | .consumeSignal | .consumeLeave => some .consume

/-- The thread calls the operation that the label belongs to. -/
def Called (calls : ι → Operation → Prop) (i : ι) (l : Label) : Prop := ∀ op, l.operation = some op → calls i op

/-- Every thread is in an operation that it calls. -/
def Calling (calls : ι → Operation → Prop) (st : State ι IntegerBufferMonitor Condition Label) : Prop :=
  ∀ i, Called calls i (st.pos i).label

/-- The thread is in `wait(c)`. -/
def Pos.WaitsOn {C L : Type} (c : C) (p : Pos C L) : Prop := ∃ next, p = .waitLeave c next ∨ p = .waitP c next

section Enabled

variable {id : Int} {size : Nat} {calls : ι → Operation → Prop} {i : ι} {l l' : Label}

/-- The code stays in an operation until it is idle. -/
theorem Called.leads (h : Called calls i l) (leads : (code id size calls i l).LeadsTo l') : Called calls i l' := by
  intro op member
  cases l with
  | idle =>
    obtain ⟨allowed, rfl⟩ | ⟨allowed, rfl⟩ := leads
    · cases member
      exact allowed
    · cases member
      exact allowed
  | produceEnter | produceWait | produceSignal | produceLeave | consumeEnter | consumeWait | consumeSignal
  | consumeLeave =>
    cases leads
    first
    | exact h op member
    | cases member
  | produceMake =>
    obtain ⟨item, -, rfl⟩ := leads
    exact h op member
  | produceTest | consumeTest =>
    obtain ⟨sh, sh', step⟩ := leads
    obtain ⟨-, rfl⟩ := Prod.mk.inj step
    split at member
    · exact h op member
    · exact h op member
  | produceStore _ | producePrint _ | produceIn | produceCount | consumeFetch | consumeClear _ | consumePrint _
  | consumeOut | consumeCount =>
    obtain ⟨sh, sh', step⟩ := leads
    obtain ⟨-, rfl⟩ := Prod.mk.inj step
    exact h op member

variable [DecidableEq ι] {st st' : State ι IntegerBufferMonitor Condition Label}

theorem Calling.step (h : Calling calls st) (step : Step (code id size calls) st i st') : Calling calls st' :=
  step.labels (fun _ _ _ => Called.leads) h

/-- **The owner of the monitor** can always go on. -/
theorem owner_enabled (holds : (st.pos i).Holds Label.inside) : ∃ st', Step (code id size calls) st i st' := by
  cases pos : st.pos i with
  | «at» l =>
    rw [pos] at holds
    cases l with
    | idle | produceEnter | consumeEnter => exact holds.elim
    | produceLeave | consumeLeave => exact ⟨_, .leave pos rfl⟩
    | produceWait | consumeWait => exact ⟨_, .waitInc pos rfl⟩
    | produceSignal =>
      by_cases none : st.waitingCount .empty = 0
      · exact ⟨_, .signalNone pos rfl none⟩
      · exact ⟨_, .signalSome pos rfl none⟩
    | consumeSignal =>
      by_cases none : st.waitingCount .full = 0
      · exact ⟨_, .signalNone pos rfl none⟩
      · exact ⟨_, .signalSome pos rfl none⟩
    | produceMake => exact ⟨_, .pause pos rfl ⟨id * 10, ⟨le_refl _, by omega⟩, rfl⟩⟩
    | produceTest | produceStore _ | producePrint _ | produceIn | produceCount | consumeTest | consumeFetch
    | consumeClear _ | consumePrint _ | consumeOut | consumeCount => exact ⟨_, .access pos rfl rfl⟩
  | waitLeave c next => exact ⟨_, .waitLeave pos⟩
  | signalDec c next => exact ⟨_, .signalDec pos⟩
  | signalV c next => exact ⟨_, .signalV pos⟩
  | waitP c next | signalEnter next =>
    rw [pos] at holds
    exact holds.elim

/-- With the monitor free, a thread that calls an operation goes on unless it waits on a condition. -/
theorem outside_enabled (free : 0 < st.s) (outside : ¬ (st.pos i).Holds Label.inside) {op : Operation}
    (allowed : calls i op) :
    (∃ st', Step (code id size calls) st i st') ∨ ∃ c next, st.pos i = .waitP c next := by
  cases pos : st.pos i with
  | «at» l =>
    rw [pos] at outside
    cases l with
    | idle =>
      cases op with
      | produce => exact .inl ⟨_, .pause pos rfl (.inl ⟨allowed, rfl⟩)⟩
      | consume => exact .inl ⟨_, .pause pos rfl (.inr ⟨allowed, rfl⟩)⟩
    | produceEnter | consumeEnter => exact .inl ⟨_, .enter pos rfl free⟩
    | produceTest | produceWait | produceMake | produceStore _ | producePrint _ | produceIn | produceCount
    | produceSignal | produceLeave | consumeTest | consumeWait | consumeFetch | consumeClear _ | consumePrint _
    | consumeOut | consumeCount | consumeSignal | consumeLeave => exact absurd trivial outside
  | waitP c next => exact .inr ⟨c, next, rfl⟩
  | signalEnter next => exact .inl ⟨_, .signalEnter pos free⟩
  | waitLeave c next | signalDec c next | signalV c next =>
    rw [pos] at outside
    exact absurd trivial outside

end Enabled

/-- The monitor buffer does not sleep: whoever still waits while the monitor is free has to, and some thread
can do a step. -/
structure Responsive [DecidableEq ι] (id : Int) (size : Nat) (calls : ι → Operation → Prop)
    (st : State ι IntegerBufferMonitor Condition Label) : Prop where
  empty : st.s = 1 → ∀ i, (st.pos i).WaitsOn .empty → st.shared.counter = 0
  full : st.s = 1 → ∀ i, (st.pos i).WaitsOn .full → st.shared.counter = size
  live : ∃ i st', Step (code id size calls) st i st'

section Reached

variable [Fintype ι] [DecidableEq ι] {id : Int} {size : Nat} {calls : ι → Operation → Prop}
  {st : State ι IntegerBufferMonitor Condition Label} {tok : Token ι Condition} {i : ι}

omit [DecidableEq ι] in
/-- A waiter is counted while the monitor is free. -/
theorem Counted.positive {c : Condition} (counted : Counted st) (token : HasToken Label.inside st .free)
    (waits : (st.pos i).WaitsOn c) : 0 < st.waitingCount c := by
  have one : (st.pos i).waiting c = 1 := by
    obtain ⟨next, pos | pos⟩ := waits
    · rw [pos]
      exact if_pos rfl
    · rw [pos]
      exact if_pos rfl
  have le := le_tally (Pos.waiting c) st.pos i
  have count := counted.of_free token c
  omega

omit [DecidableEq ι] in
theorem waiting_empty (h : (waitersOutline id size calls).Holds st tok) (counted : Counted st) (free : st.s = 1)
    (waits : (st.pos i).WaitsOn .empty) : st.shared.counter = 0 := by
  have unowned := h.token.free_of_s (by omega)
  subst unowned
  exact h.known.empty (counted.positive h.token waits)

omit [DecidableEq ι] in
theorem waiting_full (h : (waitersOutline id size calls).Holds st tok) (counted : Counted st) (free : st.s = 1)
    (waits : (st.pos i).WaitsOn .full) : st.shared.counter = size := by
  have unowned := h.token.free_of_s (by omega)
  subst unowned
  exact h.known.full (counted.positive h.token waits)

omit [Fintype ι] [DecidableEq ι] in
/-- A thread waits on the condition of its operation. -/
theorem waits_on (placed : (st.pos i).Placed (code id size calls i)) (called : Called calls i (st.pos i).label)
    {c : Condition} {next : Label} (pos : st.pos i = .waitP c next) :
    c = .full ∧ calls i .produce ∨ c = .empty ∧ calls i .consume := by
  rw [pos] at placed called
  obtain ⟨l, does⟩ := placed
  cases l <;> simp only [code, run, reduceCtorEq, Instr.wait.injEq] at does
  case produceWait =>
    obtain ⟨rfl, rfl⟩ := does
    exact .inl ⟨rfl, called _ rfl⟩
  case consumeWait =>
    obtain ⟨rfl, rfl⟩ := does
    exact .inr ⟨rfl, called _ rfl⟩

/-- **Some thread can do a step**, given a producer and a consumer: the owner, the thread that has been
woken, or one of the two. -/
theorem enabled (positive : 0 < size) (h : (waitersOutline id size calls).Holds st tok) (counted : Counted st)
    (called : Calling calls st) {producer consumer : ι}
    (produces : ∀ op, calls producer op ↔ op = .produce) (consumes : ∀ op, calls consumer op ↔ op = .consume) :
    ∃ i st', Step (code id size calls) st i st' := by
  have token := h.token
  cases tok with
  | owned i => exact ⟨i, owner_enabled ((token.holds i).2 rfl)⟩
  | posted c =>
    have counts : 0 ≤ st.waitingCount c := by
      have known := h.known
      cases c with
      | empty => exact Waiters.counts known _
      | full => exact Waiters.counts known _
    obtain ⟨i, next, pos⟩ := counted.woken token counts
    have posted : st.w c = 1 := (token.w c).trans (if_pos rfl)
    exact ⟨i, _, .waitP pos (by omega)⟩
  | free =>
    have one : st.s = 1 := token.s
    have outside : ∀ i, ¬ (st.pos i).Holds Label.inside := fun i => (token.holds i).not.2 nofun
    rcases outside_enabled (by omega) (outside producer) ((produces _).2 rfl) with step | ⟨c, next, produceWaits⟩
    · exact ⟨producer, step⟩
    rcases outside_enabled (by omega) (outside consumer) ((consumes _).2 rfl) with step | ⟨c', next', consumeWaits⟩
    · exact ⟨consumer, step⟩
    -- the two would wait for a full and an empty buffer
    exfalso
    rcases waits_on (h.placed producer) (called producer) produceWaits with ⟨rfl, -⟩ | ⟨-, wrong⟩
    · rcases waits_on (h.placed consumer) (called consumer) consumeWaits with ⟨-, wrong⟩ | ⟨rfl, -⟩
      · cases (consumes _).1 wrong
      · have full := waiting_full h counted one ⟨next, .inr produceWaits⟩
        have empty := waiting_empty h counted one ⟨next', .inr consumeWaits⟩
        omega
    · cases (produces _).1 wrong

end Reached

/-- **No lost wake-up and no deadlock under every schedule**, for any number of threads among which there
are one that only produces and one that only consumes. -/
theorem monitor_responsive [Fintype ι] [DecidableEq ι] (id : Int) (size : Nat) (positive : 0 < size)
    (calls : ι → Operation → Prop) (producer consumer : ι) (produces : ∀ op, calls producer op ↔ op = .produce)
    (consumes : ∀ op, calls consumer op ↔ op = .consume) (st : State ι IntegerBufferMonitor Condition Label)
    (reached : Reaches (code id size calls) start st) : Responsive id size calls st := by
  have counted : Counted st := Counted.reached reached
  obtain ⟨tok, holds⟩ : ∃ tok, (waitersOutline id size calls).Holds st tok := by
    refine CountingOutline.sound _ ?_ ?_ reached
    · exact fun _ outside => outside
    · exact ⟨fun _ => le_refl 0, fun _ => rfl, fun waits => absurd waits (lt_irrefl 0)⟩
  obtain ⟨schedule, run⟩ := reached
  have called : Calling calls st := run.invariant Calling.step fun _ _ idle => by cases idle
  exact ⟨fun free _ => waiting_empty holds counted free, fun free _ => waiting_full holds counted free,
    enabled positive holds counted called produces consumes⟩

/-- A producer and a consumer on one slot, the producer inside. -/
theorem monitor_responsive_entered :
    Responsive 1 1 (fun i op => op = if i then .produce else .consume)
      { (start : State Bool IntegerBufferMonitor Condition Label).move true (.at .produceTest) with s := 0 } := by
  refine monitor_responsive 1 1 (by decide) _ true false (fun _ => Iff.rfl) (fun _ => Iff.rfl) _ ⟨[true, true], ?_⟩
  have called : Step (code 1 1 fun i op => op = if i then .produce else .consume) start true
      (start.move true (.at .produceEnter)) := .pause rfl rfl (.inl ⟨rfl, rfl⟩)
  have entered : Step (code 1 1 fun i op => op = if i then .produce else .consume)
      (start.move true (.at .produceEnter)) true _ := .enter rfl rfl (by decide)
  simpa [State.move, start, State.initial] using (Run.single called).snoc entered

end SoiExercises.Monitor
