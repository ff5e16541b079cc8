import SoiExercises.Lib.Ring
import SoiExercises.Monitor.Outline
import SoiExercises.Monitor.IntegerBuffer

/-!
# The monitor buffer is a bounded FIFO queue

The outline of `produce` and `consume`: a free monitor has the items produced and not yet
consumed in the ring from `out` on; between two statements of a body the ring, the counter and
the indices differ by one item, as `Shape` records. The test before `wait` is an `if`, so what a
woken thread relies on is what the signaller left: room for `full`, an item for `empty`.
-/

namespace SoiExercises.Monitor

open SoiExercises.Lib

variable {ι : Type}

/-- The buffer between two statements: the ring from `lo` on holds `slots`, the items produced
and not consumed are `pending`, and `counter` and `in` are at `count` and `next`. -/
structure Shape (id : Int) (size : Nat) (sh : IntegerBufferMonitor) (slots : List Int) (lo count next : Nat)
    (pending : List Int) : Prop where
  out_lt : sh.out < size
  history : sh.produced = sh.consumed ++ pending
  drawn : ∀ item ∈ sh.produced, MakeProduct id item
  ring : Ring size (-1) sh.body lo slots
  counter : sh.counter = count
  in_eq : sh.in_ = next

/-- The buffer as it is between two bodies, holding the items `q`. -/
def Settled (id : Int) (size : Nat) (sh : IntegerBufferMonitor) (q : List Int) : Prop :=
  Shape id size sh q sh.out q.length ((sh.out + q.length) % size) q

/-- What holds of the shared variables at each label of an owner. -/
def assertion (id : Int) (size : Nat) : Label → IntegerBufferMonitor → Prop
  | .produceMake, sh => ∃ q, Settled id size sh q ∧ q.length < size
  | .produceStore item, sh => (∃ q, Settled id size sh q ∧ q.length < size) ∧ MakeProduct id item
  | .producePrint _, sh | .produceIn, sh => ∃ q x, Shape id size sh (q ++ [x]) sh.out q.length
      ((sh.out + q.length) % size) (q ++ [x])
  | .produceCount, sh => ∃ q x, Shape id size sh (q ++ [x]) sh.out q.length
      ((sh.out + (q.length + 1)) % size) (q ++ [x])
  | .produceSignal, sh | .consumeFetch, sh => ∃ x q, Settled id size sh (x :: q)
  | .consumeClear item, sh => ∃ q, Shape id size sh (item :: q) sh.out (q.length + 1)
      ((sh.out + (q.length + 1)) % size) q
  | .consumePrint _, sh | .consumeOut, sh => ∃ q, Shape id size sh q ((sh.out + 1) % size) (q.length + 1)
      ((sh.out + (q.length + 1)) % size) q ∧ q.length < size
  | .consumeCount, sh => ∃ q, Shape id size sh q sh.out (q.length + 1)
      ((sh.out + q.length) % size) q ∧ q.length < size
  | .consumeSignal, sh => ∃ q, Settled id size sh q ∧ q.length < size
  | _, sh => ∃ q, Settled id size sh q

/-- What a signaller leaves for the thread it wakes. -/
def signalled (id : Int) (size : Nat) : Condition → IntegerBufferMonitor → Prop
  | .full, sh => ∃ q, Settled id size sh q ∧ q.length < size
  | .empty, sh => ∃ x q, Settled id size sh (x :: q)

section Statements

variable {id : Int} {size : Nat} {sh : IntegerBufferMonitor} {q : List Int} {x : Int}

theorem Settled.new (positive : 0 < size) : Settled id size .new [] where
  out_lt := positive
  history := rfl
  drawn := by simp [IntegerBufferMonitor.new]
  ring := .empty
  counter := rfl
  in_eq := (Nat.zero_mod size).symm

theorem Settled.length_le (h : Settled id size sh q) : q.length ≤ size := h.ring.fits

/-- `body[in] = item` -/
theorem Settled.store (h : Settled id size sh q) (room : q.length < size) (drawn : MakeProduct id x) :
    Shape id size { sh with body := Function.update sh.body sh.in_ x, produced := sh.produced ++ [x] }
      (q ++ [x]) sh.out q.length ((sh.out + q.length) % size) (q ++ [x]) where
  out_lt := h.out_lt
  history := by simp [h.history]
  drawn item mem := by
    rcases List.mem_append.1 mem with old | new
    · exact h.drawn item old
    · rwa [List.mem_singleton.1 new]
  ring := by
    rw [h.in_eq]
    exact h.ring.push room x
  counter := h.counter
  in_eq := h.in_eq

/-- `in = (in + 1) % size` -/
theorem Shape.advanceIn {slots pending : List Int} {lo count k : Nat}
    (h : Shape id size sh slots lo count ((sh.out + k) % size) pending) :
    Shape id size { sh with in_ := (sh.in_ + 1) % size } slots lo count
      ((sh.out + (k + 1)) % size) pending :=
  { h with in_eq := by rw [h.in_eq, Nat.mod_add_mod, Nat.add_assoc] }

/-- `counter++` -/
theorem Shape.countUp {slots pending : List Int} {lo count next : Nat}
    (h : Shape id size sh slots lo count next pending) :
    Shape id size { sh with counter := sh.counter + 1 } slots lo (count + 1) next pending :=
  { h with counter := by rw [h.counter]; rfl }

/-- `int item = body[out]` reads the head of the queue. -/
theorem Settled.head (h : Settled id size sh (x :: q)) : sh.body sh.out = x := by
  have := h.ring.head
  rwa [Nat.mod_eq_of_lt h.out_lt] at this

theorem Settled.fetch (h : Settled id size sh (x :: q)) :
    Shape id size { sh with consumed := sh.consumed ++ [sh.body sh.out] } (sh.body sh.out :: q) sh.out
      (q.length + 1) ((sh.out + (q.length + 1)) % size) q := by
  rw [h.head]
  exact { h with history := by simp [h.history] }

/-- `body[out] = -1` -/
theorem Shape.clear {count next : Nat} (h : Shape id size sh (x :: q) sh.out count next q) :
    Shape id size { sh with body := Function.update sh.body sh.out (-1) } q ((sh.out + 1) % size)
      count next q := by
  have popped := h.ring.pop
  rw [Nat.mod_eq_of_lt h.out_lt] at popped
  exact { h with ring := popped }

/-- `out = (out + 1) % size` -/
theorem Shape.advanceOut {count k : Nat}
    (h : Shape id size sh q ((sh.out + 1) % size) count ((sh.out + (k + 1)) % size) q) :
    Shape id size { sh with out := (sh.out + 1) % size } q ((sh.out + 1) % size) count
      (((sh.out + 1) % size + k) % size) q where
  out_lt := Nat.mod_lt _ (Nat.zero_lt_of_lt h.out_lt)
  history := h.history
  drawn := h.drawn
  ring := h.ring
  counter := h.counter
  in_eq := by rw [h.in_eq, Nat.mod_add_mod]; congr 1; omega

/-- `counter--` -/
theorem Shape.countDown {slots pending : List Int} {lo count next : Nat}
    (h : Shape id size sh slots lo (count + 1) next pending) :
    Shape id size { sh with counter := sh.counter - 1 } slots lo count next pending :=
  { h with counter := by rw [h.counter]; push_cast; omega }

end Statements

/-- An access keeps what an owner knows of the buffer. -/
theorem assertion_access {id : Int} {size : Nat} {calls : ι → Operation → Prop} {i : ι} {l : Label}
    {effect : IntegerBufferMonitor → IntegerBufferMonitor → Label → Prop} (h : code id size calls i l = .access effect) :
    l.inside ∧ ∀ {sh sh' next}, assertion id size l sh → effect sh sh' next → next.inside ∧ assertion id size next sh' := by
  cases l <;> simp only [code, run, reduceCtorEq, Instr.access.injEq] at h
  all_goals
    subst h
    refine ⟨trivial, fun {sh sh' next} known step => ?_⟩
    obtain ⟨rfl, rfl⟩ := Prod.mk.inj step
  case produceTest =>
    obtain ⟨q, settled⟩ := known
    split
    · exact ⟨trivial, q, settled⟩
    · rename_i notFull
      have counter := settled.counter
      have fits := settled.length_le
      exact ⟨trivial, q, settled, by omega⟩
  case produceStore item =>
    obtain ⟨⟨q, settled, room⟩, drawn⟩ := known
    exact ⟨trivial, q, item, settled.store room drawn⟩
  case producePrint => exact ⟨trivial, known⟩
  case produceIn =>
    obtain ⟨q, x, shape⟩ := known
    exact ⟨trivial, q, x, shape.advanceIn⟩
  case produceCount =>
    obtain ⟨q, x, shape⟩ := known
    have counted := shape.countUp
    rw [show q.length + 1 = (q ++ [x]).length by simp] at counted
    cases hq : q ++ [x] with
    | nil => simp at hq
    | cons y r => rw [hq] at counted; exact ⟨trivial, y, r, counted⟩
  case consumeTest =>
    obtain ⟨q, settled⟩ := known
    split
    · exact ⟨trivial, q, settled⟩
    · rename_i notEmpty
      cases q with
      | nil => exact absurd settled.counter notEmpty
      | cons x q => exact ⟨trivial, x, q, settled⟩
  case consumeFetch =>
    obtain ⟨x, q, settled⟩ := known
    exact ⟨trivial, q, settled.fetch⟩
  case consumeClear =>
    obtain ⟨q, shape⟩ := known
    exact ⟨trivial, q, shape.clear, shape.ring.fits⟩
  case consumePrint => exact ⟨trivial, known⟩
  case consumeOut =>
    obtain ⟨q, shape, room⟩ := known
    exact ⟨trivial, q, shape.advanceOut, room⟩
  case consumeCount =>
    obtain ⟨q, shape, room⟩ := known
    exact ⟨trivial, q, shape.countDown, room⟩

/-- The outline of `produce` and `consume`, for every set of calling threads. -/
def outline (id : Int) (size : Nat) (calls : ι → Operation → Prop) : Outline (code id size calls) where
  inside := Label.inside
  free sh := ∃ q, Settled id size sh q
  signalled := signalled id size
  at' _ := assertion id size
  enter := by
    intro i l next h
    obtain ⟨rfl, rfl⟩ | ⟨rfl, rfl⟩ := code_enter h
    all_goals exact ⟨fun outside => outside, trivial, fun settled => settled⟩
  leave := by
    intro i l next h
    obtain ⟨rfl | rfl, rfl⟩ := code_leave h
    all_goals exact ⟨trivial, fun outside => outside, fun settled => settled⟩
  wait := by
    intro i l c next h
    obtain ⟨rfl, rfl, rfl⟩ | ⟨rfl, rfl, rfl⟩ := code_wait h
    all_goals exact ⟨trivial, trivial, fun settled => settled, fun left => left⟩
  signal := by
    intro i l c next h
    obtain ⟨rfl, rfl, rfl⟩ | ⟨rfl, rfl, rfl⟩ := code_signal h
    · refine ⟨trivial, trivial, fun left => left, ?_, fun settled => settled⟩
      rintro sh ⟨x, q, settled⟩
      exact ⟨x :: q, settled⟩
    · refine ⟨trivial, trivial, fun left => left, ?_, fun settled => settled⟩
      rintro sh ⟨q, settled, -⟩
      exact ⟨q, settled⟩
  access := assertion_access
  pause := by
    intro i l nexts next h hn
    obtain ⟨rfl, ⟨-, rfl⟩ | ⟨-, rfl⟩⟩ | ⟨rfl, item, drawn, rfl⟩ := code_pause h hn
    · exact ⟨Iff.rfl, fun outside => outside.elim⟩
    · exact ⟨Iff.rfl, fun outside => outside.elim⟩
    · exact ⟨Iff.rfl, fun _ known => ⟨known, drawn⟩⟩

/-- Whatever an owner is doing, the ring is in some `Shape` with a counter within bounds. -/
theorem assertion_shape {id : Int} {size : Nat} {l : Label} {sh : IntegerBufferMonitor}
    (h : assertion id size l sh) :
    ∃ slots lo count next pending, Shape id size sh slots lo count next pending ∧ count ≤ size := by
  cases l with
  | produceMake =>
    obtain ⟨q, settled, -⟩ := h
    exact ⟨_, _, _, _, _, settled, settled.length_le⟩
  | produceStore item =>
    obtain ⟨⟨q, settled, -⟩, -⟩ := h
    exact ⟨_, _, _, _, _, settled, settled.length_le⟩
  | producePrint _ | produceIn | produceCount =>
    obtain ⟨q, x, shape⟩ := h
    have fits := shape.ring.fits
    rw [List.length_append] at fits
    exact ⟨_, _, _, _, _, shape, by omega⟩
  | produceSignal | consumeFetch =>
    obtain ⟨x, q, settled⟩ := h
    exact ⟨_, _, _, _, _, settled, settled.length_le⟩
  | consumeClear _ =>
    obtain ⟨q, shape⟩ := h
    exact ⟨_, _, _, _, _, shape, shape.ring.fits⟩
  | consumePrint _ | consumeOut | consumeCount =>
    obtain ⟨q, shape, room⟩ := h
    exact ⟨_, _, _, _, _, shape, room⟩
  | consumeSignal =>
    obtain ⟨q, settled, -⟩ := h
    exact ⟨_, _, _, _, _, settled, settled.length_le⟩
  | idle | produceEnter | produceTest | produceWait | produceLeave | consumeEnter | consumeTest
  | consumeWait | consumeLeave =>
    obtain ⟨q, settled⟩ := h
    exact ⟨_, _, _, _, _, settled, settled.length_le⟩

/-- What a client relies on: mutual exclusion, a counter within bounds, producers storing into
blank slots and consumers fetching the oldest item, and a buffer that is exactly the items produced
and not yet consumed whenever no body is running. -/
structure FifoQueue (id : Int) (size : Nat) (st : State ι IntegerBufferMonitor Condition Label) :
    Prop where
  exclusive : ∀ i j, (st.pos i).Holds Label.inside → (st.pos j).Holds Label.inside → i = j
  counter_nonneg : 0 ≤ st.shared.counter
  counter_le : st.shared.counter ≤ size
  store_blank : ∀ i item, st.pos i = .at (.produceStore item) →
    st.shared.in_ < size ∧ st.shared.body st.shared.in_ = -1
  fetch_oldest : ∀ i, st.pos i = .at .consumeFetch → st.shared.out < size ∧
    (∃ q, st.shared.produced = st.shared.consumed ++ st.shared.body st.shared.out :: q) ∧
    (id ≠ -1 → st.shared.body st.shared.out ≠ -1)
  consumed_prefix : st.shared.consumed <+: st.shared.produced
  contents : (∀ i, ¬ (st.pos i).Holds Label.inside) → ∃ q,
    st.shared.produced = st.shared.consumed ++ q ∧ st.shared.counter = q.length ∧
    ∀ k (h : k < q.length), st.shared.body ((st.shared.out + k) % size) = q[k]

section Reached

variable {id : Int} {size : Nat} {calls : ι → Operation → Prop}
  {st : State ι IntegerBufferMonitor Condition Label} {tok : Token ι Condition}

/-- The outline gives a `Shape` wherever the token is. -/
theorem known_shape (h : (outline id size calls).Holds st tok) :
    ∃ slots lo count next pending,
      Shape id size st.shared slots lo count next pending ∧ count ≤ size := by
  have known := h.known
  cases tok with
  | free => exact assertion_shape (l := .idle) known
  | posted c =>
    cases c with
    | full => exact assertion_shape (l := .consumeSignal) known
    | empty => exact assertion_shape (l := .produceSignal) known
  | owned i =>
    simp only [Outline.known] at known
    cases hp : st.pos i with
    | «at» l => rw [hp] at known; exact assertion_shape known
    | waitLeave c next => rw [hp] at known; exact assertion_shape (l := .idle) known
    | waitP c next => rw [hp] at known; exact known.elim
    | signalDec c next | signalV c next =>
      rw [hp] at known
      cases c with
      | full => exact assertion_shape (l := .consumeSignal) known
      | empty => exact assertion_shape (l := .produceSignal) known
    | signalEnter next => rw [hp] at known; exact known.elim

/-- At an owner's label its assertion holds. -/
theorem owner_assertion (h : (outline id size calls).Holds st tok) {i : ι} {l : Label}
    (hp : st.pos i = .at l) (inside : l.inside) : assertion id size l st.shared := by
  have owned : tok = .owned i := (h.token.holds i).1 (by rw [hp]; exact inside)
  have known := h.known
  rw [owned, Outline.known, hp] at known
  exact known

/-- With no body running, the buffer is settled. -/
theorem settled_of_idle (h : (outline id size calls).Holds st tok)
    (idle : ∀ i, ¬ (st.pos i).Holds Label.inside) : ∃ q, Settled id size st.shared q := by
  have known := h.known
  cases tok with
  | free => exact known
  | posted c =>
    cases c with
    | full => exact known.imp fun _ left => left.1
    | empty => exact known.elim fun x ⟨q, settled⟩ => ⟨x :: q, settled⟩
  | owned i => exact absurd ((h.token.holds i).2 rfl) (idle i)

/-- The outline in a state gives the client's view of it. -/
theorem FifoQueue.of_outline (h : (outline id size calls).Holds st tok) : FifoQueue id size st := by
  obtain ⟨slots, lo, count, next, pending, shape, bound⟩ := known_shape h
  refine ⟨fun i j => h.token.unique, ?_, ?_, ?_, ?_, ⟨pending, shape.history.symm⟩, ?_⟩
  · rw [shape.counter]
    exact Int.natCast_nonneg count
  · rw [shape.counter]
    exact_mod_cast bound
  · intro i item hp
    obtain ⟨⟨q, settled, room⟩, -⟩ := owner_assertion h hp trivial
    rw [settled.in_eq]
    exact ⟨Nat.mod_lt _ (Nat.zero_lt_of_lt settled.out_lt), settled.ring.blank_next room⟩
  · intro i hp
    obtain ⟨x, q, settled⟩ := owner_assertion h hp trivial
    rw [settled.head]
    refine ⟨settled.out_lt, ⟨q, settled.history⟩, fun notMinusOne isMinusOne => notMinusOne ?_⟩
    have drawn := settled.drawn x (by rw [settled.history]; simp)
    unfold MakeProduct at drawn
    omega
  · intro idle
    obtain ⟨q, settled⟩ := settled_of_idle h idle
    exact ⟨q, settled.history, settled.counter, settled.ring.items⟩

end Reached

/-- **Bounded FIFO under every schedule.** Any number of threads calling `produce` and `consume`,
interleaved at single semaphore operations and statements, keep the buffer a FIFO queue. -/
theorem monitor_fifo [DecidableEq ι] (id : Int) (size : Nat) (positive : 0 < size)
    (calls : ι → Operation → Prop) (st : State ι IntegerBufferMonitor Condition Label)
    (reached : Reaches (code id size calls) start st) : FifoQueue id size st := by
  have kept : ∃ tok, (outline id size calls).Holds st tok := by
    refine Outline.sound _ ?_ ⟨[], Settled.new positive⟩ reached
    exact fun _ outside => outside
  obtain ⟨tok, holds⟩ := kept
  exact .of_outline holds

/-- Two threads on three slots, the first of which has entered its `produce`. -/
theorem monitor_fifo_entered :
    FifoQueue 1 3 { (start : State Bool IntegerBufferMonitor Condition Label).move true
      (.at .produceTest) with s := 0 } := by
  refine monitor_fifo 1 3 (by decide) (fun _ _ => True) _ ⟨[true, true], ?_⟩
  have called : Step (code 1 3 fun _ _ => True) start true (start.move true (.at .produceEnter)) :=
    .pause rfl rfl (.inl ⟨trivial, rfl⟩)
  have entered : Step (code 1 3 fun _ _ => True) (start.move true (.at .produceEnter)) true _ :=
    .enter rfl rfl (by decide)
  simpa [State.move, start, State.initial] using (Run.single called).snoc entered

end SoiExercises.Monitor
