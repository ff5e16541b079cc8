import Mathlib.Data.Fintype.BigOperators
import SoiExercises.Semaphores.Queue

/-!
# The semaphore buffer is a bounded queue

What a client relies on, in every state that an interleaving of any number of processes leads to.
-/

namespace SoiExercises.Semaphores

open SoiExercises.Lib

/-- Between `empty.p` and `full.v`. -/
def Label.Producing : Label → Prop
  | .produceMutexP | .makeProduct | .readIn _ | .store _ _ | .printIn | .readNextIn | .writeIn _ | .produceMutexV
  | .fullV => True
  | _ => False

/-- Between `full.p` and `empty.v`. -/
def Label.Consuming : Label → Prop
  | .consumeMutexP | .readOut | .fetch _ | .printOut | .readNextOut | .writeOut _ | .consumeMutexV | .emptyV => True
  | _ => False

/-- Between `mutex.p` and `mutex.v`. -/
def Label.Inside : Label → Prop
  | .makeProduct | .readIn _ | .store _ _ | .printIn | .readNextIn | .writeIn _ | .produceMutexV
  | .readOut | .fetch _ | .printOut | .readNextOut | .writeOut _ | .consumeMutexV => True
  | _ => False

instance : DecidablePred Label.Producing := fun l => by
  cases l <;> unfold Label.Producing <;> infer_instance

instance : DecidablePred Label.Consuming := fun l => by
  cases l <;> unfold Label.Consuming <;> infer_instance

instance : DecidablePred Label.Inside := fun l => by
  cases l <;> unfold Label.Inside <;> infer_instance

variable {ι β κ : Type} [DecidableEq ι] [DecidableEq β]

/-- A bounded queue of `n` items: at most one process inside, an item that nobody has consumed never overwritten,
a slot never read that has not been written since its item was consumed, every slot accounted for, and the
items consumed in the order they were produced in. -/
structure BoundedQueue [Fintype ι] (n : Nat) (b : β) (st : State ι β κ) : Prop where
  exclusive : ∀ i j, (st.pos i).buffer = b → (st.pos i).label.Inside → (st.pos j).buffer = b →
    (st.pos j).label.Inside → i = j
  store_free : ∀ i product slot, (st.pos i).buffer = b → (st.pos i).label = .store product slot →
    slot < n ∧ (st.buffer b).unread slot = none
  fetch_unread : ∀ i slot, (st.pos i).buffer = b → (st.pos i).label = .fetch slot →
    slot < n ∧ (st.buffer b).unread slot = some ((st.buffer b).body slot)
  slots : (st.buffer b).empty + (st.buffer b).full +
    (Finset.univ.filter fun i => (st.pos i).buffer = b ∧ (st.pos i).label.Producing).card +
    (Finset.univ.filter fun i => (st.pos i).buffer = b ∧ (st.pos i).label.Consuming).card = n
  consumed_prefix : (st.buffer b).consumed <+: (st.buffer b).produced

theorem Label.inside_eq_one {l : Label} : l.inside = 1 ↔ l.Inside := by
  cases l <;> simp [Label.inside, Label.Inside]

theorem Label.producing_eq (l : Label) : l.reserved + l.stored = if l.Producing then 1 else 0 := by
  cases l <;> simp [Label.reserved, Label.stored, Label.Producing]

theorem Label.consuming_eq (l : Label) : l.claimed + l.fetched = if l.Consuming then 1 else 0 := by
  cases l <;> simp [Label.claimed, Label.fetched, Label.Consuming]

/-- The ring, whatever the process is doing. -/
theorem assertion_layout {n : Nat} {l : Label} {sh : IntegerBuffer} (known : assertion n l sh) :
    ∃ q lo next, Layout n sh q lo next := by
  cases l with
  | store _ _ | fetch _ =>
    obtain ⟨q, settled, -⟩ := known
    exact ⟨q, _, _, settled⟩
  | printIn | readNextIn =>
    obtain ⟨q, x, layout⟩ := known
    exact ⟨_, _, _, layout⟩
  | writeIn _ =>
    obtain ⟨q, x, layout, -⟩ := known
    exact ⟨_, _, _, layout⟩
  | printOut | readNextOut =>
    obtain ⟨q, layout⟩ := known
    exact ⟨q, _, _, layout⟩
  | writeOut _ =>
    obtain ⟨q, layout, -⟩ := known
    exact ⟨q, _, _, layout⟩
  | emptyP | produceMutexP | makeProduct | readIn _ | produceMutexV | fullV | fullP | consumeMutexP | readOut
  | consumeMutexV | emptyV =>
    obtain ⟨q, settled⟩ := known
    exact ⟨q, _, _, settled⟩

namespace Held

variable [Fintype ι] {n : Nat} {b : β} {st : State ι β κ} {i : ι}

omit [DecidableEq ι] in
/-- The ring, wherever the processes are. -/
theorem layout (h : Held n b st) : ∃ q lo next, Layout n (st.buffer b) q lo next := by
  by_cases nobody : tally (Place.weight Label.inside b) st.pos = 0
  · obtain ⟨q, settled⟩ := h.free nobody
    exact ⟨q, _, _, settled⟩
  · obtain ⟨i, inside⟩ := exists_of_tally_pos (Nat.pos_of_ne_zero nobody)
    unfold Place.weight at inside
    split at inside
    case isTrue at_b =>
      have le := Label.inside_le (st.pos i).label
      exact assertion_layout (h.known i at_b (by omega))
    case isFalse => omega

omit [DecidableEq ι] in
/-- Who is about to store has room. -/
theorem store_free (h : Held n b st) {product : Int} {slot : Nat} (at_b : (st.pos i).buffer = b)
    (label : (st.pos i).label = .store product slot) : slot < n ∧ (st.buffer b).unread slot = none := by
  have known := h.known i at_b
  have reserved := le_tally Label.reserved at_b
  rw [label] at known reserved
  obtain ⟨q, settled, rfl⟩ := known rfl
  have room := h.room
  have length := settled.length
  have free : q.length < n := by
    simp only [Label.reserved] at reserved
    omega
  have blank := settled.ring.blank_next (by rwa [List.length_map])
  rw [List.length_map] at blank
  rw [settled.in_eq]
  exact ⟨Nat.mod_lt _ (Nat.zero_lt_of_lt free), blank⟩

omit [DecidableEq ι] in
/-- Who is about to fetch has an item. -/
theorem fetch_unread (h : Held n b st) {slot : Nat} (at_b : (st.pos i).buffer = b)
    (label : (st.pos i).label = .fetch slot) :
    slot < n ∧ (st.buffer b).unread slot = some ((st.buffer b).body slot) := by
  have known := h.known i at_b
  have claimed := le_tally Label.claimed at_b
  rw [label] at known claimed
  obtain ⟨q, settled, rfl⟩ := known rfl
  have items := h.items
  have length := settled.length
  cases q with
  | nil =>
    simp only [Label.claimed, List.length_nil] at claimed length
    omega
  | cons x q =>
    rw [settled.body _ _ settled.head]
    exact ⟨settled.out_lt, settled.head⟩

omit [DecidableEq ι] in
theorem count (st : State ι β κ) (b : β) (P : Label → Prop) [DecidablePred P] (w w' : Label → Nat)
    (eq : ∀ l, w l + w' l = if P l then 1 else 0) :
    (Finset.univ.filter fun i => (st.pos i).buffer = b ∧ P (st.pos i).label).card =
      tally (Place.weight w b) st.pos + tally (Place.weight w' b) st.pos := by
  rw [← tally_add, ← tally_indicator (P := fun p : Place β κ => p.buffer = b ∧ P p.label)]
  congr 1
  funext p
  unfold Place.weight
  by_cases here : p.buffer = b
  · rw [if_pos here, if_pos here, eq]
    simp only [here, true_and]
  · rw [if_neg here, if_neg here, if_neg fun both => here both.1]

/-- What holds of a buffer gives the client's view of it. -/
theorem bounded (h : Held n b st) : BoundedQueue n b st := by
  refine ⟨?_, ?_, ?_, ?_, ?_⟩
  · intro i j hi insideI hj insideJ
    exact h.exclusive ((if_pos hi).trans (Label.inside_eq_one.2 insideI))
      ((if_pos hj).trans (Label.inside_eq_one.2 insideJ))
  · intro i product slot at_b label
    exact h.store_free at_b label
  · intro i slot at_b label
    exact h.fetch_unread at_b label
  · have producing := count st b _ _ _ Label.producing_eq
    have consuming := count st b _ _ _ Label.consuming_eq
    have items := h.items
    have room := h.room
    omega
  · obtain ⟨q, lo, next, layout⟩ := h.layout
    rw [layout.history]
    exact List.prefix_append _ _

end Held

/-- **The semaphore buffer is a bounded queue under every schedule.** Finitely many processes that produce into
and consume from buffers in any way keep every buffer with a slot one. -/
theorem semaphore_fifo [Fintype ι] (size : β → Nat) (calls : ι → κ → Operation → β → κ → Prop) (b : β)
    (positive : 0 < size b) (st : State ι β κ) (reached : Reaches size calls st) : BoundedQueue (size b) b st := by
  have held : Held (size b) b st := Held.reached reached positive
  exact held.bounded

/-- Two processes on three slots, the first of which has done `empty.p` of its `produce`. -/
theorem semaphore_fifo_entered :
    BoundedQueue 3 () (⟨fun _ => { IntegerBuffer.create 3 10 19 fun _ => 0 with empty := 2 },
      fun i => if i then ⟨(), .produceMutexP, ()⟩ else .call .consume () ()⟩ : State Bool Unit Unit) := by
  let st : State Bool Unit Unit :=
    ⟨fun _ => .create 3 10 19 fun _ => 0, fun i => .call (if i then .produce else .consume) () ()⟩
  have start : Initial (fun _ => 3) st := ⟨fun _ => ⟨_, _, _, rfl⟩, fun _ => ⟨_, _, _, rfl⟩⟩
  have place : st.pos true = ⟨(), .emptyP, ()⟩ := rfl
  have done : exec 0 .emptyP (st.buffer ()) =
      some ({ IntegerBuffer.create 3 10 19 fun _ => 0 with empty := 2 }, some .produceMutexP) := rfl
  have entered : Step (fun _ _ _ _ _ => True) st true _ := .go place done
  refine semaphore_fifo (fun _ => 3) (fun _ _ _ _ _ => True) () (by decide) _ ⟨st, [true], start, ?_⟩
  convert Run.single entered using 2
  · funext b
    cases b
    rfl
  · funext i
    cases i <;> rfl

end SoiExercises.Semaphores
