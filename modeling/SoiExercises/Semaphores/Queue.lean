import SoiExercises.Lib.Ring
import SoiExercises.Lib.Tally
import SoiExercises.Semaphores.IntegerBuffer

/-!
# What the processes hold of a buffer

A process between `empty.p` and `full.v` holds room for an item until it has stored one, and then the item;
a process between `full.p` and `empty.v` holds an item until it has fetched it, and then its room. With the
values of the two semaphores these add up to the buffer (`Held`), and the mutex adds up to one with the
processes inside. The ring of the unread items is between two accesses in one of the states of `assertion`.
-/

namespace SoiExercises.Semaphores

open SoiExercises.Lib

namespace Label

/-- Between `mutex.p` and `mutex.v`. -/
def inside : Label → Nat
  | .emptyP | .produceMutexP | .fullV | .fullP | .consumeMutexP | .emptyV => 0
  | _ => 1

/-- Room for an item that is going to be stored. -/
def reserved : Label → Nat
  | .produceMutexP | .makeProduct | .readIn _ | .store _ _ => 1
  | _ => 0

/-- An item that has been stored before `full.v`. -/
def stored : Label → Nat
  | .printIn | .readNextIn | .writeIn _ | .produceMutexV | .fullV => 1
  | _ => 0

/-- An item that is going to be fetched. -/
def claimed : Label → Nat
  | .consumeMutexP | .readOut | .fetch _ => 1
  | _ => 0

/-- Room for an item that has been fetched before `empty.v`. -/
def fetched : Label → Nat
  | .printOut | .readNextOut | .writeOut _ | .consumeMutexV | .emptyV => 1
  | _ => 0

end Label

/-- The weight of what follows a step; a function that returns holds nothing. -/
def after (weight : Label → Nat) : Option Label → Nat
  | none => 0
  | some l => weight l

/-- The buffer between two accesses: the unread items `q` are in the ring from `lo` on, and `in` is at
`next`. -/
structure Layout (n : Nat) (sh : IntegerBuffer) (q : List Int) (lo next : Nat) : Prop where
  size : sh.size = n
  out_lt : sh.out < n
  history : sh.produced = sh.consumed ++ q
  ring : Ring n none sh.unread lo (q.map some)
  body : ∀ slot item, sh.unread slot = some item → sh.body slot = item
  in_eq : sh.in_ = next

/-- The buffer with nobody inside, holding the items `q`. -/
abbrev Settled (n : Nat) (sh : IntegerBuffer) (q : List Int) : Prop :=
  Layout n sh q sh.out ((sh.out + q.length) % n)

/-- The buffer for a process at a label inside; at the labels outside it is the one with nobody inside. -/
def assertion (n : Nat) : Label → IntegerBuffer → Prop
  | .store _ slot, sh => ∃ q, Settled n sh q ∧ slot = sh.in_
  | .printIn, sh | .readNextIn, sh => ∃ q x, Layout n sh (q ++ [x]) sh.out ((sh.out + q.length) % n)
  | .writeIn value, sh => ∃ q x, Layout n sh (q ++ [x]) sh.out ((sh.out + q.length) % n) ∧ value = sh.in_
  | .fetch slot, sh => ∃ q, Settled n sh q ∧ slot = sh.out
  | .printOut, sh | .readNextOut, sh => ∃ q, Layout n sh q ((sh.out + 1) % n) ((sh.out + (q.length + 1)) % n)
  | .writeOut value, sh =>
    ∃ q, Layout n sh q ((sh.out + 1) % n) ((sh.out + (q.length + 1)) % n) ∧ value = sh.out
  | _, sh => ∃ q, Settled n sh q

section Access

variable {n : Nat} {sh : IntegerBuffer} {q : List Int} {x : Int} {lo next : Nat}

theorem Settled.create {size : Nat} {min max : Int} {body : Nat → Int} (positive : 0 < size) :
    Settled size (.create size min max body) [] where
  size := rfl
  out_lt := positive
  history := rfl
  ring := .empty
  body := nofun
  in_eq := (Nat.zero_mod size).symm

theorem Layout.length (h : Layout n sh q lo next) : sh.produced.length = sh.consumed.length + q.length := by
  rw [h.history, List.length_append]

/-- The semaphores do not matter. -/
theorem Layout.semaphores {mutex empty full : Nat} (h : Layout n sh q lo next) :
    Layout n { sh with mutex := mutex, empty := empty, full := full } q lo next := { h with }

/-- `body[in] = product` -/
theorem Settled.store (h : Settled n sh q) (room : q.length < n) :
    Layout n { sh with
      body := Function.update sh.body sh.in_ x
      produced := sh.produced ++ [x]
      unread := Function.update sh.unread sh.in_ (some x) } (q ++ [x]) sh.out ((sh.out + q.length) % n) where
  size := h.size
  out_lt := h.out_lt
  history := by rw [h.history, List.append_assoc]
  ring := by
    have pushed := h.ring.push (by rwa [List.length_map]) (some x)
    rw [List.length_map] at pushed
    rw [h.in_eq, List.map_append]
    exact pushed
  body slot item unread := by
    dsimp only at unread ⊢
    by_cases same : slot = sh.in_
    · subst same
      rw [Function.update_self] at unread ⊢
      exact Option.some.inj unread
    · rw [Function.update_of_ne same] at unread ⊢
      exact h.body slot item unread
  in_eq := h.in_eq

/-- `in = (in + 1) % size` -/
theorem Layout.writeIn (h : Layout n sh (q ++ [x]) sh.out ((sh.out + q.length) % n)) :
    Settled n { sh with in_ := (sh.in_ + 1) % sh.size } (q ++ [x]) :=
  { h with
    in_eq := by
      rw [h.size, h.in_eq, Nat.mod_add_mod, List.length_append, List.length_singleton, Nat.add_assoc] }

/-- `int product = body[out]` reads the oldest item. -/
theorem Settled.head (h : Settled n sh (x :: q)) : sh.unread sh.out = some x := by
  have first := h.ring.head
  rwa [Nat.mod_eq_of_lt h.out_lt] at first

theorem Settled.fetch (h : Settled n sh (x :: q)) :
    Layout n { sh with
      consumed := sh.consumed ++ [sh.body sh.out]
      unread := Function.update sh.unread sh.out none } q ((sh.out + 1) % n) ((sh.out + (q.length + 1)) % n) where
  size := h.size
  out_lt := h.out_lt
  history := by
    rw [h.body _ _ h.head, h.history, List.append_assoc]
    rfl
  ring := by
    have popped := h.ring.pop
    rwa [Nat.mod_eq_of_lt h.out_lt] at popped
  body slot item unread := by
    dsimp only at unread ⊢
    by_cases same : slot = sh.out
    · subst same
      rw [Function.update_self] at unread
      cases unread
    · rw [Function.update_of_ne same] at unread
      exact h.body slot item unread
  in_eq := h.in_eq

/-- `out = (out + 1) % size` -/
theorem Layout.writeOut (h : Layout n sh q ((sh.out + 1) % n) ((sh.out + (q.length + 1)) % n)) :
    Settled n { sh with out := (sh.out + 1) % sh.size } q := by
  have size := h.size
  refine { h with out_lt := ?_, ring := ?_, in_eq := ?_ }
  · rw [size]
    exact Nat.mod_lt _ (Nat.zero_lt_of_lt h.out_lt)
  · rw [size]
    exact h.ring
  · rw [size, h.in_eq, Nat.mod_add_mod]
    congr 1
    omega

end Access

section Exec

variable {choice : Int} {n : Nat} {l : Label} {sh sh' : IntegerBuffer} {next : Option Label}

/-- **One step moves the semaphores** against what its process holds and what it has stored and fetched. -/
structure Balance (l : Label) (sh sh' : IntegerBuffer) (next : Option Label) : Prop where
  mutex : sh'.mutex + after Label.inside next = sh.mutex + l.inside
  items : sh'.produced.length + sh.consumed.length + sh.full + l.stored + l.claimed =
    sh.produced.length + sh'.consumed.length + sh'.full + after Label.stored next + after Label.claimed next
  room : sh'.produced.length + sh.consumed.length + sh'.empty + after Label.reserved next + after Label.fetched next =
    sh.produced.length + sh'.consumed.length + sh.empty + l.reserved + l.fetched

theorem exec_balance (step : exec choice l sh = some (sh', next)) : Balance l sh sh' next := by
  cases l <;> simp only [exec, Option.ite_none_left_eq_some, Option.ite_none_right_eq_some, Option.some.injEq,
    Prod.mk.injEq] at step
  case emptyP | produceMutexP | fullP | consumeMutexP =>
    obtain ⟨positive, rfl, rfl⟩ := step
    constructor
    all_goals simp only [after, Label.inside, Label.stored, Label.claimed, Label.reserved, Label.fetched]
    all_goals omega
  case produceMutexV | fullV | consumeMutexV | emptyV | store | fetch =>
    obtain ⟨rfl, rfl⟩ := step
    constructor
    all_goals simp only [after, Label.inside, Label.stored, Label.claimed, Label.reserved, Label.fetched,
      List.length_append, List.length_singleton]
    all_goals omega
  case makeProduct =>
    obtain ⟨-, rfl, rfl⟩ := step
    constructor
    all_goals rfl
  all_goals
    obtain ⟨rfl, rfl⟩ := step
    constructor
    all_goals rfl

/-- A step from outside to outside changes semaphores only. -/
theorem exec_outside (step : exec choice l sh = some (sh', next)) (outside : l.inside = 0)
    (stays : after Label.inside next = 0) :
    sh' = { sh with mutex := sh'.mutex, empty := sh'.empty, full := sh'.full } := by
  cases l <;> simp only [exec, Option.ite_none_left_eq_some, Option.ite_none_right_eq_some, Option.some.injEq,
    Prod.mk.injEq] at step
  case emptyP | fullP =>
    obtain ⟨-, rfl, rfl⟩ := step
    rfl
  case fullV | emptyV =>
    obtain ⟨rfl, rfl⟩ := step
    rfl
  case produceMutexP | consumeMutexP =>
    obtain ⟨-, rfl, rfl⟩ := step
    cases stays
  all_goals cases outside

/-- The assertions do not speak of the semaphores. -/
theorem assertion_semaphores {mutex empty full : Nat} (known : assertion n l sh) :
    assertion n l { sh with mutex := mutex, empty := empty, full := full } := by
  cases l with
  | store product slot =>
    obtain ⟨q, settled, same⟩ := known
    exact ⟨q, settled.semaphores, same⟩
  | printIn | readNextIn =>
    obtain ⟨q, x, layout⟩ := known
    exact ⟨q, x, layout.semaphores⟩
  | writeIn value =>
    obtain ⟨q, x, layout, same⟩ := known
    exact ⟨q, x, layout.semaphores, same⟩
  | fetch slot =>
    obtain ⟨q, settled, same⟩ := known
    exact ⟨q, settled.semaphores, same⟩
  | printOut | readNextOut =>
    obtain ⟨q, layout⟩ := known
    exact ⟨q, layout.semaphores⟩
  | writeOut value =>
    obtain ⟨q, layout, same⟩ := known
    exact ⟨q, layout.semaphores, same⟩
  | emptyP | produceMutexP | makeProduct | readIn _ | produceMutexV | fullV | fullP | consumeMutexP | readOut
  | consumeMutexV | emptyV =>
    obtain ⟨q, settled⟩ := known
    exact ⟨q, settled.semaphores⟩

/-- Outside the buffer is settled. -/
theorem assertion_outside (outside : l.inside = 0) : assertion n l sh ↔ ∃ q, Settled n sh q := by
  cases l with
  | emptyP | produceMutexP | fullV | fullP | consumeMutexP | emptyV => exact Iff.rfl
  | makeProduct | readIn _ | store _ _ | printIn | readNextIn | writeIn _ | produceMutexV | readOut | fetch _
  | printOut | readNextOut | writeOut _ | consumeMutexV => cases outside

theorem Label.inside_le (l : Label) : l.inside ≤ 1 := by
  cases l <;> simp [Label.inside]

/-- **One access keeps the assertions**, with room for what is stored and an item for what is fetched. -/
theorem exec_assertion (step : exec choice l sh = some (sh', next)) (known : assertion n l sh)
    (room : l.reserved = 1 → sh.produced.length < sh.consumed.length + n)
    (item : l.claimed = 1 → sh.consumed.length < sh.produced.length) :
    assertion n (next.getD .emptyP) sh' := by
  cases l <;> simp only [exec, Option.ite_none_left_eq_some, Option.ite_none_right_eq_some, Option.some.injEq,
    Prod.mk.injEq] at step
  case emptyP | produceMutexP | fullP | consumeMutexP =>
    obtain ⟨-, rfl, rfl⟩ := step
    obtain ⟨q, settled⟩ := known
    exact ⟨q, settled.semaphores⟩
  case produceMutexV | fullV | consumeMutexV | emptyV =>
    obtain ⟨rfl, rfl⟩ := step
    obtain ⟨q, settled⟩ := known
    exact ⟨q, settled.semaphores⟩
  case makeProduct =>
    obtain ⟨-, rfl, rfl⟩ := step
    exact known
  case readIn product =>
    obtain ⟨rfl, rfl⟩ := step
    obtain ⟨q, settled⟩ := known
    exact ⟨q, settled, rfl⟩
  case store product slot =>
    obtain ⟨rfl, rfl⟩ := step
    obtain ⟨q, settled, rfl⟩ := known
    have length := settled.length
    have fits := room rfl
    exact ⟨q, product, settled.store (by omega)⟩
  case printIn | printOut =>
    obtain ⟨rfl, rfl⟩ := step
    exact known
  case readNextIn =>
    obtain ⟨rfl, rfl⟩ := step
    obtain ⟨q, x, layout⟩ := known
    exact ⟨q, x, layout, rfl⟩
  case writeIn value =>
    obtain ⟨rfl, rfl⟩ := step
    obtain ⟨q, x, layout, rfl⟩ := known
    exact ⟨q ++ [x], layout.writeIn⟩
  case readOut =>
    obtain ⟨rfl, rfl⟩ := step
    obtain ⟨q, settled⟩ := known
    exact ⟨q, settled, rfl⟩
  case fetch slot =>
    obtain ⟨rfl, rfl⟩ := step
    obtain ⟨q, settled, rfl⟩ := known
    cases q with
    | nil =>
      have length := settled.length
      have some := item rfl
      simp only [List.length_nil] at length
      omega
    | cons x q => exact ⟨q, settled.fetch⟩
  case readNextOut =>
    obtain ⟨rfl, rfl⟩ := step
    obtain ⟨q, layout⟩ := known
    exact ⟨q, layout, rfl⟩
  case writeOut value =>
    obtain ⟨rfl, rfl⟩ := step
    obtain ⟨q, layout, rfl⟩ := known
    exact ⟨q, layout.writeOut⟩

end Exec

namespace Place

variable {β κ : Type} [DecidableEq β]

/-- What a process at a place holds of the buffer `b`. -/
def weight (w : Label → Nat) (b : β) (p : Place β κ) : Nat := if p.buffer = b then w p.label else 0

end Place

/-- Where a process goes on that did a step on the buffer `b`: at the next label, or at a new call. -/
def Follows {β κ : Type} (b : β) : Option Label → Place β κ → Prop
  | some l, p => p.buffer = b ∧ p.label = l
  | none, p => ∃ op : Operation, p.label = op.entry

/-- A process holds nothing at a call. -/
def Vanishes (w : Label → Nat) : Prop := ∀ op : Operation, w op.entry = 0

theorem vanishes_inside : Vanishes Label.inside := by
  rintro (_ | _) <;> rfl

theorem vanishes_reserved : Vanishes Label.reserved := by
  rintro (_ | _) <;> rfl

theorem vanishes_stored : Vanishes Label.stored := by
  rintro (_ | _) <;> rfl

theorem vanishes_claimed : Vanishes Label.claimed := by
  rintro (_ | _) <;> rfl

theorem vanishes_fetched : Vanishes Label.fetched := by
  rintro (_ | _) <;> rfl

theorem Follows.weight {β κ : Type} [DecidableEq β] {b b' : β} {next : Option Label} {p : Place β κ} {w : Label → Nat}
    (h : Follows b next p) (vanishes : Vanishes w) : p.weight w b' = if b = b' then after w next else 0 := by
  unfold Place.weight
  cases next with
  | none =>
    obtain ⟨op, entry⟩ := h
    rw [entry, vanishes op, ite_self]
    exact (ite_self 0).symm
  | some l =>
    obtain ⟨rfl, rfl⟩ := h
    rfl

variable {ι β κ : Type} [DecidableEq ι] [DecidableEq β]

/-- A step is an access to one buffer. -/
theorem Step.access {calls : ι → κ → Operation → β → κ → Prop} {st st' : State ι β κ} {i : ι} (step : Step calls st i st') :
    ∃ b l k choice sh next p, st.pos i = ⟨b, l, k⟩ ∧ exec choice l (st.buffer b) = some (sh, next) ∧
      st'.buffer = Function.update st.buffer b sh ∧ st'.pos = Function.update st.pos i p ∧ Follows b next p := by
  cases step with
  | go place done => exact ⟨_, _, _, _, _, _, _, place, done, rfl, rfl, rfl, rfl⟩
  | @ret _ _ _ _ _ op _ _ place done _ => exact ⟨_, _, _, _, _, none, _, place, done, rfl, rfl, op, rfl⟩

variable [Fintype ι]

/-- **What holds of a buffer** of `n` slots in every state: what the processes hold of it adds up, and the one
inside, if there is one, knows how the ring is. -/
structure Held (n : Nat) (b : β) (st : State ι β κ) : Prop where
  mutex : (st.buffer b).mutex + tally (Place.weight Label.inside b) st.pos = 1
  items : (st.buffer b).produced.length = (st.buffer b).consumed.length + (st.buffer b).full +
    tally (Place.weight Label.stored b) st.pos + tally (Place.weight Label.claimed b) st.pos
  room : (st.buffer b).consumed.length + n = (st.buffer b).produced.length + (st.buffer b).empty +
    tally (Place.weight Label.reserved b) st.pos + tally (Place.weight Label.fetched b) st.pos
  known : ∀ i, (st.pos i).buffer = b → (st.pos i).label.inside = 1 → assertion n (st.pos i).label (st.buffer b)
  free : tally (Place.weight Label.inside b) st.pos = 0 → ∃ q, Settled n (st.buffer b) q

namespace Held

variable {calls : ι → κ → Operation → β → κ → Prop} {n : Nat} {b : β} {st st' : State ι β κ} {i j : ι}

/-- At most one process is inside. -/
theorem exclusive (h : Held n b st) (hi : (st.pos i).weight Label.inside b = 1)
    (hj : (st.pos j).weight Label.inside b = 1) : i = j := by
  by_contra ne
  have two := tally_two (Place.weight Label.inside b) st.pos ne
  have one := h.mutex
  omega

omit [DecidableEq ι] in
theorem le_tally (w : Label → Nat) (at_b : (st.pos i).buffer = b) :
    w (st.pos i).label ≤ tally (Place.weight w b) st.pos := by
  have le := Lib.le_tally (Place.weight w b) st.pos i
  unfold Place.weight at le
  rwa [if_pos at_b] at le

omit [DecidableEq ι] in
theorem weight_le {l : Label} {k : κ} (place : st.pos i = ⟨b, l, k⟩) (w : Label → Nat) :
    w l ≤ tally (Place.weight w b) st.pos := by
  have le := le_tally w (congrArg Place.buffer place)
  rwa [place] at le

/-- What a step changes of what the processes hold of a buffer. -/
theorem tally_step (b : β) {c : β} {l : Label} {k : κ} {next : Option Label} {p : Place β κ} {w : Label → Nat}
    (vanishes : Vanishes w) (place : st.pos i = ⟨c, l, k⟩) (pos : st'.pos = Function.update st.pos i p)
    (follows : Follows c next p) :
    tally (Place.weight w b) st'.pos + (if c = b then w l else 0) =
      tally (Place.weight w b) st.pos + (if c = b then after w next else 0) := by
  have moved := tally_update (Place.weight w b) st.pos i p
  have before : (st.pos i).weight w b = if c = b then w l else 0 := by
    rw [place]
    rfl
  rwa [follows.weight vanishes, before, ← pos] at moved

/-- A step on another buffer. -/
theorem other {c : β} {l : Label} {k : κ} {sh : IntegerBuffer} {next : Option Label} {p : Place β κ} (h : Held n b st)
    (apart : c ≠ b) (place : st.pos i = ⟨c, l, k⟩) (buffer : st'.buffer = Function.update st.buffer c sh)
    (pos : st'.pos = Function.update st.pos i p) (follows : Follows c next p) : Held n b st' := by
  have same : st'.buffer b = st.buffer b := by
    rw [buffer, Function.update_of_ne apart.symm]
  have count {w : Label → Nat} (vanishes : Vanishes w) :
      tally (Place.weight w b) st'.pos = tally (Place.weight w b) st.pos := by
    have moved := tally_step b vanishes place pos follows
    rwa [if_neg apart, if_neg apart] at moved
  refine ⟨?_, ?_, ?_, fun j at_b inside => ?_, fun nobody => ?_⟩
  · rw [same, count vanishes_inside]
    exact h.mutex
  · rw [same, count vanishes_stored, count vanishes_claimed]
    exact h.items
  · rw [same, count vanishes_reserved, count vanishes_fetched]
    exact h.room
  · have others : j ≠ i := by
      rintro rfl
      rw [pos, Function.update_self] at at_b inside
      have weight : p.weight Label.inside b = 1 := (if_pos at_b).trans inside
      rw [follows.weight vanishes_inside, if_neg apart] at weight
      cases weight
    rw [pos, Function.update_of_ne others] at at_b inside ⊢
    rw [same]
    exact h.known j at_b inside
  · rw [count vanishes_inside] at nobody
    rw [same]
    exact h.free nobody

section Own

variable {l : Label} {k : κ} {choice : Int} {sh : IntegerBuffer} {next : Option Label} {p : Place β κ}

omit [DecidableEq ι] in
/-- The mover knows the ring after its access if it was inside before, or if nobody was. -/
theorem knows (h : Held n b st) (place : st.pos i = ⟨b, l, k⟩) (done : exec choice l (st.buffer b) = some (sh, next))
    (access : l.inside = 1 ∨ tally (Place.weight Label.inside b) st.pos = 0) : assertion n (next.getD .emptyP) sh := by
  have known : assertion n l (st.buffer b) := by
    rcases access with inside | nobody
    · have known := h.known i
      rw [place] at known
      exact known rfl inside
    · have outside := weight_le place Label.inside
      exact (assertion_outside (by omega)).2 (h.free nobody)
  have room := h.room
  have items := h.items
  refine exec_assertion done known (fun reserved => ?_) (fun claimed => ?_)
  · have le := weight_le place Label.reserved
    omega
  · have le := weight_le place Label.claimed
    omega

omit [DecidableEq ι] in
/-- Somebody else who is inside keeps what it knows. -/
theorem bystander (h : Held n b st) (place : st.pos i = ⟨b, l, k⟩)
    (done : exec choice l (st.buffer b) = some (sh, next)) (mover : j ≠ i) (at_b : (st.pos j).buffer = b)
    (inside : (st.pos j).label.inside = 1) : assertion n (st.pos j).label sh := by
  have weight : (st.pos j).weight Label.inside b = 1 := (if_pos at_b).trans inside
  have mine : (st.pos i).weight Label.inside b = l.inside := by
    rw [place]
    exact if_pos rfl
  have two := tally_two (Place.weight Label.inside b) st.pos mover
  have one := h.mutex
  have mutex := (exec_balance done).mutex
  have outside : l.inside = 0 := by omega
  have stays : after Label.inside next = 0 := by omega
  rw [exec_outside done outside stays]
  exact assertion_semaphores (h.known j at_b inside)

/-- **A step on the buffer.** -/
theorem own (h : Held n b st) (place : st.pos i = ⟨b, l, k⟩) (done : exec choice l (st.buffer b) = some (sh, next))
    (buffer : st'.buffer = Function.update st.buffer b sh) (pos : st'.pos = Function.update st.pos i p)
    (follows : Follows b next p) : Held n b st' := by
  have new : st'.buffer b = sh := by
    rw [buffer, Function.update_self]
  have count {w : Label → Nat} (vanishes : Vanishes w) :
      tally (Place.weight w b) st'.pos + w l = tally (Place.weight w b) st.pos + after w next := by
    have moved := tally_step b vanishes place pos follows
    rwa [if_pos rfl, if_pos rfl] at moved
  have inside' := count vanishes_inside
  have le_one := Label.inside_le l
  refine ⟨?_, ?_, ?_, fun j at_b inside => ?_, fun nobody => ?_⟩
  · have one := h.mutex
    have mutex := (exec_balance done).mutex
    rw [new]
    omega
  · have held := h.items
    have items := (exec_balance done).items
    have stored' := count vanishes_stored
    have claimed' := count vanishes_claimed
    rw [new]
    omega
  · have room := h.room
    have space := (exec_balance done).room
    have reserved' := count vanishes_reserved
    have fetched' := count vanishes_fetched
    rw [new]
    omega
  · rw [new]
    by_cases mover : j = i
    · subst mover
      rw [pos, Function.update_self] at at_b inside ⊢
      have weight : p.weight Label.inside b = 1 := (if_pos at_b).trans inside
      rw [follows.weight vanishes_inside, if_pos rfl] at weight
      cases next with
      | none => cases weight
      | some l' =>
        obtain ⟨-, label⟩ := follows
        rw [label]
        refine h.knows place done ?_
        have one := h.mutex
        have mutex := (exec_balance done).mutex
        omega
    · rw [pos, Function.update_of_ne mover] at at_b inside ⊢
      exact h.bystander place done mover at_b inside
  · have own := weight_le place Label.inside
    have stays : after Label.inside next = 0 := by omega
    rw [new, ← @assertion_outside _ (next.getD .emptyP)]
    · exact h.knows place done (by omega)
    · cases next with
      | none => rfl
      | some l' => exact stays

end Own

/-- **Every step keeps what holds of a buffer.** -/
theorem step (h : Held n b st) (step : Step calls st i st') : Held n b st' := by
  obtain ⟨c, l, k, choice, sh, next, p, place, done, buffer, pos, follows⟩ := step.access
  by_cases here : c = b
  · subst here
    exact h.own place done buffer pos follows
  · exact h.other here place buffer pos follows

omit [DecidableEq ι] in
theorem initial {size : β → Nat} (initial : Initial size st) (positive : 0 < size b) : Held (size b) b st := by
  obtain ⟨min, max, body, new⟩ := initial.buffer b
  have count {w : Label → Nat} (vanishes : Vanishes w) : tally (Place.weight w b) st.pos = 0 := by
    rw [tally_eq_zero]
    intro i
    obtain ⟨op, c, k, call⟩ := initial.pos i
    unfold Place.weight
    rw [call]
    show (if c = b then w op.entry else 0) = 0
    rw [vanishes op, ite_self]
  refine ⟨?_, ?_, ?_, fun i _ inside => ?_, fun _ => ?_⟩
  · rw [new, count vanishes_inside]
    rfl
  · rw [new, count vanishes_stored, count vanishes_claimed]
    rfl
  · rw [new, count vanishes_reserved, count vanishes_fetched]
    show 0 + size b = 0 + size b + 0 + 0
    omega
  · obtain ⟨op, c, k, call⟩ := initial.pos i
    rw [call] at inside
    cases op <;> cases inside
  · rw [new]
    exact ⟨[], .create positive⟩

/-- **Every state that is reached** has the invariant for every buffer with a slot. -/
theorem reached {size : β → Nat} (reached : Reaches size calls st) (positive : 0 < size b) : Held (size b) b st := by
  obtain ⟨st₀, schedule, start, run⟩ := reached
  have kept : Held (size b) b st := run.invariant Held.step (Held.initial start positive)
  exact kept

end Held

end SoiExercises.Semaphores
