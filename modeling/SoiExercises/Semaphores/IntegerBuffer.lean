import Mathlib.Logic.Function.Basic
import SoiExercises.Lib.Run

/-!
# `IntegerBuffer` on shared memory (exercise 3)

`produce` and `consume` one semaphore operation or one access to the shared memory at a time: a statement
such as `in = (in + 1) % size` reads `in` at one label and writes it at the next. `consume` repeats its
body for ever, and `produce` returns to its caller. `produced`, `consumed` and `unread` record the history;
no statement reads them.
-/

namespace SoiExercises.Semaphores

open SoiExercises.Lib

/-- The shared memory of a buffer (`in_` is the source's `in`), with the values of its three semaphores. -/
structure IntegerBuffer where
  size : Nat
  min : Int
  max : Int
  in_ : Nat
  out : Nat
  body : Nat → Int
  mutex : Nat
  empty : Nat
  full : Nat
  produced : List Int
  consumed : List Int
  /-- the item that has been stored in a slot and not been fetched since -/
  unread : Nat → Option Int

/-- The slots of the new shared memory hold anything. -/
def IntegerBuffer.create (size : Nat) (min max : Int) (body : Nat → Int) : IntegerBuffer where
  size := size
  min := min
  max := max
  in_ := 0
  out := 0
  body := body
  mutex := 1
  empty := size
  full := 0
  produced := []
  consumed := []
  unread := fun _ => none

/-- The points of `produce` and `consume` before an operation or an access; `product`, `slot` and `value`
are what the process has drawn or read. -/
inductive Label where
  | emptyP
  | produceMutexP
  | makeProduct
  | readIn (product : Int)
  | store (product : Int) (slot : Nat)
  | printIn
  | readNextIn
  | writeIn (value : Nat)
  | produceMutexV
  | fullV
  | fullP
  | consumeMutexP
  | readOut
  | fetch (slot : Nat)
  | printOut
  | readNextOut
  | writeOut (value : Nat)
  | consumeMutexV
  | emptyV
  deriving DecidableEq

/-- What the process does at a label, with the item that `makeProduct` draws, and where it goes on; there
is no next label when the function returns. An operation that blocks has no result. -/
def exec (choice : Int) : Label → IntegerBuffer → Option (IntegerBuffer × Option Label)
  | .emptyP, sh => if sh.empty = 0 then none else some ({ sh with empty := sh.empty - 1 }, some .produceMutexP)
  | .produceMutexP, sh => if sh.mutex = 0 then none else some ({ sh with mutex := sh.mutex - 1 }, some .makeProduct)
  | .makeProduct, sh => if sh.min ≤ choice ∧ choice ≤ sh.max then some (sh, some (.readIn choice)) else none
  | .readIn product, sh => some (sh, some (.store product sh.in_))
  | .store product slot, sh =>
    some ({ sh with
      body := Function.update sh.body slot product
      produced := sh.produced ++ [product]
      unread := Function.update sh.unread slot (some product) }, some .printIn)
  | .printIn, sh => some (sh, some .readNextIn)
  | .readNextIn, sh => some (sh, some (.writeIn sh.in_))
  | .writeIn value, sh => some ({ sh with in_ := (value + 1) % sh.size }, some .produceMutexV)
  | .produceMutexV, sh => some ({ sh with mutex := sh.mutex + 1 }, some .fullV)
  | .fullV, sh => some ({ sh with full := sh.full + 1 }, none)
  | .fullP, sh => if sh.full = 0 then none else some ({ sh with full := sh.full - 1 }, some .consumeMutexP)
  | .consumeMutexP, sh => if sh.mutex = 0 then none else some ({ sh with mutex := sh.mutex - 1 }, some .readOut)
  | .readOut, sh => some (sh, some (.fetch sh.out))
  | .fetch slot, sh =>
    some ({ sh with
      consumed := sh.consumed ++ [sh.body slot]
      unread := Function.update sh.unread slot none }, some .printOut)
  | .printOut, sh => some (sh, some .readNextOut)
  | .readNextOut, sh => some (sh, some (.writeOut sh.out))
  | .writeOut value, sh => some ({ sh with out := (value + 1) % sh.size }, some .consumeMutexV)
  | .consumeMutexV, sh => some ({ sh with mutex := sh.mutex + 1 }, some .emptyV)
  | .emptyV, sh => some ({ sh with empty := sh.empty + 1 }, some .fullP)

inductive Operation where
  | produce
  | consume
  deriving DecidableEq

/-- Where the function begins. -/
def Operation.entry : Operation → Label
  | produce => .emptyP
  | consume => .fullP

/-- A process in a function on a buffer, with the variable of its caller. -/
structure Place (β κ : Type) where
  buffer : β
  label : Label
  caller : κ

/-- The call of a function. -/
def Place.call {β κ : Type} (op : Operation) (b : β) (k : κ) : Place β κ := ⟨b, op.entry, k⟩

structure State (ι β κ : Type) where
  buffer : β → IntegerBuffer
  pos : ι → Place β κ

variable {ι β κ : Type} [DecidableEq ι] [DecidableEq β]

/-- One step of the process `i`. When its function returns, its caller makes the next call: `calls i k op b k'`
says that the caller, whose variable is `k`, may go on with `op` on the buffer `b` and `k'`. -/
inductive Step (calls : ι → κ → Operation → β → κ → Prop) : State ι β κ → ι → State ι β κ → Prop
  | go {st i b l k choice sh next} : st.pos i = ⟨b, l, k⟩ → exec choice l (st.buffer b) = some (sh, some next) →
      Step calls st i
        { buffer := Function.update st.buffer b sh, pos := Function.update st.pos i ⟨b, next, k⟩ }
  | ret {st i b l k choice sh op b' k'} : st.pos i = ⟨b, l, k⟩ → exec choice l (st.buffer b) = some (sh, none) →
      calls i k op b' k' →
      Step calls st i
        { buffer := Function.update st.buffer b sh, pos := Function.update st.pos i (.call op b' k') }

/-- New buffers of the given sizes, and every process at a call. -/
structure Initial (size : β → Nat) (st : State ι β κ) : Prop where
  buffer : ∀ b, ∃ min max body, st.buffer b = .create (size b) min max body
  pos : ∀ i, ∃ op b k, st.pos i = .call op b k

/-- The states that some interleaving of the processes leads to. -/
def Reaches (size : β → Nat) (calls : ι → κ → Operation → β → κ → Prop) (st : State ι β κ) : Prop :=
  ∃ st₀ schedule, Initial size st₀ ∧ Run (Step calls) st₀ schedule st

end SoiExercises.Semaphores
