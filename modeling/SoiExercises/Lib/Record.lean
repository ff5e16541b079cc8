import Mathlib.Algebra.Group.Nat.Defs
import Mathlib.Data.List.Basic
import Mathlib.Data.Nat.Digits.Defs
import Mathlib.Logic.Function.Basic

/-!
# Fixed-size records in a byte store

A store is a function from positions to bytes. A `Codec` lays the values of a type out in a fixed number
of consecutive bytes; the codecs of byte arrays and of 64-bit words are put together field by field for
a structure. A record that has been written is read back (`readAt_writeAt`), and records that lie
elsewhere are what they were (`readAt_writeAt_of_disjoint`).
-/

namespace SoiExercises.Lib

universe u v

abbrev Store := Nat → UInt8

/-- The bytes from `off` on. -/
def Store.after (d : Store) (off : Nat) : Store := fun k => d (off + k)

/-- A layout of the values of `α` in `size` bytes. Decoding looks at these bytes only, and undoes
encoding. -/
structure Codec (α : Type u) where
  size : Nat
  encode : α → Store
  decode : Store → α
  decode_congr : ∀ {d d' : Store}, (∀ k < size, d k = d' k) → decode d = decode d'
  decode_encode : ∀ a, decode (encode a) = a

namespace Codec

variable {α : Type u} {β : Type v}

/-- `n` bytes. -/
def bytes (n : Nat) : Codec (Fin n → UInt8) where
  size := n
  encode f := fun k => if h : k < n then f ⟨k, h⟩ else 0
  decode d := fun k => d k
  decode_congr agree := funext fun k => agree k k.2
  decode_encode _ := funext fun k => dif_pos k.2

theorem ofDigits_range {x n : Nat} : Nat.ofDigits 256 ((List.range n).map fun k => x / 256 ^ k % 256) = x % 256 ^ n := by
  induction n with
  | zero => simp [Nat.mod_one]
  | succ n ih =>
    rw [List.range_succ, List.map_append, Nat.ofDigits_append, ih, List.length_map, List.length_range, Nat.mod_pow_succ]
    simp

/-- A little-endian `size_t`. -/
def word : Codec UInt64 where
  size := 8
  encode x := fun k => UInt8.ofNat (x.toNat / 256 ^ k)
  decode d := UInt64.ofNat (Nat.ofDigits 256 ((List.range 8).map fun k => (d k).toNat))
  decode_congr {d d'} agree := by
    have digits : (List.range 8).map (fun k => (d k).toNat) = (List.range 8).map fun k => (d' k).toNat :=
      List.map_congr_left fun k hk => by rw [agree k (List.mem_range.1 hk)]
    rw [digits]
  decode_encode x := by
    have small : x.toNat < 256 ^ 8 := x.toNat_lt
    have digits : (List.range 8).map (fun k => (UInt8.ofNat (x.toNat / 256 ^ k)).toNat) =
        (List.range 8).map fun k => x.toNat / 256 ^ k % 256 := List.map_congr_left fun k _ => UInt8.toNat_ofNat'
    rw [digits, ofDigits_range, Nat.mod_eq_of_lt small, UInt64.ofNat_toNat]

/-- A field and the fields behind it. -/
def prod (c : Codec α) (c' : Codec β) : Codec (α × β) where
  size := c.size + c'.size
  encode a := fun k => if k < c.size then c.encode a.1 k else c'.encode a.2 (k - c.size)
  decode d := (c.decode d, c'.decode (d.after c.size))
  decode_congr agree := Prod.ext (c.decode_congr fun k hk => agree k (by omega))
    (c'.decode_congr fun k hk => agree (c.size + k) (by omega))
  decode_encode a := by
    refine Prod.ext ?_ ?_
    · exact (c.decode_congr fun k hk => if_pos hk).trans (c.decode_encode a.1)
    · refine (c'.decode_congr fun k _ => ?_).trans (c'.decode_encode a.2)
      show (if c.size + k < c.size then _ else c'.encode a.2 (c.size + k - c.size)) = c'.encode a.2 k
      rw [if_neg (by omega), Nat.add_sub_cancel_left]

/-- A structure laid out as the tuple of its fields. -/
def map (c : Codec α) (f : α → β) (g : β → α) (inverse : ∀ b, f (g b) = b) : Codec β where
  size := c.size
  encode b := c.encode (g b)
  decode d := f (c.decode d)
  decode_congr agree := congrArg f (c.decode_congr agree)
  decode_encode b := by rw [c.decode_encode, inverse]

/-- The record at `off`. -/
def readAt (c : Codec α) (d : Store) (off : Nat) : α := c.decode (d.after off)

/-- Put the record `a` at `off`. -/
def writeAt (c : Codec α) (d : Store) (off : Nat) (a : α) : Store :=
  fun i => if off ≤ i ∧ i < off + c.size then c.encode a (i - off) else d i

section ReadWrite

variable {c : Codec α} {c' : Codec β} {d d' : Store} {off off' i : Nat} {a : α}

theorem writeAt_outside (outside : i < off ∨ off + c.size ≤ i) : c.writeAt d off a i = d i :=
  if_neg (by omega)

theorem readAt_congr (agree : ∀ k < c.size, d (off + k) = d' (off + k)) : c.readAt d off = c.readAt d' off :=
  c.decode_congr agree

/-- What has been written is read. -/
theorem readAt_writeAt : c.readAt (c.writeAt d off a) off = a := by
  refine (c.decode_congr fun k hk => ?_).trans (c.decode_encode a)
  show (if off ≤ off + k ∧ off + k < off + c.size then c.encode a (off + k - off) else _) = c.encode a k
  rw [if_pos (by omega), Nat.add_sub_cancel_left]

/-- A write leaves the records alone whose bytes lie elsewhere. -/
theorem readAt_writeAt_of_disjoint (disjoint : off + c.size ≤ off' ∨ off' + c'.size ≤ off) :
    c'.readAt (c.writeAt d off a) off' = c'.readAt d off' := by
  apply readAt_congr
  intro k hk
  apply writeAt_outside
  omega

/-- A write to a slot of a table of `n` records, with the value `e` beyond it. -/
theorem readAt_writeAt_slot {n : Nat} {e : α} {f : Nat → Nat} (hi : i < n)
    (apart : ∀ j < n, j ≠ i → f i + c.size ≤ f j ∨ f j + c.size ≤ f i) :
    (fun j => if j < n then c.readAt (c.writeAt d (f i) a) (f j) else e) =
      Function.update (fun j => if j < n then c.readAt d (f j) else e) i a := by
  funext j
  by_cases hj : j < n
  · by_cases same : j = i
    · subst same
      rw [Function.update_self, if_pos hj, readAt_writeAt]
    · rw [Function.update_of_ne same, if_pos hj, if_pos hj]
      exact readAt_writeAt_of_disjoint (apart j hj same)
  · rw [Function.update_of_ne (by omega), if_neg hj, if_neg hj]

/-- A write of the bytes that are there changes nothing. -/
theorem writeAt_eq_self (there : ∀ k < c.size, d (off + k) = c.encode a k) : c.writeAt d off a = d := by
  funext i
  unfold writeAt
  split
  · rename_i inside
    rw [← there (i - off) (by omega)]
    congr 1
    omega
  · rfl

end ReadWrite

/-- Two slots of a table lie apart. -/
theorem slots_disjoint {b s i j : Nat} (ne : i ≠ j) :
    b + i * s + s ≤ b + j * s ∨ b + j * s + s ≤ b + i * s := by
  rcases Nat.lt_or_gt_of_ne ne with lt | gt
  · have := Nat.mul_le_mul_right s (Nat.succ_le_of_lt lt)
    rw [Nat.succ_mul] at this
    omega
  · have := Nat.mul_le_mul_right s (Nat.succ_le_of_lt gt)
    rw [Nat.succ_mul] at this
    omega

/-- A slot of a table of `n` slots ends before the table does. -/
theorem slot_stop {s i n : Nat} (hi : i < n) : i * s + s ≤ n * s := by
  have := Nat.mul_le_mul_right s (Nat.succ_le_of_lt hi)
  rwa [Nat.succ_mul] at this

end Codec

end SoiExercises.Lib
