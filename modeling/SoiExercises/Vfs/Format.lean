import SoiExercises.Vfs.Volume

/-!
# The disc format

The super block, the inodes and the data blocks of a disc lie apart inside the declared size, because no computation
of `initializeSuperBlock` wraps. So a record that is written is the only one that is read differently afterwards.
-/

namespace SoiExercises.Vfs

open SoiExercises.Lib

/-- A record of a disc. -/
inductive Record where
  | superBlock
  | iNode (index : Nat)
  | block (index : Nat)
  deriving DecidableEq

namespace Record

/-- The records of a disc with the super block `s`. -/
def On (s : SuperBlock) : Record → Prop
  | superBlock => True
  | iNode index => index < s.iNodeAmount.toNat
  | block index => index < s.blockAmount.toNat

/-- Where a record is written and read. -/
def offset (s : SuperBlock) : Record → Nat
  | superBlock => 0
  | iNode index => (s.iNodeOffset index).toNat
  | block index => (s.blockOffset index).toNat

def size : Record → Nat
  | superBlock => SuperBlock.codec.size
  | iNode _ => INode.codec.size
  | block _ => DataBlock.codec.size

/-- The position `p` of the disc is a byte of the record. -/
def Has (s : SuperBlock) (r : Record) (p : Nat) : Prop := r.offset s ≤ p ∧ p < r.offset s + r.size

end Record

namespace SuperBlock.Layout

variable {s : SuperBlock} {r r' : Record}

/-- One of two records ends before the other one starts. -/
theorem ordered (layout : s.Layout) (on : r.On s) (on' : r'.On s) (ne : r ≠ r') :
    r.offset s + r.size ≤ r'.offset s ∨ r'.offset s + r'.size ≤ r.offset s := by
  -- what starts behind the super block, and where the inodes stop
  have behind : ∀ i, Record.On s (.iNode i) → 48 ≤ (s.iNodeOffset i).toNat ∧
      (s.iNodeOffset i).toNat + 528 ≤ 48 + s.iNodeAmount.toNat * 528 := by
    intro i hi
    have := layout.iNodeOffset hi
    have := Codec.slot_stop (s := 528) hi
    omega
  have blocks : ∀ j, Record.On s (.block j) → 48 + s.iNodeAmount.toNat * 528 ≤ (s.blockOffset j).toNat := by
    intro j hj
    have := layout.blockOffset hj
    omega
  cases r with
  | superBlock =>
    left
    cases r' with
    | superBlock => exact absurd rfl ne
    | iNode i => exact (behind i on').1
    | block j => exact le_trans (Nat.le_add_right 48 _) (blocks j on')
  | iNode i =>
    cases r' with
    | superBlock => exact .inr (behind i on).1
    | iNode i' =>
      have other : i ≠ i' := fun same => ne (congrArg Record.iNode same)
      have := Codec.slots_disjoint (b := 48) (s := 528) other
      show (s.iNodeOffset i).toNat + 528 ≤ (s.iNodeOffset i').toNat ∨ (s.iNodeOffset i').toNat + 528 ≤ (s.iNodeOffset i).toNat
      rw [layout.iNodeOffset on, layout.iNodeOffset on']
      exact this
    | block j => exact .inl (le_trans (behind i on).2 (blocks j on'))
  | block j =>
    cases r' with
    | superBlock => exact .inr (le_trans (Nat.le_add_right 48 _) (blocks j on))
    | iNode i => exact .inr (le_trans (behind i on').2 (blocks j on))
    | block j' =>
      have other : j ≠ j' := fun same => ne (congrArg Record.block same)
      have := Codec.slots_disjoint (b := 48 + s.iNodeAmount.toNat * 528) (s := 1032) other
      show (s.blockOffset j).toNat + 1032 ≤ (s.blockOffset j').toNat ∨ (s.blockOffset j').toNat + 1032 ≤ (s.blockOffset j).toNat
      rw [layout.blockOffset on, layout.blockOffset on']
      exact this

/-- **The records of a disc do not overlap.** -/
theorem apart (layout : s.Layout) (on : r.On s) (on' : r'.On s) (ne : r ≠ r') {p : Nat} (has : r.Has s p) :
    ¬ r'.Has s p := by
  have order := layout.ordered on on' ne
  unfold Record.Has at has ⊢
  omega

/-- A record ends before the tables do. -/
theorem stop_le (layout : s.Layout) (on : r.On s) :
    r.offset s + r.size ≤ 48 + s.iNodeAmount.toNat * 528 + s.blockAmount.toNat * 1032 := by
  cases r with
  | superBlock =>
    show 0 + 48 ≤ _
    omega
  | iNode i =>
    have := Codec.slot_stop (s := 528) on
    show (s.iNodeOffset i).toNat + 528 ≤ _
    rw [layout.iNodeOffset on]
    omega
  | block j =>
    have := Codec.slot_stop (s := 1032) on
    show (s.blockOffset j).toNat + 1032 ≤ _
    rw [layout.blockOffset on]
    omega

end SuperBlock.Layout

/-- The fields of a new super block are the numbers that they are meant to be: no product and no sum is cut off, and
no difference falls below 0. -/
structure Exact (size : UInt64) (s : SuperBlock) : Prop where
  fileSystemSize : s.fileSystemSize = size
  iNodeAmount : s.iNodeAmount.toNat = size.toNat / 4096 / 2
  tables : 48 + s.iNodeAmount.toNat * 528 ≤ size.toNat
  blockAmount : s.blockAmount.toNat = (size.toNat - 48 - s.iNodeAmount.toNat * 528) / 1032
  iNodeStart : s.iNodeStart.toNat = 48
  blockStart : s.blockStart.toNat = 48 + s.iNodeAmount.toNat * 528

theorem initialize_exact {size : UInt64} (admitted : MIN_FILE_SYSTEM_SIZE ≤ size) :
    Exact size (initializeSuperBlock size) := by
  have amount := iNodeAmount_initializeSuperBlock size
  have min : 1048576 ≤ size.toNat := UInt64.le_iff_toNat_le.1 admitted
  refine ⟨rfl, ?_, ?_, ?_, rfl, ?_⟩
  · rw [amount, Nat.div_div_eq_div_mul]
  · rw [amount]
    omega
  · rw [blockAmount_initializeSuperBlock admitted, amount]
  · rw [blockStart_initializeSuperBlock, amount]

/-- The disc format for a size: the records lie apart inside it, a new disc is empty, the conversions of block indices
and offsets are inverse to each other, and a record that is written to a loaded disc is the only one that changes. -/
structure RoundTrips (size : UInt64) (s : SuperBlock) : Prop where
  exact : Exact size s
  apart : ∀ r r' : Record, r.On s → r'.On s → r ≠ r' → ∀ p, r.Has s p → ¬ r'.Has s p
  inside : ∀ r : Record, r.On s → ∀ p, r.Has s p → p < size.toNat
  created : ∃ disc, createSystem size = some disc ∧ loadSystem disc = .ok ⟨s, fun _ => {}, fun _ => {}⟩
  index : ∀ j < s.blockAmount.toNat, s.calculateDataBlockIndexFromOffset (s.calculateDataBlockOffsetFromIndex j) = j
  offset : ∀ off, (∃ j < s.blockAmount.toNat, off = s.blockOffset j) →
    s.calculateDataBlockOffsetFromIndex (s.calculateDataBlockIndexFromOffset off) = off
  iNode : ∀ disc v, loadSystem disc = .ok v → v.superBlock = s → ∀ i < s.iNodeAmount.toNat, ∀ n,
    loadSystem (disc.writeINode (s.iNodeOffset i) n) = .ok (v.setINode i n)
  block : ∀ disc v, loadSystem disc = .ok v → v.superBlock = s → ∀ j < s.blockAmount.toNat, ∀ b,
    loadSystem (disc.writeBlock (s.calculateDataBlockOffsetFromIndex j) b) = .ok (v.setBlock j b)

/-- A disc that loads is loaded as its volume. -/
theorem loadSystem_ok {disc : Disc} {v : Volume} (loaded : loadSystem disc = .ok v) : v = disc.volume := by
  unfold loadSystem at loaded
  split at loaded
  · exact (Except.ok.inj loaded).symm
  · cases loaded

/-- **The disc format round-trips**, for each size that CREATE admits and whose blocks an `int` can count. -/
theorem disc_format_round_trips {size : UInt64} (admitted : MIN_FILE_SYSTEM_SIZE ≤ size)
    (fits : (initializeSuperBlock size).blockAmount.toNat ≤ INT_MAX) : RoundTrips size (initializeSuperBlock size) := by
  have layout := initialize_layout admitted fits
  have exact' := initialize_exact admitted
  have declared : 48 + (initializeSuperBlock size).iNodeAmount.toNat * 528 +
      (initializeSuperBlock size).blockAmount.toNat * 1032 ≤ size.toNat := by
    have tables := exact'.tables
    have := Nat.div_mul_le_self (size.toNat - 48 - (initializeSuperBlock size).iNodeAmount.toNat * 528) 1032
    rw [exact'.blockAmount]
    omega
  refine ⟨exact', fun r r' on on' ne p => layout.apart on on' ne, ?_, ?_, ?_, ?_, ?_, ?_⟩
  · rintro r on p ⟨-, stop⟩
    have := layout.stop_le on
    omega
  · have large : ¬ size < MIN_FILE_SYSTEM_SIZE := UInt64.not_lt.2 admitted
    refine ⟨_, if_neg large, ?_⟩
    have created := volume_createSystem fits (if_neg large)
    rw [Disc.loadSystem_eq (created.1 ▸ layout), created.1]
    rfl
  · intro j hj
    rw [SuperBlock.offsetFromIndex, layout.indexFromOffset hj]
  · rintro off ⟨j, hj, rfl⟩
    rw [layout.indexFromOffset hj, SuperBlock.offsetFromIndex]
  · rintro disc v loaded same i hi n
    obtain rfl := loadSystem_ok loaded
    have layout' : disc.volume.superBlock.Layout := same ▸ layout
    have written := Disc.volume_writeINode (n := n) layout' (i := i) (by unfold Volume.iNodeAmount; rwa [same])
    rw [same] at written
    rw [Disc.loadSystem_eq (by rw [written]; exact layout'), written]
  · rintro disc v loaded same j hj b
    obtain rfl := loadSystem_ok loaded
    have layout' : disc.volume.superBlock.Layout := same ▸ layout
    have written := Disc.volume_writeBlock (b := b) layout' (i := j) (by unfold Volume.blockAmount; rwa [same])
    rw [same] at written
    rw [SuperBlock.offsetFromIndex, Disc.loadSystem_eq (by rw [written]; exact layout'), written]

/-- The smallest disc. -/
theorem disc_format_round_trips_smallest :
    RoundTrips MIN_FILE_SYSTEM_SIZE (initializeSuperBlock MIN_FILE_SYSTEM_SIZE) :=
  disc_format_round_trips (by decide) (by decide)

end SoiExercises.Vfs
