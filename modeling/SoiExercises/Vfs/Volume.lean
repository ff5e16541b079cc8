import SoiExercises.Vfs.System

/-!
# Discs in the layout of CREATE

`SuperBlock.Layout` is what the offset computations need of a super block: the tables lie one behind the
other, and their sizes fit in an `int`. On such a disc an offset and its index determine each other, and
writing a record to the disc does to the loaded volume what the assignment to the vector does.
-/

namespace SoiExercises.Vfs

open SoiExercises.Lib

namespace SuperBlock

/-- The super block, the inodes and the data blocks follow each other. -/
structure Layout (s : SuperBlock) : Prop where
  magicNumber : s.magicNumber = MAGIC_NUMBER
  iNodeStart : s.iNodeStart.toNat = 48
  blockStart : s.blockStart.toNat = 48 + s.iNodeAmount.toNat * 528
  stop : 48 + s.iNodeAmount.toNat * 528 + s.blockAmount.toNat * 1032 < 2 ^ 64
  iNodeAmount : s.iNodeAmount.toNat ≤ INT_MAX
  blockAmount : s.blockAmount.toNat ≤ INT_MAX
  nonempty : 0 < s.blockAmount.toNat

/-- The position `p` of the disc is a byte of the inode `i`. -/
def InINode (s : SuperBlock) (i p : Nat) : Prop := (s.iNodeOffset i).toNat ≤ p ∧ p < (s.iNodeOffset i).toNat + 528

/-- The position `p` of the disc is a byte of the data block `i`. -/
def InBlock (s : SuperBlock) (i p : Nat) : Prop := (s.blockOffset i).toNat ≤ p ∧ p < (s.blockOffset i).toNat + 1032

end SuperBlock

section Initialize

variable {size : UInt64}

theorem iNodeAmount_initializeSuperBlock (size : UInt64) : (initializeSuperBlock size).iNodeAmount.toNat = size.toNat / 8192 := by
  show (size / 4096 / 2).toNat = _
  rw [UInt64.toNat_div, UInt64.toNat_div, Nat.div_div_eq_div_mul]
  rfl

/-- No computation of the super block wraps. -/
theorem blockStart_initializeSuperBlock (size : UInt64) :
    (initializeSuperBlock size).blockStart.toNat = 48 + size.toNat / 8192 * 528 := by
  have amount := iNodeAmount_initializeSuperBlock size
  have := size.toNat_lt
  show (48 + (initializeSuperBlock size).iNodeAmount * 528).toNat = _
  simp only [UInt64.toNat_add, UInt64.toNat_mul, amount, UInt64.reduceToNat]
  omega

theorem blockAmount_initializeSuperBlock (admitted : MIN_FILE_SYSTEM_SIZE ≤ size) :
    (initializeSuperBlock size).blockAmount.toNat = (size.toNat - 48 - size.toNat / 8192 * 528) / 1032 := by
  have amount := iNodeAmount_initializeSuperBlock size
  have := size.toNat_lt
  have min : 1048576 ≤ size.toNat := UInt64.le_iff_toNat_le.1 admitted
  show ((size - 48 - (initializeSuperBlock size).iNodeAmount * 528) / 1032).toNat = _
  simp only [UInt64.toNat_div, UInt64.toNat_sub, UInt64.toNat_mul, amount, UInt64.reduceToNat]
  congr 1
  omega

theorem initialize_layout (admitted : MIN_FILE_SYSTEM_SIZE ≤ size)
    (fits : (initializeSuperBlock size).blockAmount.toNat ≤ INT_MAX) : (initializeSuperBlock size).Layout := by
  have amount := iNodeAmount_initializeSuperBlock size
  have start := blockStart_initializeSuperBlock size
  have blocks := blockAmount_initializeSuperBlock admitted
  have := size.toNat_lt
  have min : 1048576 ≤ size.toNat := UInt64.le_iff_toNat_le.1 admitted
  rw [blocks] at fits
  unfold INT_MAX at fits
  refine ⟨rfl, rfl, ?_, ?_, ?_, ?_, ?_⟩
  · rw [start, amount]
  · rw [amount, blocks]
    omega
  · rw [amount]
    unfold INT_MAX
    omega
  · rw [blocks]
    exact fits
  · rw [blocks]
    omega

end Initialize

theorem ofInt_natCast {n : Nat} : UInt64.ofInt n = UInt64.ofNat n := by
  apply UInt64.toNat_inj.1
  unfold UInt64.ofInt
  rw [UInt64.toNat_ofNat', UInt64.toNat_ofNat']
  omega

/-- A small `size_t` keeps its value as an `int`. -/
theorem toInt_narrow {x : UInt64} (small : x.toNat < 2 ^ 31) : x.toUInt32.toInt32.toInt = x.toNat := by
  have narrow : x.toUInt32.toBitVec.toNat = x.toNat := by
    show x.toUInt32.toNat = _
    rw [UInt64.toNat_toUInt32]
    omega
  show x.toUInt32.toBitVec.toInt = _
  rw [BitVec.toInt_eq_toNat_of_lt (by omega), narrow]

namespace SuperBlock.Layout

variable {s : SuperBlock} {i j : Nat}

theorem iNodeOffset (layout : s.Layout) (hi : i < s.iNodeAmount.toNat) :
    (s.iNodeOffset i).toNat = 48 + i * 528 := by
  have := layout.iNodeStart
  have := layout.stop
  unfold SuperBlock.iNodeOffset
  simp only [UInt64.toNat_add, UInt64.toNat_mul, UInt64.toNat_ofNat', UInt64.reduceToNat]
  omega

theorem blockOffset (layout : s.Layout) (hi : i < s.blockAmount.toNat) :
    (s.blockOffset i).toNat = 48 + s.iNodeAmount.toNat * 528 + i * 1032 := by
  have := layout.blockStart
  have := layout.stop
  unfold SuperBlock.blockOffset
  simp only [UInt64.toNat_add, UInt64.toNat_mul, UInt64.toNat_ofNat', UInt64.reduceToNat]
  omega

/-- The offset of a block is not the 0 that ends a chain of links. -/
theorem blockOffset_ne_zero (layout : s.Layout) (hi : i < s.blockAmount.toNat) : s.blockOffset i ≠ 0 := by
  intro zero
  have := layout.blockOffset hi
  rw [zero] at this
  simp at this
  omega

/-- The index computed from the offset of a block is its index. -/
theorem indexFromOffset (layout : s.Layout) (hi : i < s.blockAmount.toNat) :
    s.calculateDataBlockIndexFromOffset (s.blockOffset i) = i := by
  have offset := layout.blockOffset hi
  have start := layout.blockStart
  have blocks := layout.blockAmount
  unfold INT_MAX at blocks
  have after : s.blockStart ≤ s.blockOffset i := UInt64.le_iff_toNat_le.2 (by omega)
  have index : ((s.blockOffset i - s.blockStart) / 1032).toNat = i := by
    rw [UInt64.toNat_div, UInt64.toNat_sub_of_le _ _ after, offset, start]
    simp
  unfold SuperBlock.calculateDataBlockIndexFromOffset
  rw [toInt_narrow (by omega), index]

end SuperBlock.Layout

theorem SuperBlock.offsetFromIndex {s : SuperBlock} {i : Nat} :
    s.calculateDataBlockOffsetFromIndex i = s.blockOffset i := by
  unfold SuperBlock.calculateDataBlockOffsetFromIndex SuperBlock.blockOffset
  rw [ofInt_natCast]

namespace Volume

variable {v : Volume} {i : Nat}

@[simp] theorem superBlock_setINode {iNode : INode} : (v.setINode i iNode).superBlock = v.superBlock := rfl

@[simp] theorem superBlock_setBlock {dataBlock : DataBlock} : (v.setBlock i dataBlock).superBlock = v.superBlock := rfl

@[simp] theorem iNodes_setBlock {dataBlock : DataBlock} : (v.setBlock i dataBlock).iNodes = v.iNodes := rfl

@[simp] theorem dataBlocks_setINode {iNode : INode} : (v.setINode i iNode).dataBlocks = v.dataBlocks := rfl

@[simp] theorem dataBlocks_setBlock {dataBlock : DataBlock} :
    (v.setBlock i dataBlock).dataBlocks = Function.update v.dataBlocks i dataBlock := rfl

@[simp] theorem iNodes_setINode {iNode : INode} : (v.setINode i iNode).iNodes = Function.update v.iNodes i iNode := rfl

theorem setBlock_self {dataBlock : DataBlock} : (v.setBlock i dataBlock).dataBlocks i = dataBlock := by
  rw [dataBlocks_setBlock, Function.update_self]

theorem setBlock_of_ne {j : Nat} {dataBlock : DataBlock} (ne : j ≠ i) :
    (v.setBlock i dataBlock).dataBlocks j = v.dataBlocks j := by
  rw [dataBlocks_setBlock, Function.update_of_ne ne]

theorem iNodeAmount_le (layout : v.superBlock.Layout) : v.iNodeAmount ≤ INT_MAX := layout.iNodeAmount

theorem blockAmount_le (layout : v.superBlock.Layout) : v.blockAmount ≤ INT_MAX := layout.blockAmount

/-- The index of a block passes the check and denotes the block. -/
theorem checkIndex_blockOffset (layout : v.superBlock.Layout) (hi : i < v.blockAmount) :
    v.checkIndex (v.superBlock.calculateDataBlockIndexFromOffset (v.superBlock.blockOffset i)) = .ok i := by
  rw [layout.indexFromOffset hi]
  unfold checkIndex
  rw [if_pos (by omega)]
  rfl

end Volume

namespace Disc

variable {disc : Disc} {i : Nat}

/-- The tables of a disc whose super block is known. -/
def tables (disc : Disc) (s : SuperBlock) : Volume where
  superBlock := s
  iNodes := fun i => if i < s.iNodeAmount.toNat then INode.codec.readAt disc (s.iNodeOffset i).toNat else {}
  dataBlocks := fun i => if i < s.blockAmount.toNat then DataBlock.codec.readAt disc (s.blockOffset i).toNat else {}

theorem volume_eq {s : SuperBlock} (same : SuperBlock.codec.readAt disc 0 = s) : disc.volume = disc.tables s := by
  subst same
  unfold Disc.volume
  rfl

theorem superBlock_eq : disc.volume.superBlock = SuperBlock.codec.readAt disc 0 := by
  rw [volume_eq rfl]
  rfl

/-- Beyond the inodes of the disc there are only empty ones. -/
theorem iNodes_outside (outside : ¬ i < disc.volume.iNodeAmount) : disc.volume.iNodes i = {} := by
  obtain ⟨s, same⟩ : ∃ s, disc.volume.superBlock = s := ⟨_, rfl⟩
  unfold Volume.iNodeAmount at outside
  rw [same] at outside
  rw [volume_eq (superBlock_eq.symm.trans same)]
  unfold tables
  dsimp only
  rw [if_neg outside]

theorem loadSystem_eq (layout : disc.volume.superBlock.Layout) : loadSystem disc = .ok disc.volume :=
  if_pos layout.magicNumber

section Tables

variable {s : SuperBlock}

theorem tables_writeINode {iNode : INode} (layout : s.Layout) (hi : i < s.iNodeAmount.toNat) :
    (disc.writeINode (s.iNodeOffset i) iNode).tables s = (disc.tables s).setINode i iNode := by
  have offset := layout.iNodeOffset hi
  unfold tables Volume.setINode writeINode
  congr 1
  · refine Codec.readAt_writeAt_slot (f := fun j => (s.iNodeOffset j).toNat) hi fun j hj other => ?_
    have := layout.iNodeOffset hj
    have := Codec.slots_disjoint (b := 48) (s := 528) (Ne.symm other)
    rw [INode.size_codec]
    omega
  · funext j
    refine ite_congr rfl (fun hj => ?_) fun _ => rfl
    apply Codec.readAt_writeAt_of_disjoint
    have := layout.blockOffset hj
    have := Codec.slot_stop (s := 528) hi
    rw [INode.size_codec]
    omega

theorem tables_writeBlock {dataBlock : DataBlock} (layout : s.Layout) (hi : i < s.blockAmount.toNat) :
    (disc.writeBlock (s.blockOffset i) dataBlock).tables s = (disc.tables s).setBlock i dataBlock := by
  have offset := layout.blockOffset hi
  unfold tables Volume.setBlock writeBlock
  congr 1
  · funext j
    refine ite_congr rfl (fun hj => ?_) fun _ => rfl
    apply Codec.readAt_writeAt_of_disjoint
    have := layout.iNodeOffset hj
    have := Codec.slot_stop (s := 528) hj
    rw [INode.size_codec]
    omega
  · refine Codec.readAt_writeAt_slot (f := fun j => (s.blockOffset j).toNat) hi fun j hj other => ?_
    have := layout.blockOffset hj
    have := Codec.slots_disjoint (b := 48 + s.iNodeAmount.toNat * 528) (s := 1032) (Ne.symm other)
    rw [DataBlock.size_codec]
    omega

end Tables

/-- **A write of an inode slot** is an assignment in the loaded volume. -/
theorem volume_writeINode {n : INode} (layout : disc.volume.superBlock.Layout) (hi : i < disc.volume.iNodeAmount) :
    (disc.writeINode (disc.volume.superBlock.iNodeOffset i) n).volume = disc.volume.setINode i n := by
  have offset := layout.iNodeOffset hi
  have kept : SuperBlock.codec.readAt (disc.writeINode (disc.volume.superBlock.iNodeOffset i) n) 0 =
      disc.volume.superBlock := by
    refine (Codec.readAt_writeAt_of_disjoint (.inr ?_)).trans superBlock_eq.symm
    rw [SuperBlock.size_codec]
    omega
  rw [volume_eq kept, tables_writeINode layout hi, ← volume_eq superBlock_eq.symm]

/-- **A write of a data block** is an assignment in the loaded volume. -/
theorem volume_writeBlock {b : DataBlock} (layout : disc.volume.superBlock.Layout)
    (hi : i < disc.volume.blockAmount) :
    (disc.writeBlock (disc.volume.superBlock.blockOffset i) b).volume = disc.volume.setBlock i b := by
  have offset := layout.blockOffset hi
  have kept : SuperBlock.codec.readAt (disc.writeBlock (disc.volume.superBlock.blockOffset i) b) 0 =
      disc.volume.superBlock := by
    refine (Codec.readAt_writeAt_of_disjoint (.inr ?_)).trans superBlock_eq.symm
    rw [SuperBlock.size_codec]
    omega
  rw [volume_eq kept, tables_writeBlock layout hi, ← volume_eq superBlock_eq.symm]

end Disc

/-- The volume of a new disc. -/
def freshVolume (size : UInt64) : Volume where
  superBlock := initializeSuperBlock size
  iNodes := fun _ => {}
  dataBlocks := fun _ => {}

section Create

variable {disc : Disc} {s : SuperBlock}

/-- Empty records on a disc that is all zeros behind the super block are there already. -/
theorem writeTables_eq (layout : s.Layout) (zero : ∀ i, 48 ≤ i → disc i = 0) : writeTables s disc = disc := by
  have iNodes : (List.range s.iNodeAmount.toNat).foldl
      (fun disc i => Disc.writeINode disc (s.iNodeOffset i) {}) disc = disc := by
    refine List.foldlRecOn _ _ (motive := (· = disc)) rfl fun d same i hi => ?_
    rw [same]
    have offset := layout.iNodeOffset (List.mem_range.1 hi)
    exact Codec.writeAt_eq_self fun k _ => (zero _ (by omega)).trans (INode.encode_empty k).symm
  unfold writeTables
  rw [iNodes]
  refine List.foldlRecOn _ _ (motive := (· = disc)) rfl fun d same i hi => ?_
  rw [same]
  have offset := layout.blockOffset (List.mem_range.1 hi)
  exact Codec.writeAt_eq_self fun k _ => (zero _ (by omega)).trans (DataBlock.encode_empty k).symm

theorem tables_zero (layout : s.Layout) (zero : ∀ i, 48 ≤ i → disc i = 0) :
    disc.tables s = ⟨s, fun _ => {}, fun _ => {}⟩ := by
  unfold Disc.tables
  congr 1
  · funext i
    split
    · rename_i hi
      have offset := layout.iNodeOffset hi
      refine (INode.codec.decode_congr fun k _ => ?_).trans (INode.codec.decode_encode {})
      exact (zero _ (by omega)).trans (INode.encode_empty k).symm
    · rfl
  · funext i
    split
    · rename_i hi
      have offset := layout.blockOffset hi
      refine (DataBlock.codec.decode_congr fun k _ => ?_).trans (DataBlock.codec.decode_encode {})
      exact (zero _ (by omega)).trans (DataBlock.encode_empty k).symm
    · rfl

/-- **CREATE** writes the empty volume. -/
theorem volume_createSystem {size : UInt64} (fits : (initializeSuperBlock size).blockAmount.toNat ≤ INT_MAX)
    (created : createSystem size = some disc) :
    disc.volume = freshVolume size ∧ (initializeSuperBlock size).Layout := by
  unfold createSystem at created
  split at created
  · cases created
  · rename_i large
    have admitted : MIN_FILE_SYSTEM_SIZE ≤ size := UInt64.not_lt.1 large
    have layout := initialize_layout admitted fits
    have zero : ∀ i, 48 ≤ i →
        SuperBlock.codec.writeAt (fun _ => 0) 0 (initializeSuperBlock size) i = 0 := by
      intro i hi
      exact Codec.writeAt_outside (.inr (by rw [SuperBlock.size_codec]; omega))
    dsimp only at created
    rw [writeTables_eq layout zero] at created
    obtain rfl := Option.some.inj created
    rw [Disc.volume_eq Codec.readAt_writeAt, tables_zero layout zero]
    exact ⟨rfl, layout⟩

end Create

end SoiExercises.Vfs
