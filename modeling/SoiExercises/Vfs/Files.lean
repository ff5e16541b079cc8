import SoiExercises.Vfs.Capacity
import SoiExercises.Vfs.Directory

/-!
# What COPYFROM reads

COPYFROM of a file depends on its inode and on the blocks that it reads, `Volume.fileBlocks`
(`copyFileFromSystem_congr`). COPYTO changes a stored file only by taking one of these blocks, because
its data is all zero, or by storing a name that is the same in the first 511 bytes
(`copy_keeps_file`).
-/

namespace SoiExercises.Vfs

open SoiExercises.Lib

namespace Volume

variable {v v' : Volume} {i : Nat} {off : UInt64} {name : CString}

/-- The block that COPYFROM reads for an offset. -/
def readTarget (v : Volume) (off : UInt64) : Option Nat :=
  (v.checkIndex (v.superBlock.calculateDataBlockIndexFromOffset off)).toOption

/-- The block that COPYFROM reads after the block `i`. -/
def readLink (v : Volume) (i : Nat) : Option Nat := v.readTarget (v.dataBlocks i).nextBlock

/-- The blocks that COPYFROM reads for the inode `i`. -/
def fileBlocks (v : Volume) (i : Nat) : List Nat :=
  follow v.readLink (chunks (v.iNodes i).fileSize.toNat) (v.readTarget (v.iNodes i).firstBlock)

theorem readTarget_blockOffset (layout : v.superBlock.Layout) (hi : i < v.blockAmount) :
    v.readTarget (v.superBlock.blockOffset i) = some i := by
  unfold readTarget
  rw [checkIndex_blockOffset layout hi]
  rfl

end Volume

/-- **Reading** depends on the blocks that are read only. -/
theorem readBlocks_congr {v v' : Volume} {off : UInt64} {n : Nat} (superBlock : v'.superBlock = v.superBlock)
    (agree : ∀ b ∈ follow v.readLink (chunks n) (v.readTarget off), v'.dataBlocks b = v.dataBlocks b) :
    readBlocks v' off n = readBlocks v off n := by
  induction n using Nat.strong_induction_on generalizing off with
  | h n ih =>
    by_cases stop : n = 0
    · rw [readBlocks, dif_pos stop, readBlocks, dif_pos stop]
    · rw [readBlocks, dif_neg stop, readBlocks, dif_neg stop]
      have check : v'.checkIndex (v'.superBlock.calculateDataBlockIndexFromOffset off) =
          v.checkIndex (v.superBlock.calculateDataBlockIndexFromOffset off) := by
        unfold Volume.checkIndex Volume.blockAmount
        rw [superBlock]
      rw [check]
      cases checked : v.checkIndex (v.superBlock.calculateDataBlockIndexFromOffset off) with
      | error fault => rw [error_bind, error_bind]
      | ok b =>
        have target : v.readTarget off = some b := by
          unfold Volume.readTarget
          rw [checked]
          rfl
        rw [target, chunks_pos (Nat.pos_of_ne_zero stop), follow] at agree
        obtain ⟨first, rest⟩ := List.forall_mem_cons.1 agree
        have fewer : n - min n BLOCK_SIZE = n - BLOCK_SIZE := by omega
        have less : n - BLOCK_SIZE < n := by
          unfold BLOCK_SIZE
          omega
        rw [ok_bind, ok_bind]
        dsimp only
        rw [first, fewer, ih (n - BLOCK_SIZE) less rest]

/-- COPYFROM of a file whose inode and blocks have not changed. -/
theorem copyFileFromSystem_congr {disc disc' : Disc} {name : CString} {i : Nat}
    (layout : disc.volume.superBlock.Layout) (superBlock : disc'.volume.superBlock = disc.volume.superBlock)
    (found : disc.volume.lookup name = some i) (found' : disc'.volume.lookup name = some i)
    (inode : disc'.volume.iNodes i = disc.volume.iNodes i)
    (agree : ∀ b ∈ disc.volume.fileBlocks i, disc'.volume.dataBlocks b = disc.volume.dataBlocks b) :
    copyFileFromSystem disc' name = copyFileFromSystem disc name := by
  have layout' : disc'.volume.superBlock.Layout := superBlock ▸ layout
  unfold copyFileFromSystem
  rw [Disc.loadSystem_eq layout, Disc.loadSystem_eq layout', ok_bind, ok_bind, Volume.getINodeIndex_eq layout,
    Volume.getINodeIndex_eq layout', found, found', ok_bind, ok_bind]
  dsimp only
  rw [inode, readBlocks_congr superBlock agree]

/-- **COPYTO keeps a stored file** if it takes none of the blocks of the file, and the stored name is
not the one of the file. -/
theorem copy_keeps_file {size : UInt64} {es : List (Command × Reply)} {disc disc' : Disc} {g name : CString}
    {file : HostFile} {i : Nat} (reached : Reached size es disc) (found : disc.volume.lookup g = some i)
    (used : ¬ disc.volume.isINodeFree i) (room : HasRoom disc (.copyTo name (some file), .copied))
    (copied : copyFileToSystem disc name (some file) = .ok (disc', .copied))
    (untaken : ∀ b ∈ disc.volume.taken file, b ∉ disc.volume.fileBlocks i)
    (other : name.cut ≠ g) :
    copyFileFromSystem disc' g = copyFileFromSystem disc g := by
  have layout := reached.sane.layout reached.layout
  have step : Step disc (.copyTo name (some file), .copied) disc' := copied
  have effect := reached.effect room step
  generalize hv : disc'.volume = v' at effect
  cases effect with
  | refused no => exact absurd rfl no
  | @stored _ _ k _ admitted free enough stored =>
    subst hv
    have ne : i ≠ k := by
      rintro rfl
      exact used (Volume.freeINode_some free).2
    refine copyFileFromSystem_congr layout stored.superBlock found ?_ ?_ fun b hb => ?_
    · exact Volume.lookup_update found stored.iNodeAmount stored.nameAt ne other
    · exact stored.other ne
    · exact stored.outside fun taken => untaken b taken hb

theorem take_one_ofFn {α : Type} {n : Nat} {f : Fin (n + 1) → α} : (List.ofFn f).take 1 = [f 0] := by
  rw [List.ofFn_succ, List.take_succ_cons, List.take_zero]

/-- COPYFROM of a file of one byte. -/
theorem copyFileFromSystem_byte {disc : Disc} {name : CString} {i b : Nat} (layout : disc.volume.superBlock.Layout)
    (found : disc.volume.lookup name = some i) (size : (disc.volume.iNodes i).fileSize.toNat = 1)
    (hb : b < disc.volume.blockAmount)
    (first : (disc.volume.iNodes i).firstBlock = disc.volume.superBlock.blockOffset b) :
    copyFileFromSystem disc name = .ok (some [(disc.volume.dataBlocks b).data ⟨0, by decide⟩]) := by
  have one : min 1 BLOCK_SIZE = 1 := rfl
  have front : (List.ofFn (disc.volume.dataBlocks b).data).take 1 = [(disc.volume.dataBlocks b).data ⟨0, by decide⟩] :=
    take_one_ofFn (n := 1023)
  unfold copyFileFromSystem
  rw [Disc.loadSystem_eq layout, ok_bind, Volume.getINodeIndex_eq layout, found, ok_bind]
  dsimp only
  rw [size, first, readBlocks, dif_neg (by decide), Volume.checkIndex_blockOffset layout hb, ok_bind]
  dsimp only
  rw [one, readBlocks, dif_pos rfl, front]
  rfl

theorem Volume.freeINode_eq_some {v : Volume} {i : Nat} :
    v.freeINode = some i ↔ v.isINodeFree i ∧ i < v.iNodeAmount ∧ ∀ j < i, v.isINodeFree j = false := by
  unfold Volume.freeINode
  rw [List.find?_range_eq_some, List.mem_range]
  simp only [Bool.not_eq_true']

theorem fresh_nameAt {size : UInt64} {i : Nat} : ((freshVolume size).nameAt i).bytes = [] := cString_empty

/-- The smallest disc with the file `a` has room for an inode of the name `b`. -/
theorem second_slot {v : Volume} {file : HostFile} (stored : Stored (freshVolume MIN_FILE_SYSTEM_SIZE) nameA file 0 v)
    (layout : (initializeSuperBlock MIN_FILE_SYSTEM_SIZE).Layout) : v.freeINode = some 1 ∧ v.lookup nameB = none := by
  have nonzero : (freshVolume MIN_FILE_SYSTEM_SIZE).newFirstBlock ≠ 0 := by
    rw [smallest_newFirstBlock]
    exact layout.blockOffset_ne_zero smallest_pos
  constructor
  · rw [Volume.freeINode_eq_some, stored.iNodeAmount, smallest_iNodeAmount, stored.isINodeFree nonzero]
    refine ⟨rfl, by decide, fun j hj => ?_⟩
    obtain rfl : j = 0 := by omega
    rfl
  · rw [Volume.lookup_eq_none, stored.nameAt, CString.cut_eq (by decide)]
    intro i _
    by_cases first : i = 0
    · rw [first, Function.update_self]
      decide
    · rw [Function.update_of_ne first]
      exact fun same => absurd (same ▸ fresh_nameAt) (by decide)

/-- A file `a` on the smallest disc, and then a file `b`. -/
structure TwoFiles (file file' : HostFile) (disc disc' : Disc) : Prop where
  stored : Stored (freshVolume MIN_FILE_SYSTEM_SIZE) nameA file 0 disc.volume
  before : Reached MIN_FILE_SYSTEM_SIZE [(.copyTo nameA (some file), .copied)] disc
  room : HasRoom disc (.copyTo nameB (some file'), .copied)
  copied : copyFileToSystem disc nameB (some file') = .ok (disc', .copied)
  stored' : Stored disc.volume nameB file' 1 disc'.volume

namespace TwoFiles

variable {file file' : HostFile} {disc disc' : Disc} {c c' : UInt8}

/-- A second file of at most one chunk beside one that is smaller than the disc. -/
theorem copy (fewer : file.content.length ≤ 949 * BLOCK_SIZE) (one : file'.content.length ≤ BLOCK_SIZE) :
    ∃ new disc disc', createSystem MIN_FILE_SYSTEM_SIZE = some new ∧
      copyFileToSystem new nameA (some file) = .ok (disc, .copied) ∧ TwoFiles file file' disc disc' := by
  have fewer' : file.content.length ≤ 950 * BLOCK_SIZE := le_trans fewer (by decide)
  obtain ⟨new, disc, created, copied, reached, stored⟩ := @smallest_copy nameA file (by decide) fewer'
  have blocks : disc.volume.blockAmount = 950 := stored.blockAmount.trans smallest_blockAmount
  -- the last block is free
  have last : 949 ∈ disc.volume.freeBlocks := by
    have untaken : 949 ∉ (freshVolume MIN_FILE_SYSTEM_SIZE).taken file := by
      unfold Volume.taken chunks
      rw [fresh_freeBlocks, List.take_range, List.mem_range]
      unfold BLOCK_SIZE at fewer ⊢
      omega
    refine Volume.mem_freeBlocks.2 ⟨by omega, ?_⟩
    unfold Volume.isDataBlockFree
    rw [stored.outside untaken]
    exact decide_eq_true fun _ => rfl
  obtain ⟨free, new'⟩ := second_slot stored reached.layout
  have enough : 1 ≤ disc.volume.freeBlocks.length := List.length_pos_of_mem last
  have room : max 1 (chunks file'.content.length) ≤ disc.volume.freeBlocks.length := by
    refine le_trans (max_le (le_refl 1) ?_) enough
    rw [chunks_le_iff]
    omega
  have admitted : ¬ disc.volume.Refuses nameB file' := by
    unfold Volume.Refuses
    rw [free, new']
    unfold BLOCK_SIZE at one
    simp only [ne_eq, not_true_eq_false, reduceCtorEq, false_or]
    omega
  obtain ⟨disc', i, -, copied', first, stored'⟩ := reached.copy admitted room
  obtain rfl : 1 = i := Option.some.inj (free.symm.trans first)
  exact ⟨new, disc, disc', created, copied, stored, reached, room, copied', stored'⟩

theorem nameAt (h : TwoFiles file file' disc disc') :
    disc.volume.nameAt = Function.update (freshVolume MIN_FILE_SYSTEM_SIZE).nameAt 0 nameA := by
  rw [h.stored.nameAt, CString.cut_eq (by decide)]

theorem nameAt' (h : TwoFiles file file' disc disc') :
    disc'.volume.nameAt = Function.update disc.volume.nameAt 1 nameB := by
  rw [h.stored'.nameAt, CString.cut_eq (by decide)]

theorem lookupA (h : TwoFiles file file' disc disc') : disc.volume.lookup nameA = some 0 := by
  rw [Volume.lookup_eq_some, h.stored.iNodeAmount, smallest_iNodeAmount, h.nameAt, Function.update_self]
  exact ⟨by decide, rfl, fun j hj => absurd hj (Nat.not_lt_zero j)⟩

theorem lookupA' (h : TwoFiles file file' disc disc') : disc'.volume.lookup nameA = some 0 :=
  Volume.lookup_update h.lookupA h.stored'.iNodeAmount h.nameAt' (by decide) (by decide)

theorem lookupB' (h : TwoFiles file file' disc disc') : disc'.volume.lookup nameB = some 1 := by
  rw [Volume.lookup_eq_some, h.stored'.iNodeAmount, h.stored.iNodeAmount, smallest_iNodeAmount, h.nameAt',
    Function.update_self, h.nameAt]
  refine ⟨by decide, rfl, fun j hj => ?_⟩
  obtain rfl : j = 0 := by omega
  rw [Function.update_of_ne (by decide), Function.update_self]
  decide

theorem inodeA (h : TwoFiles file file' disc disc') :
    disc.volume.iNodes 0 = newINode nameA file (disc.volume.superBlock.blockOffset 0) := by
  rw [h.stored.inode, smallest_newFirstBlock, h.stored.superBlock]

theorem inodeA' (h : TwoFiles file file' disc disc') :
    disc'.volume.iNodes 0 = disc.volume.iNodes 0 :=
  h.stored'.other (by decide)

/-- The blocks after a file of one byte. -/
theorem dataBlocks (h : TwoFiles (byteFile c) file' disc disc') : disc.volume.dataBlocks =
    Function.update (fun _ => {}) 0 (chunkBlock [c] (disc.volume.superBlock.blockOffset 0)) := by
  rw [h.stored.volume_eq chunks_byteFile smallest_head]
  rfl

/-- The blocks after two files of one byte. -/
theorem dataBlocks' {b : Nat} (h : TwoFiles file (byteFile c') disc disc') (head : disc.volume.freeBlocks.head? = some b) :
    disc'.volume.dataBlocks = Function.update disc.volume.dataBlocks b
      (chunkBlock [c'] (disc.volume.superBlock.blockOffset 0)) := by
  rw [h.stored'.volume_eq chunks_byteFile head]
  rfl

theorem blockAmount (h : TwoFiles file file' disc disc') : disc.volume.blockAmount = 950 :=
  h.stored.blockAmount.trans smallest_blockAmount

theorem layout (h : TwoFiles file file' disc disc') : disc.volume.superBlock.Layout :=
  h.before.sane.layout h.before.layout

theorem readA (h : TwoFiles (byteFile c) file' disc disc') : copyFileFromSystem disc nameA = .ok (some [c]) := by
  have size : (disc.volume.iNodes 0).fileSize.toNat = 1 := by
    rw [h.inodeA]
    rfl
  have first : (disc.volume.iNodes 0).firstBlock = disc.volume.superBlock.blockOffset 0 := by
    rw [h.inodeA]
    rfl
  rw [copyFileFromSystem_byte h.layout h.lookupA size (by rw [h.blockAmount]; decide) first, h.dataBlocks,
    Function.update_self]
  rfl

/-- A first byte that is zero leaves the first block free. -/
theorem headZero (h : TwoFiles (byteFile 0) file' disc disc') : disc.volume.freeBlocks.head? = some 0 := by
  rw [Volume.head_freeBlocks, h.blockAmount]
  refine ⟨decide_eq_true fun b => ?_, by decide, fun j hj => absurd hj (Nat.not_lt_zero j)⟩
  rw [h.dataBlocks, Function.update_self]
  show [(0 : UInt8)].getD b 0 = 0
  cases b.1 with
  | zero => rfl
  | succ n => rfl

theorem headOne (h : TwoFiles (byteFile c) file' disc disc') (nonzero : c ≠ 0) :
    disc.volume.freeBlocks.head? = some 1 := by
  rw [Volume.head_freeBlocks, h.blockAmount]
  refine ⟨decide_eq_true fun b => ?_, by decide, fun j hj => ?_⟩
  · rw [h.dataBlocks, Function.update_of_ne (by decide)]
  · obtain rfl : j = 0 := by omega
    refine decide_eq_false fun zero => nonzero ?_
    have first := zero ⟨0, by decide⟩
    rw [h.dataBlocks, Function.update_self] at first
    exact first

theorem taken (h : TwoFiles (byteFile c) (byteFile c') disc disc') (nonzero : c ≠ 0) :
    disc.volume.taken (byteFile c') = [1] := by
  unfold Volume.taken
  rw [chunks_byteFile, List.take_one, h.headOne nonzero]
  rfl

theorem fileBlocksA (h : TwoFiles (byteFile c) file' disc disc') : disc.volume.fileBlocks 0 = [0] := by
  have inside : 0 < disc.volume.blockAmount := by
    rw [h.blockAmount]
    decide
  have size : chunks (newINode nameA (byteFile c) (disc.volume.superBlock.blockOffset 0)).fileSize.toNat = 1 :=
    @chunks_byteFile c
  unfold Volume.fileBlocks
  rw [h.inodeA, size]
  show follow _ 1 (disc.volume.readTarget (disc.volume.superBlock.blockOffset 0)) = [0]
  rw [Volume.readTarget_blockOffset h.layout inside, follow, follow]

theorem layout' (h : TwoFiles file file' disc disc') : disc'.volume.superBlock.Layout := h.stored'.superBlock ▸ h.layout

theorem blockAmount' (h : TwoFiles file file' disc disc') : disc'.volume.blockAmount = 950 :=
  h.stored'.blockAmount.trans h.blockAmount

theorem inodeFirst (h : TwoFiles file file' disc disc') :
    disc'.volume.iNodes 0 = newINode nameA file (disc'.volume.superBlock.blockOffset 0) := by
  rw [h.inodeA', h.inodeA, h.stored'.superBlock]

/-- COPYFROM of the first file reads the first block. -/
theorem readA' (h : TwoFiles (byteFile c) file' disc disc') :
    copyFileFromSystem disc' nameA = .ok (some [(disc'.volume.dataBlocks 0).data ⟨0, by decide⟩]) := by
  have inside : 0 < disc'.volume.blockAmount := by
    rw [h.blockAmount']
    decide
  have size : (disc'.volume.iNodes 0).fileSize.toNat = 1 := by
    rw [h.inodeFirst]
    rfl
  have first : (disc'.volume.iNodes 0).firstBlock = disc'.volume.superBlock.blockOffset 0 := by
    rw [h.inodeFirst]
    rfl
  exact copyFileFromSystem_byte h.layout' h.lookupA' size inside first

end TwoFiles

/-- A second file that takes the next block. -/
theorem copy_keeps_file_letter : ∃ disc disc', copyFileToSystem disc nameB (some (byteFile 2)) = .ok (disc', .copied) ∧
    copyFileFromSystem disc nameA = .ok (some [1]) ∧ copyFileFromSystem disc' nameA = copyFileFromSystem disc nameA := by
  obtain ⟨new, disc, disc', -, -, two⟩ := @TwoFiles.copy (byteFile 1) (byteFile 2) (by decide) (by decide)
  refine ⟨disc, disc', two.copied, two.readA, copy_keeps_file two.before two.lookupA ?_ two.room two.copied ?_ ?_⟩
  · intro free
    rw [Volume.isINodeFree, two.inodeA, Bool.and_eq_true, decide_eq_true_eq] at free
    have zero : (byteFile 1).size = 0 := free.1
    exact absurd zero (by decide)
  · rw [two.taken (by decide), two.fileBlocksA]
    decide
  · decide

/-- **COPYTO damages a file** whose only block is all zero: the new file takes this block. -/
theorem copy_overwrites : ∃ disc disc',
    Reached MIN_FILE_SYSTEM_SIZE [(.copyTo nameA (some (byteFile 0)), .copied)] disc ∧
    HasRoom disc (.copyTo nameB (some (byteFile 1)), .copied) ∧
    copyFileToSystem disc nameB (some (byteFile 1)) = .ok (disc', .copied) ∧
    copyFileFromSystem disc nameA = .ok (some [0]) ∧ copyFileFromSystem disc' nameA = .ok (some [1]) := by
  obtain ⟨new, disc, disc', -, -, two⟩ := @TwoFiles.copy (byteFile 0) (byteFile 1) (by decide) (by decide)
  refine ⟨disc, disc', two.before, two.room, two.copied, two.readA, ?_⟩
  rw [two.readA', two.dataBlocks' two.headZero, Function.update_self]
  rfl

end SoiExercises.Vfs
