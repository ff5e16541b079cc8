import Mathlib.Data.Finset.Card
import Mathlib.Data.Finset.Filter
import Mathlib.Logic.Function.Basic
import SoiExercises.Lib.Except
import SoiExercises.Vfs.Records

/-!
# The virtual file system (`main.cpp`)

Each command loads the disc file into memory, works on both, and writes to the disc file as it goes. The
`int` index of a search is an optional index, with `none` for -1. Running past the largest `int` and
using an index that no element of a vector has are `Fault`s: the source does not say what happens then.
The commands return what they print as a `Reply`; a host file that a command reads is its contents, and
the one that COPYFROM writes is its result.
-/

namespace SoiExercises.Vfs

open SoiExercises.Lib

abbrev Disc := Store

inductive Fault where
  | corrupted
  | intOverflow
  | outOfRange
  deriving DecidableEq

abbrev Result := Except Fault

inductive Reply where
  | copied
  | hostFileNotFound
  | alreadyExists
  | noFreeINodes
  | notEnoughSpace
  | deleted
  | notFound
  deriving DecidableEq

/-- The disc file in memory. The functions are the vectors `iNodes` and `dataBlocks`, whose sizes the
super block gives. -/
structure Volume where
  superBlock : SuperBlock
  iNodes : Nat → INode
  dataBlocks : Nat → DataBlock

/-- The `int` of a search result. -/
def intIndex : Option Nat → Int
  | none => -1
  | some i => i

/-- `for (int i = start; i < size; i++) if (found(i)) return i; return -1;` -/
def search (found : Nat → Bool) (size i : Nat) : Result (Option Nat) :=
  if i < size then
    if found i then .ok (some i)
    else if i = INT_MAX then .error .intOverflow
    else search found size (i + 1)
  else .ok none
termination_by size - i

namespace SuperBlock

/-- The offset of an inode. -/
def iNodeOffset (s : SuperBlock) (index : Nat) : UInt64 := s.iNodeStart + UInt64.ofNat index * 528

/-- The offset of a data block. -/
def blockOffset (s : SuperBlock) (index : Nat) : UInt64 := s.blockStart + UInt64.ofNat index * 1032

/-- The conversion from `size_t` to `int` keeps the low 32 bits. -/
def calculateDataBlockIndexFromOffset (s : SuperBlock) (blockOffset : UInt64) : Int :=
  ((blockOffset - s.blockStart) / 1032).toUInt32.toInt32.toInt

def calculateDataBlockOffsetFromIndex (s : SuperBlock) (blockIndex : Int) : UInt64 :=
  s.blockStart + UInt64.ofInt blockIndex * 1032

end SuperBlock

/-- The divider of the size is a macro without parentheses. -/
def initializeSuperBlock (systemSize : UInt64) : SuperBlock :=
  let iNodeAmount := systemSize / 4096 / 2
  { magicNumber := MAGIC_NUMBER
    fileSystemSize := systemSize
    iNodeAmount := iNodeAmount
    blockAmount := (systemSize - 48 - iNodeAmount * 528) / 1032
    iNodeStart := 48
    blockStart := 48 + iNodeAmount * 528 }

/-- The records of a disc file. -/
@[irreducible] def Disc.volume (disc : Disc) : Volume :=
  let superBlock := SuperBlock.codec.readAt disc 0
  { superBlock := superBlock
    iNodes := fun i =>
      if i < superBlock.iNodeAmount.toNat then INode.codec.readAt disc (superBlock.iNodeOffset i).toNat else {}
    dataBlocks := fun i =>
      if i < superBlock.blockAmount.toNat then DataBlock.codec.readAt disc (superBlock.blockOffset i).toNat else {} }

def loadSystem (disc : Disc) : Result Volume :=
  if disc.volume.superBlock.magicNumber = MAGIC_NUMBER then .ok disc.volume else .error .corrupted

namespace Volume

def iNodeAmount (v : Volume) : Nat := v.superBlock.iNodeAmount.toNat

def blockAmount (v : Volume) : Nat := v.superBlock.blockAmount.toNat

/-- `iNodes[index] = iNode` -/
def setINode (v : Volume) (index : Nat) (iNode : INode) : Volume :=
  { v with iNodes := Function.update v.iNodes index iNode }

/-- `dataBlocks[index] = dataBlock` -/
def setBlock (v : Volume) (index : Nat) (dataBlock : DataBlock) : Volume :=
  { v with dataBlocks := Function.update v.dataBlocks index dataBlock }

def isINodeFree (v : Volume) (index : Nat) : Bool :=
  (v.iNodes index).fileSize = 0 && (v.iNodes index).firstBlock = 0

def isDataBlockFree (v : Volume) (index : Nat) : Bool := ∀ c, (v.dataBlocks index).data c = 0

def getFirstFreeINodeIndex (v : Volume) : Result (Option Nat) := search v.isINodeFree v.iNodeAmount 0

def getFirstFreeDataBlockIndex (v : Volume) : Result (Option Nat) := search v.isDataBlockFree v.blockAmount 0

/-- A negative start is a huge number when it is compared with the size. -/
def getNextFreeDataBlockIndex (v : Volume) (index : Int) : Result (Option Nat) :=
  if index = INT_MAX then .error .intOverflow
  else if index + 1 < 0 then .ok none
  else search v.isDataBlockFree v.blockAmount (index + 1).toNat

def getAmountOfFreeDataBlocks (v : Volume) : Result Nat :=
  if INT_MAX < v.blockAmount then .error .intOverflow
  else .ok ((List.range v.blockAmount).countP v.isDataBlockFree)

def getINodeIndex (v : Volume) (fileName : CString) : Result (Option Nat) :=
  search (fun i => cString (v.iNodes i).fileName = fileName) v.iNodeAmount 0

/-- The element that an index of `dataBlocks` denotes. -/
def checkIndex (v : Volume) (index : Int) : Result Nat :=
  if 0 ≤ index ∧ index < v.blockAmount then .ok index.toNat else .error .outOfRange

theorem checkIndex_lt {v : Volume} {index : Int} {i : Nat} (done : v.checkIndex index = .ok i) :
    i < v.blockAmount := by
  unfold checkIndex at done
  split at done
  · obtain rfl := Except.ok.inj done
    omega
  · cases done

/-- The blocks with a link to another block. -/
def linked (v : Volume) : Finset Nat :=
  (Finset.range v.blockAmount).filter fun i => (v.dataBlocks i).nextBlock ≠ 0

theorem linked_setBlock {v : Volume} {i : Nat} (hi : i < v.blockAmount)
    (link : (v.dataBlocks i).nextBlock ≠ 0) : (v.setBlock i {}).linked.card < v.linked.card := by
  apply Finset.card_lt_card
  refine Finset.ssubset_iff_subset_ne.2 ⟨fun j hj => ?_, fun same => ?_⟩
  · obtain ⟨inside, linked⟩ := Finset.mem_filter.1 hj
    have ne : j ≠ i := by
      rintro rfl
      exact linked (congrArg DataBlock.nextBlock (Function.update_self j _ v.dataBlocks))
    refine Finset.mem_filter.2 ⟨inside, ?_⟩
    have kept : (v.setBlock i {}).dataBlocks j = v.dataBlocks j := Function.update_of_ne ne _ _
    rwa [kept] at linked
  · have old : i ∈ v.linked := Finset.mem_filter.2 ⟨Finset.mem_range.2 hi, link⟩
    rw [← same] at old
    exact (Finset.mem_filter.1 old).2 (congrArg DataBlock.nextBlock (Function.update_self i _ v.dataBlocks))

end Volume

/-- Write a data block to the disc. -/
def Disc.writeBlock (disc : Disc) (offset : UInt64) (dataBlock : DataBlock) : Disc :=
  DataBlock.codec.writeAt disc offset.toNat dataBlock

/-- Write an inode to the disc. -/
def Disc.writeINode (disc : Disc) (offset : UInt64) (iNode : INode) : Disc :=
  INode.codec.writeAt disc offset.toNat iNode

/-- The loop of `deleteFile`: clear the blocks from `currentBlockOffset` on, until a link is 0. -/
def clearBlocks (disc : Disc) (v : Volume) (currentBlockOffset : UInt64) : Result (Disc × Volume) :=
  if currentBlockOffset = 0 then .ok (disc, v)
  else
    match _checked : v.checkIndex (v.superBlock.calculateDataBlockIndexFromOffset currentBlockOffset) with
    | .error fault => .error fault
    | .ok currentBlockIndex =>
      clearBlocks (disc.writeBlock currentBlockOffset {}) (v.setBlock currentBlockIndex {})
        (v.dataBlocks currentBlockIndex).nextBlock
termination_by if currentBlockOffset = 0 then 0 else v.linked.card + 1
decreasing_by
  rename_i start
  rw [if_neg start]
  split
  · omega
  · rename_i link
    have := Volume.linked_setBlock (Volume.checkIndex_lt _checked) link
    omega

/-- Delete the file of an inode. -/
def deleteINode (disc : Disc) (v : Volume) (fileIndex : Nat) : Result (Disc × Volume) := do
  let (disc, v) ← clearBlocks disc v (v.iNodes fileIndex).firstBlock
  return (disc.writeINode (v.superBlock.iNodeOffset fileIndex) {}, v.setINode fileIndex {})

def deleteFile (disc : Disc) (fileName : CString) : Result (Disc × Reply) := do
  let v ← loadSystem disc
  match ← v.getINodeIndex fileName with
  | none => return (disc, .notFound)
  | some fileIndex =>
    let (disc, _) ← deleteINode disc v fileIndex
    return (disc, .deleted)

/-- The link of the block that is written while `rest` remains. -/
def nextBlockOffset (v : Volume) (currentBlockIndex : Int) (rest : List UInt8) : Result UInt64 :=
  if rest = [] then .ok (v.superBlock.calculateDataBlockOffsetFromIndex 0)
  else do
    match ← v.getNextFreeDataBlockIndex currentBlockIndex with
    | some next => return v.superBlock.calculateDataBlockOffsetFromIndex next
    | none => return 0

/-- The block that holds the beginning of `remaining`. -/
def chunkBlock (remaining : List UInt8) (nextBlock : UInt64) : DataBlock where
  data := fun c => remaining.getD c 0
  nextBlock := nextBlock

/-- The loop of `copyFileToSystem`, with the part of the file that remains to be read. -/
def writeBlocks (disc : Disc) (v : Volume) (currentBlockOffset : UInt64) (remaining : List UInt8) :
    Result (Disc × Volume) :=
  if _more : remaining = [] then .ok (disc, v)
  else do
    let currentBlockIndex := v.superBlock.calculateDataBlockIndexFromOffset currentBlockOffset
    let nextBlock ← nextBlockOffset v currentBlockIndex (remaining.drop BLOCK_SIZE)
    let dataBlock := chunkBlock remaining nextBlock
    let index ← v.checkIndex currentBlockIndex
    writeBlocks (disc.writeBlock currentBlockOffset dataBlock) (v.setBlock index dataBlock)
      nextBlock (remaining.drop BLOCK_SIZE)
termination_by remaining.length
decreasing_by
  have := List.length_pos_of_ne_nil _more
  rw [List.length_drop]
  unfold BLOCK_SIZE
  omega

/-- The inode of a new file. -/
def newINode (fileName : CString) (file : HostFile) (firstBlock : UInt64) : INode where
  fileName := fileNameField fileName
  fileSize := file.size
  firstBlock := firstBlock

/-- Put a file that has been admitted on the disc, under the inode `freeINodeIndex`. -/
def storeFile (disc : Disc) (v : Volume) (fileName : CString) (file : HostFile) (freeINodeIndex : Nat) :
    Result (Disc × Volume) := do
  let freeDataBlockIndex ← v.getFirstFreeDataBlockIndex
  let firstBlock := v.superBlock.calculateDataBlockOffsetFromIndex (intIndex freeDataBlockIndex)
  let disc := disc.writeINode (v.superBlock.iNodeOffset freeINodeIndex) (newINode fileName file firstBlock)
  writeBlocks disc v firstBlock file.content

/-- The space check compares with the size of the free blocks as structures. -/
def copyFileToSystem (disc : Disc) (fileName : CString) (file : Option HostFile) : Result (Disc × Reply) :=
  match file with
  | none => .ok (disc, .hostFileNotFound)
  | some file => do
    let v ← loadSystem disc
    match ← v.getINodeIndex fileName with
    | some _ => return (disc, .alreadyExists)
    | none =>
      match ← v.getFirstFreeINodeIndex with
      | none => return (disc, .noFreeINodes)
      | some freeINodeIndex =>
        let free ← v.getAmountOfFreeDataBlocks
        if file.size.toNat > free * DataBlock.codec.size then return (disc, .notEnoughSpace)
        else do
          let (disc, _) ← storeFile disc v fileName file freeINodeIndex
          return (disc, .copied)

/-- The loop of `copyFileFromSystem`, with the size that remains to be written. -/
def readBlocks (v : Volume) (currentBlockOffset : UInt64) (fileSize : Nat) : Result (List UInt8) :=
  if _more : fileSize = 0 then .ok []
  else do
    let index ← v.checkIndex (v.superBlock.calculateDataBlockIndexFromOffset currentBlockOffset)
    let sizeToWrite := min fileSize BLOCK_SIZE
    let rest ← readBlocks v (v.dataBlocks index).nextBlock (fileSize - sizeToWrite)
    return (List.ofFn (v.dataBlocks index).data).take sizeToWrite ++ rest
termination_by fileSize
decreasing_by
  unfold BLOCK_SIZE
  omega

/-- The file that COPYFROM writes, if there is one of that name. -/
def copyFileFromSystem (disc : Disc) (fileName : CString) : Result (Option (List UInt8)) := do
  let v ← loadSystem disc
  match ← v.getINodeIndex fileName with
  | none => return none
  | some fileIndex =>
    let content ← readBlocks v (v.iNodes fileIndex).firstBlock (v.iNodes fileIndex).fileSize.toNat
    return some content

/-- The names that LS prints. -/
def showFiles (disc : Disc) : Result (List CString) := do
  let v ← loadSystem disc
  return ((List.range v.iNodeAmount).filter fun i => !v.isINodeFree i).map fun i => cString (v.iNodes i).fileName

/-- Write the empty inodes and data blocks of a new disc. -/
def writeTables (s : SuperBlock) (disc : Disc) : Disc :=
  let disc := (List.range s.iNodeAmount.toNat).foldl
    (fun disc i => Disc.writeINode disc (s.iNodeOffset i) {}) disc
  (List.range s.blockAmount.toNat).foldl
    (fun disc i => Disc.writeBlock disc (s.blockOffset i) {}) disc

/-- Create a disc file; a size below the minimum is refused. -/
def createSystem (size : UInt64) : Option Disc :=
  if size < MIN_FILE_SYSTEM_SIZE then none
  else
    let s := initializeSuperBlock size
    some (writeTables s (SuperBlock.codec.writeAt (fun _ => 0) 0 s))

/-- The commands that change a disc. -/
inductive Command where
  | copyTo (fileName : CString) (file : Option HostFile)
  | rm (fileName : CString)

def Command.run (disc : Disc) : Command → Result (Disc × Reply)
  | copyTo fileName file => copyFileToSystem disc fileName file
  | rm fileName => deleteFile disc fileName

/-- A command that completes, and its reply. -/
def Step (disc : Disc) (e : Command × Reply) (disc' : Disc) : Prop := e.1.run disc = .ok (disc', e.2)

end SoiExercises.Vfs
