import Mathlib.Data.Fintype.Basic
import Mathlib.Data.List.GetD
import Mathlib.Data.List.TakeWhile
import SoiExercises.Lib.Record

/-!
# The records of the disc file (`main.cpp`)

A disc file is a super block, a table of inodes and a table of data blocks, written as the structures lie
in memory: `size_t` is a little-endian 64-bit word, and there is no padding. Positions past the end of
the file read as 0.
-/

namespace SoiExercises.Vfs

open SoiExercises.Lib

def MAGIC_NUMBER : UInt64 := 2137
def FILE_NAME_SIZE : Nat := 512
def BLOCK_SIZE : Nat := 1024
def MIN_FILE_SYSTEM_SIZE : UInt64 := 1048576

/-- The largest `int`. -/
def INT_MAX : Nat := 2 ^ 31 - 1

structure INode where
  fileName : Fin FILE_NAME_SIZE → UInt8 := fun _ => 0
  fileSize : UInt64 := 0
  firstBlock : UInt64 := 0

structure DataBlock where
  data : Fin BLOCK_SIZE → UInt8 := fun _ => 0
  nextBlock : UInt64 := 0

structure SuperBlock where
  magicNumber : UInt64
  fileSystemSize : UInt64
  iNodeAmount : UInt64
  blockAmount : UInt64
  iNodeStart : UInt64
  blockStart : UInt64
  deriving DecidableEq

def INode.codec : Codec INode :=
  ((Codec.bytes FILE_NAME_SIZE).prod (Codec.word.prod Codec.word)).map
    (fun t => ⟨t.1, t.2.1, t.2.2⟩) (fun n => (n.fileName, n.fileSize, n.firstBlock)) fun _ => rfl

def DataBlock.codec : Codec DataBlock :=
  ((Codec.bytes BLOCK_SIZE).prod Codec.word).map (fun t => ⟨t.1, t.2⟩) (fun b => (b.data, b.nextBlock)) fun _ => rfl

def SuperBlock.codec : Codec SuperBlock :=
  (Codec.word.prod (Codec.word.prod (Codec.word.prod (Codec.word.prod (Codec.word.prod Codec.word))))).map
    (fun t => ⟨t.1, t.2.1, t.2.2.1, t.2.2.2.1, t.2.2.2.2.1, t.2.2.2.2.2⟩)
    (fun s => (s.magicNumber, s.fileSystemSize, s.iNodeAmount, s.blockAmount, s.iNodeStart, s.blockStart))
    fun _ => rfl

@[simp] theorem INode.size_codec : INode.codec.size = 528 := rfl

@[simp] theorem DataBlock.size_codec : DataBlock.codec.size = 1032 := rfl

@[simp] theorem SuperBlock.size_codec : SuperBlock.codec.size = 48 := rfl

theorem word_encode_zero (k : Nat) : Codec.word.encode 0 k = 0 := by
  show UInt8.ofNat (0 / 256 ^ k) = 0
  rw [Nat.zero_div]
  rfl

theorem bytes_encode_zero {n : Nat} (k : Nat) : (Codec.bytes n).encode (fun _ => 0) k = 0 := by
  unfold Codec.bytes
  dsimp only
  split
  · rfl
  · rfl

/-- A pair of records that are all zeros. -/
theorem prod_encode_zero {α β : Type} {c : Codec α} {c' : Codec β} {a : α} {b : β}
    (first : ∀ k, c.encode a k = 0) (second : ∀ k, c'.encode b k = 0) (k : Nat) :
    (c.prod c').encode (a, b) k = 0 := by
  unfold Codec.prod
  dsimp only
  split
  · exact first k
  · exact second _

/-- An empty inode is all zeros. -/
theorem INode.encode_empty (k : Nat) : INode.codec.encode {} k = 0 :=
  prod_encode_zero bytes_encode_zero (prod_encode_zero word_encode_zero word_encode_zero) k

/-- An empty data block is all zeros. -/
theorem DataBlock.encode_empty (k : Nat) : DataBlock.codec.encode {} k = 0 :=
  prod_encode_zero bytes_encode_zero word_encode_zero k

/-- A C string, without its terminating NUL. -/
@[ext] structure CString where
  bytes : List UInt8
  noNul : 0 ∉ bytes
  deriving DecidableEq

/-- The characters before the first NUL of an array. -/
def cString {n : Nat} (chars : Fin n → UInt8) : CString where
  bytes := (List.ofFn chars).takeWhile (· ≠ 0)
  noNul := fun zero => by simpa using List.mem_takeWhile_imp zero

/-- `strncpy` of all but the last character of `fileName`, which is set to NUL. -/
def fileNameField (name : CString) : Fin FILE_NAME_SIZE → UInt8 :=
  fun c => if c.1 < FILE_NAME_SIZE - 1 then name.bytes.getD c 0 else 0

/-- A name as far as the array holds it. -/
def CString.cut (name : CString) : CString where
  bytes := name.bytes.take (FILE_NAME_SIZE - 1)
  noNul := fun zero => name.noNul (List.mem_of_mem_take zero)

theorem CString.cut_eq {name : CString} (short : name.bytes.length < FILE_NAME_SIZE) : name.cut = name :=
  CString.ext (List.take_of_length_le (Nat.le_sub_one_of_lt short))

theorem CString.cut_nonempty {name : CString} (nonempty : name.bytes ≠ []) : name.cut.bytes ≠ [] := by
  unfold CString.cut FILE_NAME_SIZE
  simpa using nonempty

/-- The name of an inode whose array has been set to a name. -/
theorem cString_fileNameField {name : CString} : cString (fileNameField name) = name.cut := by
  have length : (name.bytes.take (FILE_NAME_SIZE - 1)).length ≤ FILE_NAME_SIZE - 1 := List.length_take_le _ _
  have field : List.ofFn (fileNameField name) = name.bytes.take (FILE_NAME_SIZE - 1) ++
      List.replicate (FILE_NAME_SIZE - (name.bytes.take (FILE_NAME_SIZE - 1)).length) 0 := by
    apply List.ext_getElem
    · rw [List.length_ofFn, List.length_append, List.length_replicate]
      unfold FILE_NAME_SIZE at length ⊢
      omega
    · intro k hk hk'
      rw [List.getElem_ofFn, List.getElem_append]
      unfold fileNameField
      dsimp only
      split
      · rename_i inside
        split
        · rename_i short
          rw [List.length_take] at short
          rw [List.getElem_take, List.getD_eq_getElem _ _ (by omega)]
        · rename_i long
          rw [List.length_take] at long
          rw [List.getElem_replicate, List.getD_eq_default _ _ (by omega)]
      · rw [dif_neg (by omega), List.getElem_replicate]
  have whole : ∀ c ∈ name.bytes.take (FILE_NAME_SIZE - 1), decide (c ≠ 0) := by
    intro c hc
    have ne : c ≠ 0 := ne_of_mem_of_not_mem (List.mem_of_mem_take hc) name.noNul
    simpa using ne
  apply CString.ext
  unfold cString CString.cut
  dsimp only
  rw [field, List.takeWhile_append_of_pos whole, List.takeWhile_replicate]
  simp

/-- The name of an empty inode. -/
theorem cString_empty {n : Nat} : (cString (fun _ : Fin n => 0)).bytes = [] := by
  unfold cString
  dsimp only
  rw [List.ofFn_const, List.takeWhile_replicate]
  simp

/-- A file of the host. -/
structure HostFile where
  content : List UInt8
  small : content.length < 2 ^ 63

def HostFile.size (file : HostFile) : UInt64 := UInt64.ofNat file.content.length

end SoiExercises.Vfs
