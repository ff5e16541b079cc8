import SoiExercises.Vfs.Addressing
import SoiExercises.Vfs.Directory

/-!
# COPYTO, then COPYFROM

On any disc of the right layout, whatever its blocks hold, a file that fits in the free blocks is put in
the first of them and read back as it was (`copy_round_trip`). The writer stops when the file ends and the
reader when the size of the inode is used up; the two meet on the chunks of the file.
-/

namespace SoiExercises.Vfs

open SoiExercises.Lib

/-- The first bytes of a block that holds the beginning of `content`. -/
theorem take_ofFn_getD {content : List UInt8} {n : Nat} :
    (List.ofFn fun c : Fin n => content.getD c 0).take (min content.length n) = content.take n := by
  apply List.ext_getElem
  · rw [List.length_take, List.length_take, List.length_ofFn]
    omega
  · intro k hk hk'
    rw [List.length_take] at hk'
    have inside : k < content.length := by omega
    rw [List.getElem_take, List.getElem_take, List.getElem_ofFn]
    exact List.getD_eq_getElem content 0 inside

/-- **Reading** the blocks of a list that hold the chunks of a file. -/
theorem readBlocks_chain {v : Volume} {off : UInt64} {l : List Nat} {q : Option Nat} {content : List UInt8}
    (chain : Seg v.link (v.target off) l q) (length : l.length = chunks content.length)
    (chunk : ∀ (k : Nat) (hk : k < l.length) (c : Fin BLOCK_SIZE),
      (v.dataBlocks l[k]).data c = content.getD (k * BLOCK_SIZE + c) 0) :
    readBlocks v off content.length = .ok content := by
  induction l generalizing off content with
  | nil =>
    have stop : content = [] := by
      by_contra more
      rw [chunks_pos (List.length_pos_of_ne_nil more)] at length
      cases length
    subst stop
    rw [List.length_nil, readBlocks, dif_pos rfl]
  | cons b l ih =>
    have more : content ≠ [] := by
      rintro rfl
      cases length
    have pos := List.length_pos_of_ne_nil more
    obtain ⟨first, chain⟩ := chain
    have rest : content.length - min content.length BLOCK_SIZE = (content.drop BLOCK_SIZE).length := by
      rw [List.length_drop]
      omega
    have fewer : l.length = chunks (content.drop BLOCK_SIZE).length := by
      rw [List.length_drop]
      rw [chunks_pos pos, List.length_cons] at length
      omega
    have read := ih chain fewer fun k hk c => by
      have := chunk (k + 1) (Nat.succ_lt_succ hk) c
      rw [List.getElem_cons_succ] at this
      rw [this, List.getD_eq_getElem?_getD, List.getD_eq_getElem?_getD, List.getElem?_drop, Nat.succ_mul]
      congr 2
      omega
    have front : (v.dataBlocks b).data = fun c : Fin BLOCK_SIZE => content.getD c 0 := by
      funext c
      have := chunk 0 (Nat.succ_pos l.length) c
      rwa [List.getElem_cons_zero, Nat.zero_mul, Nat.zero_add] at this
    rw [readBlocks, dif_neg (by omega), Volume.checkIndex_of_target first, ok_bind]
    dsimp only
    rw [rest, read, ok_bind, front, take_ofFn_getD, List.take_append_drop]
    rfl

/-- The blocks are the `n` lowest-numbered free ones, in increasing order. -/
structure Volume.Lowest (v : Volume) (n : Nat) (blocks : List Nat) : Prop where
  amount : blocks.length = n
  increasing : blocks.Pairwise (· < ·)
  free : ∀ b ∈ blocks, b < v.blockAmount ∧ v.isDataBlockFree b
  lowest : ∀ b < v.blockAmount, v.isDataBlockFree b → b ∉ blocks → ∀ t ∈ blocks, t < b

theorem Volume.taken_lowest {v : Volume} {file : HostFile} (enough : chunks file.content.length ≤ v.freeBlocks.length) :
    v.Lowest (chunks file.content.length) (v.taken file) := by
  have increasing : v.freeBlocks.Pairwise (· < ·) := List.pairwise_lt_range.filter _
  refine ⟨List.length_take_of_le enough, increasing.sublist (List.take_sublist _ _), fun b => Stored.mem_taken,
    fun b hb free untaken t taken => ?_⟩
  have split := List.take_append_drop (chunks file.content.length) v.freeBlocks
  have mem : b ∈ v.freeBlocks := Volume.mem_freeBlocks.2 ⟨hb, free⟩
  rw [← split] at mem increasing
  have behind := (List.mem_append.1 mem).resolve_left untaken
  exact (List.pairwise_append.1 increasing).2.2 t taken b behind

/-- What COPYTO of a file that fits does to a disc: the lowest free blocks get the chunks and are linked in
increasing order, the first free inode gets the name, the size and the first block, and no other byte
changes. -/
structure Copied (disc : Disc) (name : CString) (file : HostFile) (disc' : Disc) (i : Nat) (blocks : List Nat) : Prop where
  copied : copyFileToSystem disc name (some file) = .ok (disc', .copied)
  slot : i < disc.volume.iNodeAmount ∧ disc.volume.isINodeFree i ∧ ∀ j < i, disc.volume.isINodeFree j = false
  lowest : disc.volume.Lowest (chunks file.content.length) blocks
  inode : (disc'.volume.nameAt i = name ∧ (disc'.volume.iNodes i).fileSize = file.size) ∧
    ∀ b ∈ blocks.head?, (disc'.volume.iNodes i).firstBlock = disc.volume.superBlock.blockOffset b
  chunk : ∀ (k : Nat) (hk : k < blocks.length) (c : Fin BLOCK_SIZE),
    (disc'.volume.dataBlocks blocks[k]).data c = file.content.getD (k * BLOCK_SIZE + c) 0
  linked : ∀ (k : Nat) (hk : k + 1 < blocks.length),
    (disc'.volume.dataBlocks blocks[k]).nextBlock = disc.volume.superBlock.blockOffset blocks[k + 1]
  others : ∀ p, ¬ disc.volume.superBlock.InINode i p →
    (∀ b ∈ blocks, ¬ disc.volume.superBlock.InBlock b p) → disc' p = disc p

/-- **COPYTO, then COPYFROM** of any file that fits in the free blocks gives the file, on any disc of the
layout of CREATE. -/
theorem copy_round_trip {disc : Disc} {name : CString} {file : HostFile} (layout : disc.volume.superBlock.Layout)
    (fits : name.bytes.length < FILE_NAME_SIZE)
    (new : disc.volume.getINodeIndex name = .ok none) (slot : ∃ i < disc.volume.iNodeAmount, disc.volume.isINodeFree i)
    (enough : chunks file.content.length ≤ disc.volume.freeBlocks.length) :
    ∃ disc' i blocks, Copied disc name file disc' i blocks ∧
      copyFileFromSystem disc' name = .ok (some file.content) := by
  have vacant : disc.volume.lookup name = none := Except.ok.inj ((Volume.getINodeIndex_eq layout).symm.trans new)
  have admitted : ¬ disc.volume.Refuses name file := by
    have small := chunks_le_iff.1 enough
    unfold BLOCK_SIZE at small
    rintro (found | full | large)
    · exact found vacant
    · obtain ⟨i, inside, free⟩ := slot
      exact List.find?_eq_none.1 full i (List.mem_range.2 inside) free
    · omega
  obtain ⟨disc', i, copied, free, stored, writes⟩ := copyFileToSystem_spec layout admitted enough
  have nameAt := stored.nameAt
  rw [CString.cut_eq fits] at nameAt
  have inode := stored.inode
  obtain ⟨isFree, inside, first⟩ := Volume.freeINode_eq_some.1 free
  refine ⟨disc', i, disc.volume.taken file, ?_, ?_⟩
  · refine ⟨copied, ⟨inside, isFree, first⟩, Volume.taken_lowest enough, ⟨⟨?_, ?_⟩, fun b head => ?_⟩, ?_, fun k hk => ?_, writes⟩
    · rw [nameAt, Function.update_self]
    · rw [inode]
      rfl
    · have more : file.content ≠ [] := by
        intro empty
        unfold Volume.taken at head
        rw [empty] at head
        cases head
      rw [Volume.head_taken more] at head
      rw [inode]
      show disc.volume.newFirstBlock = _
      unfold Volume.newFirstBlock
      rw [Option.mem_def.1 head]
      exact SuperBlock.offsetFromIndex
    · exact fun k hk => stored.chunk (List.getElem?_eq_getElem hk)
    · rw [stored.dataBlocks, storeChain_getElem Stored.nodup_taken (Nat.lt_of_succ_lt hk), List.getD_eq_getElem _ _ hk]
      rfl
  · have found : disc'.volume.lookup name = some i := by
      rw [Volume.lookup_eq_some, stored.iNodeAmount, nameAt, Function.update_self]
      refine ⟨inside, rfl, fun j hj => ?_⟩
      rw [Function.update_of_ne hj.ne]
      exact Volume.lookup_eq_none.1 vacant j (hj.trans inside)
    have layout' : disc'.volume.superBlock.Layout := stored.superBlock ▸ layout
    have read : readBlocks disc'.volume (disc'.volume.iNodes i).firstBlock (disc'.volume.iNodes i).fileSize.toNat =
        .ok file.content := by
      rw [inode, newINode_fileSize]
      by_cases more : file.content = []
      · rw [more, List.length_nil, readBlocks, dif_pos rfl]
      · exact readBlocks_chain (stored.seg layout more enough) (List.length_take_of_le enough)
          fun k hk => stored.chunk (List.getElem?_eq_getElem hk)
    unfold copyFileFromSystem
    rw [Disc.loadSystem_eq layout', ok_bind, Volume.getINodeIndex_eq layout', found, ok_bind]
    dsimp only
    rw [read]
    rfl

/-- A file of one byte on a new disc. -/
theorem copy_round_trip_byte : ∃ new disc' i blocks, createSystem MIN_FILE_SYSTEM_SIZE = some new ∧
    Copied new nameA (byteFile 7) disc' i blocks ∧ copyFileFromSystem disc' nameA = .ok (some [7]) := by
  obtain ⟨new, created, fresh, reached⟩ := smallest
  have layout := reached.sane.layout reached.layout
  have vacant : new.volume.getINodeIndex nameA = .ok none := by
    rw [Volume.getINodeIndex_eq layout, fresh, fresh_lookup (by decide)]
  have slot : ∃ i < new.volume.iNodeAmount, new.volume.isINodeFree i := by
    rw [fresh, smallest_iNodeAmount]
    exact ⟨0, by decide, rfl⟩
  have enough : chunks (byteFile 7).content.length ≤ new.volume.freeBlocks.length :=
    le_trans (le_max_right 1 _) (TwoFiles.firstRoom (c := 7) created)
  obtain ⟨disc', i, blocks, copied, read⟩ := copy_round_trip layout (by decide) vacant slot enough
  exact ⟨new, disc', i, blocks, created, copied, read⟩

end SoiExercises.Vfs
