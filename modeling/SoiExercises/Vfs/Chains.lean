import SoiExercises.Vfs.Files

/-!
# The chains of the stored files

COPYTO links the blocks of a file in order, and the last one to the block 0. RM follows the links, so it
also clears the block 0, and it clears the first block of an empty file, which is not taken. As long as
no file is hit by this, and COPYTO only takes blocks that are linked to nothing, the files are disjoint
chains (`Healthy`), and RM keeps every other file (`rm_keeps_file`).
-/

namespace SoiExercises.Vfs

open SoiExercises.Lib

namespace Volume

variable {v v' : Volume} {i j b : Nat} {off : UInt64}

/-- The file of an inode has blocks. -/
def HasBlocks (v : Volume) (i : Nat) : Prop := (v.iNodes i).fileSize ≠ 0

theorem hasBlocks_congr {v v' : Volume} {i : Nat} (same : v'.iNodes i = v.iNodes i) : v'.HasBlocks i ↔ v.HasBlocks i := by
  unfold HasBlocks
  rw [same]

theorem target_eq (superBlock : v'.superBlock = v.superBlock) : v'.target = v.target := by
  funext off
  unfold target checkIndex blockAmount
  rw [superBlock]

theorem link_eq (superBlock : v'.superBlock = v.superBlock) (same : v'.dataBlocks b = v.dataBlocks b) :
    v'.link b = v.link b := by
  unfold link
  rw [target_eq superBlock, same]

/-- A block that is linked to nothing. -/
theorem link_none (unlinked : (v.dataBlocks b).nextBlock = 0) : v.link b = none := by
  unfold link
  rw [unlinked]
  exact target_zero

theorem checkIndex_of_target (found : v.target off = some b) :
    v.checkIndex (v.superBlock.calculateDataBlockIndexFromOffset off) = .ok b := by
  unfold target at found
  split at found
  · cases found
  · cases checked : v.checkIndex (v.superBlock.calculateDataBlockIndexFromOffset off) with
    | error fault =>
      rw [checked] at found
      cases found
    | ok k =>
      rw [checked] at found
      obtain rfl : k = b := Option.some.inj found
      rfl

theorem readTarget_of_target (found : v.target off = some b) : v.readTarget off = some b := by
  unfold readTarget
  rw [checkIndex_of_target found]
  rfl

/-- COPYFROM reads along the links. -/
theorem follow_readLink {n : Nat} (h : Long v.link n (v.target off)) :
    follow v.readLink n (v.readTarget off) = follow v.link n (v.target off) :=
  h.follow (fun _ => readTarget_of_target) fun _ _ => readTarget_of_target

end Volume

/-- COPYFROM completes as long as the links lead on for the chunks of the file. -/
theorem readBlocks_total {v : Volume} {off : UInt64} {n : Nat} (long : Long v.link (chunks n) (v.target off)) :
    ∃ content, readBlocks v off n = .ok content := by
  induction n using Nat.strong_induction_on generalizing off with
  | h n ih =>
    by_cases stop : n = 0
    · rw [readBlocks, dif_pos stop]
      exact ⟨[], rfl⟩
    · rw [chunks_pos (Nat.pos_of_ne_zero stop)] at long
      cases first : v.target off with
      | none =>
        rw [first] at long
        exact long.elim
      | some b =>
        rw [first] at long
        have fewer : n - min n BLOCK_SIZE = n - BLOCK_SIZE := by omega
        have less : n - BLOCK_SIZE < n := by
          unfold BLOCK_SIZE
          omega
        obtain ⟨rest, done⟩ := ih (n - BLOCK_SIZE) less long
        rw [readBlocks, dif_neg stop, Volume.checkIndex_of_target first, ok_bind]
        dsimp only
        rw [fewer, done, ok_bind]
        exact ⟨_, rfl⟩

/-- COPYFROM of a stored file completes. -/
theorem copyFileFromSystem_total {disc : Disc} {name : CString} {i : Nat} (layout : disc.volume.superBlock.Layout)
    (found : disc.volume.lookup name = some i)
    (long : disc.volume.HasBlocks i → Long disc.volume.link (chunks (disc.volume.iNodes i).fileSize.toNat)
      (disc.volume.target (disc.volume.iNodes i).firstBlock)) :
    ∃ content, copyFileFromSystem disc name = .ok (some content) := by
  obtain ⟨content, done⟩ : ∃ content, readBlocks disc.volume (disc.volume.iNodes i).firstBlock
      (disc.volume.iNodes i).fileSize.toNat = .ok content := by
    by_cases used : disc.volume.HasBlocks i
    · exact readBlocks_total (long used)
    · have none : (disc.volume.iNodes i).fileSize.toNat = 0 := by
        rw [not_not.1 used]
        rfl
      rw [none, readBlocks, dif_pos rfl]
      exact ⟨[], rfl⟩
  refine ⟨content, ?_⟩
  unfold copyFileFromSystem
  rw [Disc.loadSystem_eq layout, ok_bind, Volume.getINodeIndex_eq layout, found, ok_bind]
  dsimp only
  rw [done]
  rfl

namespace Stored

variable {v v' : Volume} {name : CString} {file : HostFile} {i k b : Nat}

/-- The blocks that are taken, in order. -/
theorem seg (h : Stored v name file i v') (layout : v.superBlock.Layout) (more : file.content ≠ [])
    (room : chunks file.content.length ≤ v.freeBlocks.length) :
    Seg v'.link (v'.target v.newFirstBlock) (v.taken file) (some 0) := by
  have length : (v.taken file).length = chunks file.content.length := List.length_take_of_le room
  have inside : ∀ n, (v.taken file).getD n 0 < v.blockAmount := by
    intro n
    by_cases hn : n < (v.taken file).length
    · rw [List.getD_eq_getElem _ _ hn]
      exact (mem_taken (List.getElem_mem hn)).1
    · rw [List.getD_eq_default _ _ (by omega)]
      exact layout.nonempty
  have first : v'.target v.newFirstBlock = (v.taken file).head?.or (some 0) := by
    have pos := chunks_pos (List.length_pos_of_ne_nil more)
    obtain ⟨b, head, first⟩ := newFirstBlock_eq (v := v) (by omega)
    have hb := (Volume.mem_freeBlocks.1 (List.mem_of_head? head)).1
    rw [first, Volume.target_eq h.superBlock, Volume.target_blockOffset layout hb, Volume.head_taken more, head]
    rfl
  rw [first]
  refine seg_of_links fun n hn => ?_
  unfold Volume.link
  rw [Volume.target_eq h.superBlock, h.dataBlocks, storeChain_getElem nodup_taken hn]
  show v.target (v.superBlock.blockOffset ((v.taken file).getD (n + 1) 0)) = _
  rw [Volume.target_blockOffset layout (inside (n + 1)), List.getD_eq_getElem?_getD]
  cases (v.taken file)[n + 1]? with
  | none => rfl
  | some b => rfl

theorem hasBlocks (h : Stored v name file i v') : v'.HasBlocks i ↔ file.content ≠ [] := by
  unfold Volume.HasBlocks
  rw [h.inode]
  show file.size ≠ 0 ↔ _
  rw [Ne, ← UInt64.toNat_inj, HostFile.toNat_size, UInt64.toNat_zero, List.length_eq_zero_iff]

/-- The blocks that COPYFROM reads of the new file. -/
theorem fileBlocks (h : Stored v name file i v') (layout : v.superBlock.Layout) (more : file.content ≠ [])
    (room : chunks file.content.length ≤ v.freeBlocks.length) : v'.fileBlocks i = v.taken file := by
  have length : (v.taken file).length = chunks file.content.length := List.length_take_of_le room
  have seg := h.seg layout more room
  unfold Volume.fileBlocks
  rw [h.inode, newINode_fileSize, ← length]
  exact (Volume.follow_readLink seg.long).trans seg.follow

end Stored

/-- The stored files are disjoint chains, each of which is linked to the block 0 at its end, and the other
blocks are empty. -/
structure Healthy (v : Volume) : Prop where
  chain : ∀ i, v.HasBlocks i → Seg v.link (v.target (v.iNodes i).firstBlock) (v.fileBlocks i) (some 0)
  length : ∀ i, v.HasBlocks i → (v.fileBlocks i).length = chunks (v.iNodes i).fileSize.toNat
  disjoint : ∀ i j, v.HasBlocks i → v.HasBlocks j → i ≠ j → ∀ b ∈ v.fileBlocks i, b ∉ v.fileBlocks j
  empty : ∀ b, (∀ i, v.HasBlocks i → b ∉ v.fileBlocks i) → v.dataBlocks b = {}

/-- COPYTO takes only blocks that are linked to nothing. -/
def TakesUnlinked (disc : Disc) : Command × Reply → Prop
  | (.copyTo _ (some file), .copied) => ∀ b ∈ disc.volume.taken file, (disc.volume.dataBlocks b).nextBlock = 0
  | _ => True

/-- The block that RM of a file clears without it being one of the file's: the block 0, to which the last
block is linked, or the first block of an empty file. -/
def Volume.strayBlock (v : Volume) (i : Nat) : Option Nat :=
  if (v.iNodes i).fileSize = 0 then v.target (v.iNodes i).firstBlock else some 0

/-- RM clears no block of another file. -/
def RemovesApart (disc : Disc) : Command × Reply → Prop
  | (.rm name, .deleted) => ∀ i, disc.volume.lookup name = some i → ∀ b ∈ disc.volume.strayBlock i,
      ∀ j ≠ i, disc.volume.HasBlocks j → b ∉ disc.volume.fileBlocks j
  | _ => True

namespace Healthy

variable {v v' : Volume} {name : CString} {file : HostFile} {i j b : Nat}

/-- A block of a file is linked. -/
theorem linked (h : Healthy v) (used : v.HasBlocks i) (hb : b ∈ v.fileBlocks i) : (v.dataBlocks b).nextBlock ≠ 0 := by
  intro unlinked
  have none := Volume.link_none unlinked
  rcases (h.chain i used).next_mem hb with last | ⟨k, -, next⟩
  · rw [none] at last
    cases last
  · rw [none] at next
    cases next

/-- The blocks of a file that are left alone stay its blocks. -/
theorem kept (h : Healthy v) (used : v.HasBlocks i) (superBlock : v'.superBlock = v.superBlock)
    (inode : v'.iNodes i = v.iNodes i) (same : ∀ b ∈ v.fileBlocks i, v'.dataBlocks b = v.dataBlocks b) :
    v'.fileBlocks i = v.fileBlocks i ∧
      Seg v'.link (v'.target (v'.iNodes i).firstBlock) (v'.fileBlocks i) (some 0) := by
  have seg : Seg v'.link (v'.target (v'.iNodes i).firstBlock) (v.fileBlocks i) (some 0) := by
    rw [inode, Volume.target_eq superBlock]
    exact (h.chain i used).congr fun b hb => Volume.link_eq superBlock (same b hb)
  have blocks : v'.fileBlocks i = v.fileBlocks i := by
    have follow := (Volume.follow_readLink seg.long).trans seg.follow
    rw [h.length i used] at follow
    unfold Volume.fileBlocks at follow ⊢
    rwa [inode] at follow ⊢
  exact ⟨blocks, blocks ▸ seg⟩

theorem fresh {size : UInt64} : Healthy (freshVolume size) where
  chain := fun _ more => absurd rfl more
  length := fun _ more => absurd rfl more
  disjoint := fun _ _ more => absurd rfl more
  empty := fun _ _ => rfl

/-- **COPYTO keeps the chains** if it takes only blocks that are linked to nothing. -/
theorem stored (h : Healthy v) (layout : v.superBlock.Layout) (free : v.isINodeFree i)
    (room : chunks file.content.length ≤ v.freeBlocks.length)
    (unlinked : ∀ b ∈ v.taken file, (v.dataBlocks b).nextBlock = 0) (stored : Stored v name file i v') : Healthy v' := by
  have vacant : ¬ v.HasBlocks i := by
    simp only [Volume.isINodeFree, Bool.and_eq_true, decide_eq_true_eq] at free
    exact not_not.2 free.1
  have untaken : ∀ k, v.HasBlocks k → ∀ b ∈ v.fileBlocks k, b ∉ v.taken file :=
    fun k used b hb taken => h.linked used hb (unlinked b taken)
  have used_iff := fun k (ne : k ≠ i) => Volume.hasBlocks_congr (stored.other ne)
  have kept := fun k (ne : k ≠ i) (used : v'.HasBlocks k) =>
    h.kept ((used_iff k ne).1 used) stored.superBlock (stored.other ne)
      fun b hb => stored.outside (untaken k ((used_iff k ne).1 used) b hb)
  have new := fun used => stored.fileBlocks layout (stored.hasBlocks.1 used) room
  constructor
  · intro k used
    by_cases same : k = i
    · subst same
      rw [new used, stored.inode]
      exact stored.seg layout (stored.hasBlocks.1 used) room
    · exact (kept k same used).2
  · intro k used
    by_cases same : k = i
    · subst same
      rw [new used, stored.inode, newINode_fileSize]
      exact List.length_take_of_le room
    · rw [(kept k same used).1, stored.other same]
      exact h.length k ((used_iff k same).1 used)
  · intro k l usedk usedl ne b
    by_cases hk : k = i
    · have hl : l ≠ i := fun hl => ne (hk.trans hl.symm)
      subst hk
      rw [new usedk, (kept l hl usedl).1]
      exact fun taken hb => untaken l ((used_iff l hl).1 usedl) b hb taken
    · rw [(kept k hk usedk).1]
      by_cases hl : l = i
      · subst hl
        rw [new usedl]
        exact untaken k ((used_iff k hk).1 usedk) b
      · rw [(kept l hl usedl).1]
        exact h.disjoint k l ((used_iff k hk).1 usedk) ((used_iff l hl).1 usedl) ne b
  · intro b outside
    have hb : b ∉ v.taken file := by
      intro taken
      have used : v'.HasBlocks i := by
        rw [stored.hasBlocks]
        intro empty
        unfold Volume.taken at taken
        rw [empty] at taken
        exact absurd taken List.not_mem_nil
      exact outside i used (new used ▸ taken)
    rw [stored.outside hb]
    refine h.empty b fun k used => ?_
    have ne : k ≠ i := by
      rintro rfl
      exact vacant used
    have used' := (used_iff k ne).2 used
    rw [← (kept k ne used').1]
    exact outside k used'

/-- A block that RM clears beside those of the file is linked to nothing. -/
theorem stray (h : Healthy v) (hb : b ∈ v.strayBlock i)
    (apart : ∀ j ≠ i, v.HasBlocks j → b ∉ v.fileBlocks j) :
    (v.HasBlocks i ∧ b ∈ v.fileBlocks i) ∨ v.link b = none := by
  by_cases own : v.HasBlocks i ∧ b ∈ v.fileBlocks i
  · exact .inl own
  · right
    have empty : v.dataBlocks b = {} := by
      refine h.empty b fun j used hj => ?_
      by_cases same : j = i
      · subst same
        exact own ⟨used, hj⟩
      · exact apart j same used hj
    apply Volume.link_none
    rw [empty]

/-- What the links of a file lead to. -/
theorem reach (h : Healthy v) (apart : ∀ b ∈ v.strayBlock i, ∀ j ≠ i, v.HasBlocks j → b ∉ v.fileBlocks j)
    (reached : Reach v.link (v.target (v.iNodes i).firstBlock) b) :
    (v.HasBlocks i ∧ b ∈ v.fileBlocks i) ∨ b ∈ v.strayBlock i := by
  refine reached.closed (S := fun b => (v.HasBlocks i ∧ b ∈ v.fileBlocks i) ∨ b ∈ v.strayBlock i) ?_ ?_
  · intro k first
    by_cases used : v.HasBlocks i
    · have seg := h.chain i used
      rw [first] at seg
      rcases seg.start with hk | last
      · exact .inl ⟨used, hk⟩
      · right
        unfold Volume.strayBlock
        rw [if_neg used, last]
        rfl
    · right
      unfold Volume.strayBlock
      rwa [if_pos (not_not.1 used)]
  · have own : ∀ k l, v.HasBlocks i → k ∈ v.fileBlocks i → v.link k = some l →
        (v.HasBlocks i ∧ l ∈ v.fileBlocks i) ∨ l ∈ v.strayBlock i := by
      intro k l used hk next
      rcases (h.chain i used).next_mem hk with last | ⟨m, hm, next'⟩
      · right
        unfold Volume.strayBlock
        rw [if_neg used, ← last, next]
        rfl
      · obtain rfl := Option.some.inj (next'.symm.trans next)
        exact .inl ⟨used, hm⟩
    rintro k l (⟨used, hk⟩ | stray) next
    · exact own k l used hk next
    · rcases h.stray stray (apart k stray) with ⟨used, hk⟩ | last
      · exact own k l used hk next
      · rw [last] at next
        cases next

/-- RM of a file leaves the blocks of another one alone. -/
theorem untouched (h : Healthy v) (apart : ∀ b ∈ v.strayBlock i, ∀ j ≠ i, v.HasBlocks j → b ∉ v.fileBlocks j)
    (ne : j ≠ i) (used : v.HasBlocks j) (deleted : Deleted v i v') :
    ∀ b ∈ v.fileBlocks j, v'.dataBlocks b = v.dataBlocks b := by
  intro b hb
  apply deleted.kept
  intro reached
  rcases h.reach apart reached with ⟨usedi, own⟩ | stray
  · exact h.disjoint j i used usedi ne b hb own
  · exact apart b stray j ne used hb

/-- **RM keeps the chains** if it clears no block of another file. -/
theorem deleted (h : Healthy v) (apart : ∀ b ∈ v.strayBlock i, ∀ j ≠ i, v.HasBlocks j → b ∉ v.fileBlocks j)
    (deleted : Deleted v i v') : Healthy v' := by
  have gone : ¬ v'.HasBlocks i := by
    unfold Volume.HasBlocks
    rw [deleted.inode]
    exact not_not.2 rfl
  have apart_of : ∀ k, v'.HasBlocks k → k ≠ i := by
    rintro k used rfl
    exact gone used
  have used_iff := fun k (ne : k ≠ i) => Volume.hasBlocks_congr (deleted.other ne)
  have old := fun k (used : v'.HasBlocks k) => (used_iff k (apart_of k used)).1 used
  have kept := fun k (used : v'.HasBlocks k) =>
    h.kept (old k used) deleted.superBlock (deleted.other (apart_of k used))
      (h.untouched apart (apart_of k used) (old k used) deleted)
  constructor
  · exact fun k used => (kept k used).2
  · intro k used
    rw [(kept k used).1, deleted.other (apart_of k used)]
    exact h.length k (old k used)
  · intro k l usedk usedl ne b
    rw [(kept k usedk).1, (kept l usedl).1]
    exact h.disjoint k l (old k usedk) (old l usedl) ne b
  · intro b outside
    by_cases reached : Reach v.link (v.target (v.iNodes i).firstBlock) b
    · exact deleted.cleared b reached
    · rw [deleted.kept b reached]
      refine h.empty b fun k used hb => ?_
      by_cases same : k = i
      · subst same
        exact reached ((h.chain k used).reach hb)
      · have used' := (used_iff k same).2 used
        rw [← (kept k used').1] at hb
        exact outside k used' hb

end Healthy

/-- A command that keeps the chains. -/
def Careful (disc : Disc) (e : Command × Reply) : Prop :=
  HasRoom disc e ∧ TakesUnlinked disc e ∧ RemovesApart disc e

variable {size : UInt64} {es : List (Command × Reply)} {disc : Disc} {f g : CString} {names : List CString}

theorem ReachedBy.healthy (h : ReachedBy Careful size es disc) : Healthy disc.volume := by
  refine h.invariant And.left .fresh ?_
  intro es d e v' reached healthy ⟨_, takes, removes⟩ effect
  cases effect with
  | refused => exact healthy
  | notFound => exact healthy
  | stored _ free enough stored =>
    exact healthy.stored (reached.sane.layout reached.layout) (Volume.freeINode_some free).2 enough takes stored
  | deleted found deleted => exact healthy.deleted (removes _ found) deleted

/-- **RM keeps every other file** on every disc that careful commands lead to, if it clears no block of
another file. -/
theorem rm_keeps_file (h : ReachedBy Careful size es disc) (listed : showFiles disc = .ok names)
    (hf : f ∈ names) (hg : g ∈ names) (ne : f ≠ g) (apart : RemovesApart disc (.rm f, .deleted)) :
    ∃ disc' content, deleteFile disc f = .ok (disc', .deleted) ∧
      copyFileFromSystem disc g = .ok (some content) ∧ copyFileFromSystem disc' g = .ok (some content) := by
  have reached := h.reached And.left
  have healthy := h.healthy
  have layout := reached.sane.layout reached.layout
  obtain rfl : disc.volume.names = names := Except.ok.inj ((showFiles_eq layout).symm.trans listed)
  obtain ⟨i, foundf⟩ := reached.sane.lookup_of_mem layout hf
  obtain ⟨j, foundg⟩ := reached.sane.lookup_of_mem layout hg
  have apartj : j ≠ i := by
    rintro rfl
    exact ne ((Volume.lookup_eq_some.1 foundf).2.1.symm.trans (Volume.lookup_eq_some.1 foundg).2.1)
  have nonempty : g.bytes ≠ [] := reached.sane.nonempty_of_mem layout hg
  obtain ⟨content, read⟩ := copyFileFromSystem_total layout foundg fun used =>
    healthy.length j used ▸ (healthy.chain j used).long
  obtain ⟨disc', -, removed, deleted⟩ := reached.delete foundf
  refine ⟨disc', content, removed, read, ?_⟩
  have found' : disc'.volume.lookup g = some j := by
    refine Volume.lookup_update foundg deleted.iNodeAmount deleted.nameAt apartj ?_
    rintro rfl
    exact nonempty rfl
  have inode := deleted.other apartj
  rw [copyFileFromSystem_congr layout deleted.superBlock foundg found' inode, read]
  by_cases used : disc.volume.HasBlocks j
  · exact healthy.untouched (apart i foundf) apartj used deleted
  · have none : disc.volume.fileBlocks j = [] := by
      unfold Volume.fileBlocks
      rw [not_not.1 used]
      rfl
    rw [none]
    exact fun b hb => absurd hb List.not_mem_nil

namespace TwoFiles

variable {file file' : HostFile} {disc disc' : Disc} {c c' : UInt8}

theorem after (h : TwoFiles file file' disc disc') : Reached MIN_FILE_SYSTEM_SIZE
    [(.copyTo nameA (some file), .copied), (.copyTo nameB (some file'), .copied)] disc' :=
  h.before.snoc h.room h.copied

/-- The blocks of the second file. -/
theorem segB' (h : TwoFiles (byteFile c) (byteFile c') disc disc') (nonzero : c ≠ 0) :
    Seg disc'.volume.link (disc'.volume.target (disc'.volume.iNodes 1).firstBlock) [1] (some 0) := by
  have taken : disc.volume.taken (byteFile c') = [1] := h.taken nonzero
  rw [h.stored'.inode, ← taken]
  exact h.stored'.seg h.layout (List.cons_ne_nil c' []) (le_trans (le_max_right 1 _) h.room)

theorem secondA' (h : TwoFiles (byteFile c) (byteFile c') disc disc') (nonzero : c ≠ 0) :
    copyFileFromSystem disc' nameA = .ok (some [c]) := by
  rw [h.readA', h.dataBlocks' (h.headOne nonzero), Function.update_of_ne (by decide), h.dataBlocks,
    Function.update_self]
  rfl

theorem firstRoom {new : Disc} (created : createSystem MIN_FILE_SYSTEM_SIZE = some new) :
    HasRoom new (.copyTo nameA (some (byteFile c)), .copied) := by
  show max 1 (chunks (byteFile c).content.length) ≤ new.volume.freeBlocks.length
  rw [chunks_byteFile, (volume_createSystem smallest_fits created).1, fresh_freeBlocks, List.length_range,
    smallest_blockAmount]
  decide

theorem careful {new : Disc} (h : TwoFiles (byteFile c) (byteFile c') disc disc') (nonzero : c ≠ 0)
    (created : createSystem MIN_FILE_SYSTEM_SIZE = some new)
    (copied : copyFileToSystem new nameA (some (byteFile c)) = .ok (disc, .copied)) :
    ReachedBy Careful MIN_FILE_SYSTEM_SIZE
      [(.copyTo nameA (some (byteFile c)), .copied), (.copyTo nameB (some (byteFile c')), .copied)] disc' := by
  obtain ⟨fresh, -⟩ := volume_createSystem smallest_fits created
  have first : Careful new (.copyTo nameA (some (byteFile c)), .copied) := by
    refine ⟨firstRoom created, fun b _ => ?_, trivial⟩
    rw [fresh]
    rfl
  have second : Careful disc (.copyTo nameB (some (byteFile c')), .copied) := by
    refine ⟨h.room, fun b hb => ?_, trivial⟩
    rw [h.taken nonzero, List.mem_singleton] at hb
    rw [hb, h.dataBlocks, Function.update_of_ne (by decide)]
  exact ⟨smallest_fits, new, created, ((Run.nil new).snoc ⟨copied, first⟩).snoc ⟨h.copied, second⟩⟩

/-- RM of the first file clears no block of the second one. -/
theorem apartA (h : TwoFiles (byteFile c) (byteFile c') disc disc') (nonzero : c ≠ 0) :
    RemovesApart disc' (.rm nameA, .deleted) := by
  intro i found b hb j ne used
  obtain rfl : 0 = i := Option.some.inj (h.lookupA'.symm.trans found)
  have size : (disc'.volume.iNodes 0).fileSize ≠ 0 := by
    rw [h.inodeFirst]
    show UInt64.ofNat 1 ≠ 0
    decide
  unfold Volume.strayBlock at hb
  rw [if_neg size, Option.mem_some_iff] at hb
  subst hb
  by_cases second : j = 1
  · subst second
    rw [h.stored'.fileBlocks h.layout (List.cons_ne_nil c' []) (le_trans (le_max_right 1 _) h.room), h.taken nonzero]
    decide
  · unfold Volume.HasBlocks at used
    rw [h.stored'.other second, h.stored.other ne] at used
    exact absurd rfl used

end TwoFiles

/-- RM of the first one of two files. -/
theorem rm_keeps_file_letter : ∃ disc disc' content, deleteFile disc nameA = .ok (disc', .deleted) ∧
    copyFileFromSystem disc nameB = .ok (some content) ∧ copyFileFromSystem disc' nameB = .ok (some content) := by
  obtain ⟨new, d, disc, created, copied, two⟩ := @TwoFiles.copy (byteFile 1) (byteFile 2) (by decide) (by decide)
  have sane := two.after.sane
  have nonzero : (1 : UInt8) ≠ 0 := by decide
  refine ⟨disc, rm_keeps_file (two.careful nonzero created copied) (showFiles_eq two.layout')
    ((sane.lookup_ne_none_iff two.layout' (by decide)).1 ?_) ((sane.lookup_ne_none_iff two.layout' (by decide)).1 ?_)
    (by decide) (two.apartA nonzero)⟩
  · rw [two.lookupA']
    exact nofun
  · rw [two.lookupB']
    exact nofun

/-- **RM damages another file**: it goes on from the last block of its file to the block 0. -/
theorem rm_clears_first : ∃ disc disc',
    Reached MIN_FILE_SYSTEM_SIZE
      [(.copyTo nameA (some (byteFile 1)), .copied), (.copyTo nameB (some (byteFile 2)), .copied)] disc ∧
    deleteFile disc nameB = .ok (disc', .deleted) ∧
    copyFileFromSystem disc nameA = .ok (some [1]) ∧ copyFileFromSystem disc' nameA = .ok (some [0]) := by
  obtain ⟨new, d, disc, -, -, two⟩ := @TwoFiles.copy (byteFile 1) (byteFile 2) (by decide) (by decide)
  obtain ⟨disc', -, removed, deleted⟩ := two.after.delete two.lookupB'
  refine ⟨disc, disc', two.after, removed, two.secondA' (by decide), ?_⟩
  obtain ⟨first, last⟩ := two.segB' (c := 1) (by decide)
  have cleared : disc'.volume.dataBlocks 0 = {} := by
    apply deleted.cleared
    rw [first]
    apply Reach.link
    rw [seg_nil.1 last]
    exact .here 0
  have found : disc'.volume.lookup nameA = some 0 :=
    Volume.lookup_update two.lookupA' deleted.iNodeAmount deleted.nameAt (by decide) (by decide)
  have inode : disc'.volume.iNodes 0 = newINode nameA (byteFile 1) (disc'.volume.superBlock.blockOffset 0) := by
    rw [deleted.other (by decide), two.inodeFirst, deleted.superBlock]
  have layout : disc'.volume.superBlock.Layout := deleted.superBlock ▸ two.layout'
  have inside : 0 < disc'.volume.blockAmount := by
    rw [deleted.blockAmount, two.blockAmount']
    decide
  have size : (disc'.volume.iNodes 0).fileSize.toNat = 1 := by
    rw [inode]
    rfl
  have start : (disc'.volume.iNodes 0).firstBlock = disc'.volume.superBlock.blockOffset 0 := by
    rw [inode]
    rfl
  rw [copyFileFromSystem_byte layout found size inside start, cleared]

end SoiExercises.Vfs
