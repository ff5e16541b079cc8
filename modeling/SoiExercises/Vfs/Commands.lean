import Mathlib.Data.List.Range
import SoiExercises.Lib.Reach
import SoiExercises.Vfs.Volume

/-!
# What the commands do to the volume

The commands work on the disc file and on its copy in memory; here each of them is described by what it
does to the loaded volume. RM clears the blocks that the links from the first block lead to
(`deleteFile_spec`), and COPYTO takes the first free blocks and links them in order
(`copyFileToSystem_spec`). The only assumption is the layout of CREATE, and for RM that every link is
the offset of a block.
-/

namespace SoiExercises.Vfs

open SoiExercises.Lib

theorem search_eq {found : Nat → Bool} {size i : Nat} (small : size ≤ INT_MAX) :
    search found size i = .ok ((List.range' i (size - i)).find? found) := by
  induction i using search.induct found size with
  | case1 i inside hit =>
    obtain ⟨n, hn⟩ : ∃ n, size - i = n + 1 := ⟨size - i - 1, by omega⟩
    rw [search, if_pos inside, if_pos hit, hn, List.range'_succ, List.find?_cons_of_pos hit]
  | case2 inside => omega
  | case3 i inside miss last ih =>
    obtain ⟨n, hn⟩ : ∃ n, size - i = n + 1 := ⟨size - i - 1, by omega⟩
    have rest : size - (i + 1) = n := by omega
    rw [search, if_pos inside, if_neg miss, if_neg last, ih, rest, hn, List.range'_succ,
      List.find?_cons_of_neg miss]
  | case4 i outside =>
    have none : size - i = 0 := by omega
    rw [search, if_neg outside, none]
    rfl

namespace Volume

variable {v : Volume} {i j : Nat} {off : UInt64} {name : CString}

/-- The inode of a name. -/
def lookup (v : Volume) (name : CString) : Option Nat :=
  (List.range v.iNodeAmount).find? fun i => cString (v.iNodes i).fileName = name

/-- The first free inode. -/
def freeINode (v : Volume) : Option Nat := (List.range v.iNodeAmount).find? v.isINodeFree

/-- The free blocks from `i` on. -/
def freeFrom (v : Volume) (i : Nat) : List Nat := (List.range' i (v.blockAmount - i)).filter v.isDataBlockFree

/-- The free blocks. -/
def freeBlocks (v : Volume) : List Nat := (List.range v.blockAmount).filter v.isDataBlockFree

theorem mem_freeFrom : j ∈ v.freeFrom i ↔ i ≤ j ∧ j < v.blockAmount ∧ v.isDataBlockFree j := by
  unfold freeFrom
  rw [List.mem_filter, List.mem_range'_1]
  constructor
  · rintro ⟨inside, free⟩
    exact ⟨inside.1, by omega, free⟩
  · rintro ⟨start, stop, free⟩
    exact ⟨⟨start, by omega⟩, free⟩

theorem freeFrom_zero : v.freeFrom 0 = v.freeBlocks := by
  unfold freeFrom freeBlocks
  rw [Nat.sub_zero, List.range_eq_range']

theorem mem_freeBlocks : i ∈ v.freeBlocks ↔ i < v.blockAmount ∧ v.isDataBlockFree i := by
  unfold freeBlocks
  rw [List.mem_filter, List.mem_range]

theorem nodup_freeBlocks : v.freeBlocks.Nodup := List.nodup_range.filter _

theorem getINodeIndex_eq (layout : v.superBlock.Layout) : v.getINodeIndex name = .ok (v.lookup name) := by
  unfold getINodeIndex lookup
  rw [search_eq (iNodeAmount_le layout), List.range_eq_range']
  rfl

theorem getFirstFreeINodeIndex_eq (layout : v.superBlock.Layout) : v.getFirstFreeINodeIndex = .ok v.freeINode := by
  unfold getFirstFreeINodeIndex freeINode
  rw [search_eq (iNodeAmount_le layout), List.range_eq_range']
  rfl

theorem getFirstFreeDataBlockIndex_eq (layout : v.superBlock.Layout) :
    v.getFirstFreeDataBlockIndex = .ok v.freeBlocks.head? := by
  unfold getFirstFreeDataBlockIndex
  rw [search_eq (blockAmount_le layout), ← List.head?_filter]
  exact congrArg (fun l => Except.ok (List.head? l)) freeFrom_zero

theorem getNextFreeDataBlockIndex_eq (layout : v.superBlock.Layout) (hi : i < v.blockAmount) :
    v.getNextFreeDataBlockIndex i = .ok (v.freeFrom (i + 1)).head? := by
  have blocks := blockAmount_le layout
  unfold getNextFreeDataBlockIndex
  rw [if_neg (by omega), if_neg (by omega)]
  have start : ((i : Int) + 1).toNat = i + 1 := rfl
  rw [start, search_eq (blockAmount_le layout), ← List.head?_filter]
  rfl

theorem getAmountOfFreeDataBlocks_eq (layout : v.superBlock.Layout) :
    v.getAmountOfFreeDataBlocks = .ok v.freeBlocks.length := by
  have blocks := blockAmount_le layout
  unfold getAmountOfFreeDataBlocks
  rw [if_neg (by omega), List.countP_eq_length_filter]
  rfl

theorem lookup_some (found : v.lookup name = some i) : i < v.iNodeAmount ∧ cString (v.iNodes i).fileName = name := by
  have inside := List.mem_of_find?_eq_some found
  have hit := List.find?_some found
  exact ⟨List.mem_range.1 inside, by simpa using hit⟩

theorem freeINode_some (found : v.freeINode = some i) : i < v.iNodeAmount ∧ v.isINodeFree i := by
  have inside := List.mem_of_find?_eq_some found
  exact ⟨List.mem_range.1 inside, List.find?_some found⟩

/-- The first free block from `i` on, and the free blocks behind it. -/
theorem freeFrom_cons {b : Nat} {l : List Nat} (split : v.freeFrom i = b :: l) : l = v.freeFrom (b + 1) := by
  obtain ⟨n, hn⟩ : ∃ n, v.blockAmount - i = n := ⟨_, rfl⟩
  induction n generalizing i with
  | zero =>
    unfold freeFrom at split
    rw [hn] at split
    cases split
  | succ n ih =>
    have rest : v.blockAmount - (i + 1) = n := by omega
    have unfolded : v.freeFrom i = if v.isDataBlockFree i then i :: v.freeFrom (i + 1) else v.freeFrom (i + 1) := by
      unfold freeFrom
      rw [hn, rest, List.range'_succ, List.filter_cons]
    rw [unfolded] at split
    split at split
    · obtain ⟨rfl, rfl⟩ := List.cons.inj split
      rfl
    · exact ih split rest

/-- A write in front of `i` does not change which blocks from `i` on are free. -/
theorem freeFrom_setBlock {b : DataBlock} (before : j < i) : (v.setBlock j b).freeFrom i = v.freeFrom i := by
  unfold freeFrom
  apply List.filter_congr
  intro k hk
  have := List.mem_range'_1.1 hk
  unfold isDataBlockFree
  rw [setBlock_of_ne (by omega)]

/-- The block that an offset denotes; 0 denotes none. -/
def target (v : Volume) (off : UInt64) : Option Nat :=
  if off = 0 then none
  else (v.checkIndex (v.superBlock.calculateDataBlockIndexFromOffset off)).toOption

/-- The link of a block. -/
def link (v : Volume) (i : Nat) : Option Nat := v.target (v.dataBlocks i).nextBlock

/-- The offset of a block, or 0. -/
def Linkable (v : Volume) (off : UInt64) : Prop := off = 0 ∨ ∃ i < v.blockAmount, off = v.superBlock.blockOffset i

/-- Every link is the offset of a block, or 0. -/
def Linked (v : Volume) : Prop := ∀ i < v.blockAmount, v.Linkable (v.dataBlocks i).nextBlock

theorem target_zero : v.target 0 = none := if_pos rfl

theorem target_blockOffset (layout : v.superBlock.Layout) (hi : i < v.blockAmount) :
    v.target (v.superBlock.blockOffset i) = some i := by
  unfold target
  rw [if_neg (layout.blockOffset_ne_zero hi), checkIndex_blockOffset layout hi]
  rfl

theorem target_lt (found : v.target off = some i) : i < v.blockAmount := by
  unfold target at found
  split at found
  · cases found
  · cases checked : v.checkIndex (v.superBlock.calculateDataBlockIndexFromOffset off) with
    | error fault =>
      rw [checked] at found
      cases found
    | ok j =>
      rw [checked] at found
      obtain rfl : j = i := Option.some.inj found
      exact checkIndex_lt checked

theorem target_setBlock {b : DataBlock} : (v.setBlock i b).target = v.target := rfl

theorem link_setBlock {b : DataBlock} :
    (v.setBlock i b).link = Function.update v.link i (v.target b.nextBlock) := by
  funext j
  by_cases same : j = i
  · subst same
    rw [Function.update_self]
    unfold link
    rw [setBlock_self]
    rfl
  · rw [Function.update_of_ne same]
    unfold link
    rw [setBlock_of_ne same]
    rfl

theorem Linked.setBlock {b : DataBlock} (linked : v.Linked) (linkable : v.Linkable b.nextBlock) :
    (v.setBlock i b).Linked := by
  intro j hj
  by_cases same : j = i
  · subst same
    rw [setBlock_self]
    exact linkable
  · rw [setBlock_of_ne same]
    exact linked j hj

end Volume

/-- The disc and the copy of its data blocks in memory agree. -/
structure Mirrors (disc : Disc) (v : Volume) : Prop where
  superBlock : disc.volume.superBlock = v.superBlock
  dataBlocks : disc.volume.dataBlocks = v.dataBlocks

namespace Mirrors

variable {disc disc' : Disc} {v v' : Volume} {i : Nat} {off : UInt64}

theorem refl : Mirrors disc disc.volume := ⟨rfl, rfl⟩

theorem writeBlock (h : Mirrors disc v) (layout : v.superBlock.Layout) (hi : i < v.blockAmount) (b : DataBlock) :
    Mirrors (disc.writeBlock (v.superBlock.blockOffset i) b) (v.setBlock i b) ∧
      (disc.writeBlock (v.superBlock.blockOffset i) b).volume.iNodes = disc.volume.iNodes := by
  obtain ⟨same, blocks⟩ := h
  rw [← same] at layout
  have inside : i < disc.volume.blockAmount := by
    unfold Volume.blockAmount
    rw [same]
    exact hi
  have written := Disc.volume_writeBlock (b := b) layout inside
  rw [same] at written
  refine ⟨⟨?_, ?_⟩, ?_⟩
  · rw [written, Volume.superBlock_setBlock, Volume.superBlock_setBlock, same]
  · rw [written, Volume.dataBlocks_setBlock, Volume.dataBlocks_setBlock, blocks]
  · rw [written, Volume.iNodes_setBlock]

end Mirrors

/-- What a walk over the blocks `touched` leaves alone. -/
structure Walked (disc : Disc) (v : Volume) (touched : Nat → Prop) (disc' : Disc) (v' : Volume) : Prop where
  mirrors : Mirrors disc' v'
  superBlock : v'.superBlock = v.superBlock
  iNodes : disc'.volume.iNodes = disc.volume.iNodes
  bytes : ∀ p, (∀ b, touched b → ¬ v.superBlock.InBlock b p) → disc' p = disc p

namespace Walked

variable {disc disc' : Disc} {v v' : Volume} {touched touched' : Nat → Prop} {i : Nat} {b : DataBlock}

theorem refl (mirrors : Mirrors disc v) : Walked disc v touched disc v := ⟨mirrors, rfl, rfl, fun _ _ => rfl⟩

/-- A write of the block `i` before a walk. -/
theorem cons (mirrors : Mirrors disc v) (layout : v.superBlock.Layout) (hi : i < v.blockAmount)
    (rest : Walked (disc.writeBlock (v.superBlock.blockOffset i) b) (v.setBlock i b) touched' disc' v')
    (first : touched i) (others : ∀ k, touched' k → touched k) : Walked disc v touched disc' v' := by
  obtain ⟨-, iNodes⟩ := mirrors.writeBlock layout hi b
  refine ⟨rest.mirrors, rest.superBlock, rest.iNodes.trans iNodes, fun p outside => ?_⟩
  have before := outside i first
  unfold SuperBlock.InBlock at before
  refine (rest.bytes p fun k hk => outside k (others k hk)).trans (Codec.writeAt_outside ?_)
  rw [DataBlock.size_codec]
  omega

end Walked

section Loop

variable {disc disc' : Disc} {v v' : Volume} {off : UInt64}

theorem clearBlocks_zero : clearBlocks disc v 0 = .ok (disc, v) := by
  rw [clearBlocks, if_pos rfl]

/-- An offset outside the data region ends the loop with a fault. -/
theorem clearBlocks_fault {fault : Fault} (more : off ≠ 0)
    (checked : v.checkIndex (v.superBlock.calculateDataBlockIndexFromOffset off) = .error fault) :
    clearBlocks disc v off = .error fault := by
  rw [clearBlocks, if_neg more]
  split
  · rename_i fault' faulty
    obtain rfl := Except.error.inj (checked.symm.trans faulty)
    rfl
  · rename_i i indexed
    cases checked.symm.trans indexed

/-- One time round the loop. -/
theorem clearBlocks_clear {i : Nat} (more : off ≠ 0)
    (checked : v.checkIndex (v.superBlock.calculateDataBlockIndexFromOffset off) = .ok i) :
    clearBlocks disc v off = clearBlocks (disc.writeBlock off {}) (v.setBlock i {}) (v.dataBlocks i).nextBlock := by
  rw [clearBlocks, if_neg more]
  split
  · rename_i fault faulty
    cases checked.symm.trans faulty
  · rename_i j indexed
    obtain rfl := Except.ok.inj (checked.symm.trans indexed)
    rfl

end Loop

/-- **The loop of `deleteFile`** ends, and clears exactly the blocks that the links lead to. -/
theorem clearBlocks_spec {disc : Disc} {v : Volume} {off : UInt64} (layout : v.superBlock.Layout) (linked : v.Linked)
    (linkable : v.Linkable off) (mirrors : Mirrors disc v) :
    ∃ disc' v', clearBlocks disc v off = .ok (disc', v') ∧ Walked disc v (Reach v.link (v.target off)) disc' v' ∧
      ∀ i, (Reach v.link (v.target off) i → v'.dataBlocks i = {}) ∧
        (¬ Reach v.link (v.target off) i → v'.dataBlocks i = v.dataBlocks i) := by
  induction disc, v, off using clearBlocks.induct with
  | case1 disc v =>
    rw [clearBlocks_zero, Volume.target_zero]
    exact ⟨disc, v, rfl, .refl mirrors, fun i => ⟨fun reached => absurd reached Reach.none, fun _ => rfl⟩⟩
  | case2 disc v off more fault checked =>
    rcases linkable with zero | ⟨i, hi, rfl⟩
    · exact absurd zero more
    · rw [Volume.checkIndex_blockOffset layout hi] at checked
      cases checked
  | case3 disc v off more current checked ih =>
    rcases linkable with zero | ⟨i, hi, rfl⟩
    · exact absurd zero more
    · rw [Volume.checkIndex_blockOffset layout hi] at checked
      obtain rfl := Except.ok.inj checked
      obtain ⟨mirrors', -⟩ := mirrors.writeBlock layout hi {}
      have linked' : (v.setBlock i {}).Linked := linked.setBlock (.inl rfl)
      obtain ⟨disc', v', done, walked, cleared⟩ := ih layout linked' (linked i hi) mirrors'
      have checked := Volume.checkIndex_blockOffset layout hi
      have order := fun k => @Reach.clear _ v.link k i _
      rw [Volume.link_setBlock, Volume.target_zero, Volume.target_setBlock] at walked cleared
      rw [Volume.target_blockOffset layout hi]
      refine ⟨disc', v', ?_, walked.cons mirrors layout hi (.here i) fun k hk => (order k).2 (.inr hk), fun k => ?_⟩
      · rw [clearBlocks_clear more checked]
        exact done
      · rw [order]
        obtain ⟨clear, keep⟩ := cleared k
        constructor
        · rintro (rfl | reached)
          · by_cases again : Reach (Function.update v.link k none) (v.target (v.dataBlocks k).nextBlock) k
            · exact clear again
            · rw [keep again, Volume.setBlock_self]
          · exact clear reached
        · intro outside
          rw [not_or] at outside
          rw [keep outside.2, Volume.setBlock_of_ne outside.1]

/-- The loop leaves the inodes in memory alone. -/
theorem clearBlocks_iNodes {disc disc' : Disc} {v v' : Volume} {off : UInt64}
    (done : clearBlocks disc v off = .ok (disc', v')) : v'.iNodes = v.iNodes := by
  induction disc, v, off using clearBlocks.induct with
  | case1 disc v =>
    rw [clearBlocks_zero] at done
    cases done
    rfl
  | case2 disc v off more fault checked =>
    rw [clearBlocks_fault more checked] at done
    cases done
  | case3 disc v off more current checked ih =>
    rw [clearBlocks_clear more checked] at done
    exact ih done

/-- What RM of the file of inode `i` does to the volume. -/
structure Deleted (v : Volume) (i : Nat) (v' : Volume) : Prop where
  superBlock : v'.superBlock = v.superBlock
  iNodes : v'.iNodes = Function.update v.iNodes i {}
  cleared : ∀ k, Reach v.link (v.target (v.iNodes i).firstBlock) k → v'.dataBlocks k = {}
  kept : ∀ k, ¬ Reach v.link (v.target (v.iNodes i).firstBlock) k → v'.dataBlocks k = v.dataBlocks k

theorem Deleted.inode {v v' : Volume} {i : Nat} (h : Deleted v i v') : v'.iNodes i = {} := by
  rw [h.iNodes, Function.update_self]

theorem Deleted.other {v v' : Volume} {i k : Nat} (h : Deleted v i v') (ne : k ≠ i) : v'.iNodes k = v.iNodes k := by
  rw [h.iNodes, Function.update_of_ne ne]

theorem Deleted.linked {v v' : Volume} {i : Nat} (h : Deleted v i v') (linked : v.Linked) : v'.Linked := by
  intro k hk
  have amount : v'.blockAmount = v.blockAmount := congrArg (fun s => s.blockAmount.toNat) h.superBlock
  unfold Volume.Linkable
  rw [amount, h.superBlock]
  by_cases reached : Reach v.link (v.target (v.iNodes i).firstBlock) k
  · rw [h.cleared k reached]
    exact .inl rfl
  · rw [h.kept k reached]
    exact linked k (amount ▸ hk)

/-- **RM** of a name that is not on the disc changes nothing. -/
theorem deleteFile_notFound {disc : Disc} {name : CString} (layout : disc.volume.superBlock.Layout)
    (notFound : disc.volume.lookup name = none) : deleteFile disc name = .ok (disc, .notFound) := by
  unfold deleteFile
  rw [Disc.loadSystem_eq layout, ok_bind, Volume.getINodeIndex_eq layout, notFound]
  rfl

/-- Only the bytes of the inode `i` and of the blocks that its links lead to are written. -/
def OnlyClears (disc : Disc) (i : Nat) (disc' : Disc) : Prop :=
  ∀ p, ¬ disc.volume.superBlock.InINode i p →
    (∀ b, Reach disc.volume.link (disc.volume.target (disc.volume.iNodes i).firstBlock) b →
      ¬ disc.volume.superBlock.InBlock b p) → disc' p = disc p

/-- **RM** of the file of an inode clears the blocks that its links lead to, and the inode, in memory and on the
disc. -/
theorem deleteINode_spec {disc : Disc} {i : Nat} (layout : disc.volume.superBlock.Layout)
    (linked : disc.volume.Linked) (inside : i < disc.volume.iNodeAmount)
    (linkable : disc.volume.Linkable (disc.volume.iNodes i).firstBlock) :
    ∃ disc' v', deleteINode disc disc.volume i = .ok (disc', v') ∧ disc'.volume = v' ∧ Deleted disc.volume i v' ∧
      OnlyClears disc i disc' := by
  obtain ⟨disc', v', done, ⟨⟨super, blocks⟩, same, iNodes, bytes⟩, cleared⟩ :=
    clearBlocks_spec layout linked linkable .refl
  have memory : disc'.volume = v' := by
    have inodes := iNodes.trans (clearBlocks_iNodes done).symm
    cases v'
    cases loaded : disc'.volume
    rw [loaded] at super blocks inodes
    cases super
    cases blocks
    cases inodes
    rfl
  have layout' : disc'.volume.superBlock.Layout := super ▸ same ▸ layout
  have inside' : i < disc'.volume.iNodeAmount := by
    unfold Volume.iNodeAmount
    rw [super, same]
    exact inside
  have written := Disc.volume_writeINode (n := {}) layout' inside'
  rw [super, memory] at written
  refine ⟨disc'.writeINode (v'.superBlock.iNodeOffset i) {}, v'.setINode i {}, ?_, written, ?_, fun p inode blocks => ?_⟩
  · unfold deleteINode
    rw [done]
    rfl
  · constructor
    · exact same
    · rw [Volume.iNodes_setINode, clearBlocks_iNodes done]
    · exact fun k reached => (cleared k).1 reached
    · exact fun k outside => (cleared k).2 outside
  · rw [← bytes p blocks]
    unfold SuperBlock.InINode at inode
    rw [same]
    apply Codec.writeAt_outside
    rw [INode.size_codec]
    omega

/-- **RM** of a stored name deletes its inode. -/
theorem deleteFile_eq {disc disc' : Disc} {v' : Volume} {name : CString} {i : Nat}
    (layout : disc.volume.superBlock.Layout) (found : disc.volume.lookup name = some i)
    (done : deleteINode disc disc.volume i = .ok (disc', v')) : deleteFile disc name = .ok (disc', .deleted) := by
  unfold deleteFile
  rw [Disc.loadSystem_eq layout, ok_bind, Volume.getINodeIndex_eq layout, found, ok_bind]
  dsimp only
  rw [done]
  rfl

/-- **RM** of a stored name clears the blocks that its links lead to, and its inode. -/
theorem deleteFile_spec {disc : Disc} {name : CString} {i : Nat} (layout : disc.volume.superBlock.Layout)
    (linked : disc.volume.Linked) (found : disc.volume.lookup name = some i)
    (linkable : disc.volume.Linkable (disc.volume.iNodes i).firstBlock) :
    ∃ disc', deleteFile disc name = .ok (disc', .deleted) ∧ Deleted disc.volume i disc'.volume ∧
      OnlyClears disc i disc' := by
  obtain ⟨disc', v', done, rfl, deleted, bytes⟩ :=
    deleteINode_spec layout linked (Volume.lookup_some found).1 linkable
  exact ⟨disc', deleteFile_eq layout found done, deleted, bytes⟩

/-- The number of blocks that a file of `n` bytes needs. -/
def chunks (n : Nat) : Nat := (n + (BLOCK_SIZE - 1)) / BLOCK_SIZE

theorem chunks_pos {n : Nat} (pos : 0 < n) : chunks n = chunks (n - BLOCK_SIZE) + 1 := by
  unfold chunks BLOCK_SIZE
  omega

/-- The data blocks after `content` has been put in the blocks of a list: each is linked to the next one,
and the last one to the block of index 0. -/
def storeChain (s : SuperBlock) (blocks : Nat → DataBlock) : List Nat → List UInt8 → Nat → DataBlock
  | [], _ => blocks
  | b :: l, content =>
    storeChain s (Function.update blocks b (chunkBlock content (s.blockOffset (l.headD 0)))) l
      (content.drop BLOCK_SIZE)

theorem nextBlockOffset_eq {v : Volume} {b : Nat} {rest : List UInt8} {l : List Nat} (layout : v.superBlock.Layout)
    (hb : b < v.blockAmount) (first : l = (v.freeFrom (b + 1)).take (chunks rest.length))
    (enough : chunks rest.length ≤ (v.freeFrom (b + 1)).length) :
    nextBlockOffset v b rest = .ok (v.superBlock.blockOffset (l.headD 0)) := by
  unfold nextBlockOffset
  by_cases last : rest = []
  · subst last
    rw [if_pos rfl]
    have none : l = [] := first.trans (List.take_zero ..)
    rw [none]
    exact congrArg Except.ok SuperBlock.offsetFromIndex
  · have pos := chunks_pos (List.length_pos_of_ne_nil last)
    rw [if_neg last, Volume.getNextFreeDataBlockIndex_eq layout hb, ok_bind]
    cases free : v.freeFrom (b + 1) with
    | nil =>
      rw [free, pos] at enough
      simp at enough
    | cons next others =>
      rw [first, free, pos]
      exact congrArg Except.ok SuperBlock.offsetFromIndex

/-- **The loop of `copyFileToSystem`** fills the free blocks from the first one on. -/
theorem writeBlocks_spec {disc : Disc} {v : Volume} {off : UInt64} {content : List UInt8} {l : List Nat} {i : Nat}
    (layout : v.superBlock.Layout) (mirrors : Mirrors disc v)
    (first : l = (v.freeFrom i).take (chunks content.length))
    (enough : chunks content.length ≤ (v.freeFrom i).length)
    (start : ∀ b ∈ l.head?, off = v.superBlock.blockOffset b) :
    ∃ disc' v', writeBlocks disc v off content = .ok (disc', v') ∧ Walked disc v (· ∈ l) disc' v' ∧
      v'.dataBlocks = storeChain v.superBlock v.dataBlocks l content := by
  induction l generalizing disc v off content i with
  | nil =>
    have empty : content = [] := by
      by_contra more
      have pos := chunks_pos (List.length_pos_of_ne_nil more)
      have none := congrArg List.length first
      rw [List.length_nil, List.length_take] at none
      omega
    subst empty
    rw [writeBlocks, dif_pos rfl]
    exact ⟨disc, v, rfl, .refl mirrors, rfl⟩
  | cons b l ih =>
    have more : content ≠ [] := by
      rintro rfl
      cases first
    obtain ⟨rest, split⟩ : ∃ rest, v.freeFrom i = b :: rest := by
      cases free : v.freeFrom i with
      | nil =>
        rw [free, List.take_nil] at first
        cases first
      | cons c rest =>
        rw [free, chunks_pos (List.length_pos_of_ne_nil more)] at first
        obtain ⟨rfl, -⟩ := List.cons.inj first
        exact ⟨rest, rfl⟩
    have hb : b < v.blockAmount := (Volume.mem_freeFrom.1 (split ▸ List.mem_cons_self)).2.1
    have behind : rest = v.freeFrom (b + 1) := Volume.freeFrom_cons split
    have fewer : chunks content.length = chunks (content.drop BLOCK_SIZE).length + 1 := by
      rw [List.length_drop]
      exact chunks_pos (List.length_pos_of_ne_nil more)
    rw [split, fewer] at first enough
    rw [behind] at first enough
    obtain ⟨-, first⟩ := List.cons.inj first
    have enough : chunks (content.drop BLOCK_SIZE).length ≤ (v.freeFrom (b + 1)).length := by simpa using enough
    obtain rfl := start b rfl
    have linked := nextBlockOffset_eq layout hb first enough
    obtain ⟨new, hnew⟩ : ∃ new, chunkBlock content (v.superBlock.blockOffset (l.headD 0)) = new := ⟨_, rfl⟩
    obtain ⟨mirrors', -⟩ := mirrors.writeBlock layout hb new
    rw [← Volume.freeFrom_setBlock (b := new) (Nat.lt_succ_self b)] at first enough
    have layout' : (v.setBlock b new).superBlock.Layout := layout
    have start' : ∀ c ∈ l.head?, v.superBlock.blockOffset (l.headD 0) = (v.setBlock b new).superBlock.blockOffset c := by
      intro c hc
      rw [List.headD_eq_head?_getD, Option.mem_def.1 hc]
      rfl
    obtain ⟨disc', v', done, walked, blocks⟩ := ih layout' mirrors' first enough start'
    refine ⟨disc', v', ?_, walked.cons mirrors layout hb List.mem_cons_self fun k => List.mem_cons_of_mem b, ?_⟩
    · rw [writeBlocks, dif_neg more, layout.indexFromOffset hb]
      dsimp only
      rw [linked, ok_bind, ← layout.indexFromOffset hb, Volume.checkIndex_blockOffset layout hb, ok_bind, hnew]
      exact done
    · rw [storeChain, hnew]
      exact blocks

/-- The blocks that COPYTO takes for a file. -/
def Volume.taken (v : Volume) (file : HostFile) : List Nat := v.freeBlocks.take (chunks file.content.length)

theorem Volume.head_taken {v : Volume} {file : HostFile} (more : file.content ≠ []) :
    (v.taken file).head? = v.freeBlocks.head? := by
  have pos := chunks_pos (List.length_pos_of_ne_nil more)
  unfold Volume.taken
  rw [List.head?_take, if_neg (by omega)]

/-- The first block of a new file: the first free one. Without a free block the index is -1. -/
def Volume.newFirstBlock (v : Volume) : UInt64 :=
  v.superBlock.calculateDataBlockOffsetFromIndex (intIndex v.freeBlocks.head?)

/-- What COPYTO of a file under the inode `i` does to the volume. -/
structure Stored (v : Volume) (name : CString) (file : HostFile) (i : Nat) (v' : Volume) : Prop where
  superBlock : v'.superBlock = v.superBlock
  iNodes : v'.iNodes = Function.update v.iNodes i (newINode name file v.newFirstBlock)
  dataBlocks : v'.dataBlocks = storeChain v.superBlock v.dataBlocks (v.taken file) file.content

namespace Stored

variable {v v' : Volume} {name : CString} {file : HostFile} {i k : Nat}

theorem inode (h : Stored v name file i v') : v'.iNodes i = newINode name file v.newFirstBlock := by
  rw [h.iNodes, Function.update_self]

theorem other (h : Stored v name file i v') (ne : k ≠ i) : v'.iNodes k = v.iNodes k := by
  rw [h.iNodes, Function.update_of_ne ne]

end Stored

/-- Only the bytes of the inode `i` and of the blocks that are taken are written. -/
def OnlyWrites (disc : Disc) (file : HostFile) (i : Nat) (disc' : Disc) : Prop :=
  ∀ p, ¬ disc.volume.superBlock.InINode i p →
    (∀ b ∈ disc.volume.taken file, ¬ disc.volume.superBlock.InBlock b p) → disc' p = disc p

theorem storeFile_spec {disc : Disc} (name : CString) {file : HostFile} {i : Nat}
    (layout : disc.volume.superBlock.Layout) (hi : i < disc.volume.iNodeAmount)
    (enough : chunks file.content.length ≤ disc.volume.freeBlocks.length) :
    ∃ disc' v', storeFile disc disc.volume name file i = .ok (disc', v') ∧
      Stored disc.volume name file i disc'.volume ∧ OnlyWrites disc file i disc' := by
  have written := Disc.volume_writeINode (n := newINode name file disc.volume.newFirstBlock) layout hi
  generalize hd : disc.writeINode _ _ = d at written
  have mirrors : Mirrors d disc.volume := by
    constructor
    · rw [written, Volume.superBlock_setINode]
    · rw [written, Volume.dataBlocks_setINode]
  have first : disc.volume.taken file = (disc.volume.freeFrom 0).take (chunks file.content.length) := by
    rw [Volume.freeFrom_zero]
    rfl
  have start : ∀ b ∈ (disc.volume.taken file).head?,
      disc.volume.newFirstBlock = disc.volume.superBlock.blockOffset b := by
    intro b hb
    have more : file.content ≠ [] := by
      intro empty
      unfold Volume.taken at hb
      rw [empty] at hb
      cases hb
    rw [Volume.head_taken more] at hb
    unfold Volume.newFirstBlock
    rw [Option.mem_def.1 hb]
    exact SuperBlock.offsetFromIndex
  rw [← Volume.freeFrom_zero] at enough
  obtain ⟨disc', v', done, walked, blocks⟩ := writeBlocks_spec layout mirrors first enough start
  refine ⟨disc', v', ?_, ⟨?_, ?_, ?_⟩, fun p inode blocks => ?_⟩
  · unfold storeFile
    rw [Volume.getFirstFreeDataBlockIndex_eq layout, ok_bind]
    dsimp only
    rw [← done, ← hd]
    rfl
  · rw [walked.mirrors.superBlock, walked.superBlock]
  · rw [walked.iNodes, written, Volume.iNodes_setINode]
  · rw [walked.mirrors.dataBlocks, blocks]
  · rw [walked.bytes p blocks, ← hd]
    unfold SuperBlock.InINode at inode
    apply Codec.writeAt_outside
    rw [INode.size_codec]
    omega

/-- COPYTO refuses a name that is on the disc, a file without a free inode, and one that is larger than
the free blocks as structures. -/
def Volume.Refuses (v : Volume) (name : CString) (file : HostFile) : Prop :=
  v.lookup name ≠ none ∨ v.freeINode = none ∨ file.content.length > v.freeBlocks.length * 1032

theorem HostFile.toNat_size {file : HostFile} : file.size.toNat = file.content.length := by
  have := file.small
  unfold HostFile.size
  rw [UInt64.toNat_ofNat']
  omega

theorem newINode_fileSize {name : CString} {file : HostFile} {first : UInt64} :
    (newINode name file first).fileSize.toNat = file.content.length :=
  HostFile.toNat_size

/-- **COPYTO** of a refused file changes nothing. -/
theorem copyFileToSystem_refused {disc : Disc} {name : CString} {file : HostFile}
    (layout : disc.volume.superBlock.Layout) (refused : disc.volume.Refuses name file) :
    ∃ reply ≠ .copied, copyFileToSystem disc name (some file) = .ok (disc, reply) := by
  unfold copyFileToSystem
  dsimp only
  rw [Disc.loadSystem_eq layout, ok_bind, Volume.getINodeIndex_eq layout, ok_bind]
  cases found : disc.volume.lookup name with
  | some i => exact ⟨.alreadyExists, nofun, rfl⟩
  | none =>
    dsimp only
    rw [Volume.getFirstFreeINodeIndex_eq layout, ok_bind]
    cases free : disc.volume.freeINode with
    | none => exact ⟨.noFreeINodes, nofun, rfl⟩
    | some i =>
      dsimp only
      have large : file.size.toNat > disc.volume.freeBlocks.length * DataBlock.codec.size := by
        rw [HostFile.toNat_size]
        rcases refused with other | other | large
        · exact absurd found other
        · rw [free] at other
          cases other
        · exact large
      rw [Volume.getAmountOfFreeDataBlocks_eq layout, ok_bind, if_pos large]
      exact ⟨.notEnoughSpace, nofun, rfl⟩

/-- **COPYTO** of an admitted file is `storeFile` under the first free inode. -/
theorem copyFileToSystem_admitted {disc : Disc} {name : CString} {file : HostFile}
    (layout : disc.volume.superBlock.Layout) (admitted : ¬ disc.volume.Refuses name file) :
    ∃ i, disc.volume.freeINode = some i ∧ copyFileToSystem disc name (some file) =
      storeFile disc disc.volume name file i >>= fun r => .ok (r.1, .copied) := by
  unfold Volume.Refuses at admitted
  rw [not_or, not_or, not_not] at admitted
  obtain ⟨new, inode, small⟩ := admitted
  obtain ⟨i, free⟩ := Option.ne_none_iff_exists'.1 inode
  refine ⟨i, free, ?_⟩
  unfold copyFileToSystem
  dsimp only
  rw [Disc.loadSystem_eq layout, ok_bind, Volume.getINodeIndex_eq layout, ok_bind, new]
  dsimp only
  rw [Volume.getFirstFreeINodeIndex_eq layout, ok_bind, free]
  dsimp only
  have fits : ¬ file.size.toNat > disc.volume.freeBlocks.length * DataBlock.codec.size := by
    rw [HostFile.toNat_size]
    exact small
  rw [Volume.getAmountOfFreeDataBlocks_eq layout, ok_bind, if_neg fits]
  rfl

/-- **COPYTO** of an admitted file whose chunks find free blocks. -/
theorem copyFileToSystem_spec {disc : Disc} {name : CString} {file : HostFile}
    (layout : disc.volume.superBlock.Layout) (admitted : ¬ disc.volume.Refuses name file)
    (enough : chunks file.content.length ≤ disc.volume.freeBlocks.length) :
    ∃ disc' i, copyFileToSystem disc name (some file) = .ok (disc', .copied) ∧
      disc.volume.freeINode = some i ∧ Stored disc.volume name file i disc'.volume ∧ OnlyWrites disc file i disc' := by
  obtain ⟨i, free, done⟩ := copyFileToSystem_admitted layout admitted
  obtain ⟨disc', v', stored, spec⟩ := storeFile_spec name layout (Volume.freeINode_some free).1 enough
  refine ⟨disc', i, ?_, free, spec⟩
  rw [done, stored]
  rfl

end SoiExercises.Vfs
