import SoiExercises.Lib.Run
import SoiExercises.Vfs.Commands

/-!
# Runs of commands on a disc

`Effect` lists what a command can do to the volume, and `step_effect` says that a completed command does
one of these as long as its links are offsets of blocks and what it copies finds a free block for each
chunk. Every invariant of runs is an invariant of `Effect`. `Sane` is the one that all the results about
runs from CREATE share.
-/

namespace SoiExercises.Vfs

open SoiExercises.Lib

/-- A command that stays in the data blocks: a file is copied only if each of its chunks finds a free block,
and RM starts at the offset of a block. -/
def Admissible (disc : Disc) : Command × Reply → Prop
  | (.copyTo _ (some file), .copied) => chunks file.content.length ≤ disc.volume.freeBlocks.length
  | (.rm name, _) => ∀ i, disc.volume.lookup name = some i → disc.volume.Linkable (disc.volume.iNodes i).firstBlock
  | _ => True

/-- What a command with its reply can do to the volume. -/
inductive Effect (v : Volume) : Command × Reply → Volume → Prop
  | refused {name : CString} {file : Option HostFile} {reply : Reply} : reply ≠ .copied →
      Effect v (.copyTo name file, reply) v
  | notFound {name : CString} : v.lookup name = none → Effect v (.rm name, .notFound) v
  | stored {name : CString} {file : HostFile} {i : Nat} {v' : Volume} : ¬ v.Refuses name file →
      v.freeINode = some i → chunks file.content.length ≤ v.freeBlocks.length → Stored v name file i v' →
      Effect v (.copyTo name (some file), .copied) v'
  | deleted {name : CString} {i : Nat} {v' : Volume} : v.lookup name = some i → Deleted v i v' →
      Effect v (.rm name, .deleted) v'

section StepEffect

variable {disc disc' : Disc} {name : CString} {file : Option HostFile} {reply : Reply}

theorem copyTo_effect (layout : disc.volume.superBlock.Layout) (admissible : Admissible disc (.copyTo name file, reply))
    (step : copyFileToSystem disc name file = .ok (disc', reply)) :
    Effect disc.volume (.copyTo name file, reply) disc'.volume := by
  cases file with
  | none =>
    obtain ⟨rfl, rfl⟩ := Prod.mk.inj (Except.ok.inj step)
    exact .refused nofun
  | some file =>
    by_cases refused : disc.volume.Refuses name file
    · obtain ⟨reply', no, done⟩ := copyFileToSystem_refused layout refused
      obtain ⟨rfl, rfl⟩ := Prod.mk.inj (Except.ok.inj (done.symm.trans step))
      exact .refused no
    · obtain rfl : .copied = reply := by
        obtain ⟨i, -, done⟩ := copyFileToSystem_admitted layout refused
        rw [done] at step
        obtain ⟨r, -, last⟩ := bind_eq_ok.1 step
        exact (Prod.mk.inj (Except.ok.inj last)).2
      obtain ⟨d, i, done, free, stored, -⟩ := copyFileToSystem_spec layout refused admissible
      obtain ⟨rfl, -⟩ := Prod.mk.inj (Except.ok.inj (done.symm.trans step))
      exact .stored refused free admissible stored

theorem rm_effect (layout : disc.volume.superBlock.Layout) (linked : disc.volume.Linked)
    (admissible : Admissible disc (.rm name, reply)) (step : deleteFile disc name = .ok (disc', reply)) :
    Effect disc.volume (.rm name, reply) disc'.volume := by
  cases found : disc.volume.lookup name with
  | none =>
    have done := deleteFile_notFound layout found
    obtain ⟨rfl, rfl⟩ := Prod.mk.inj (Except.ok.inj (done.symm.trans step))
    exact .notFound found
  | some i =>
    obtain ⟨d, done, deleted, -⟩ := deleteFile_spec layout linked found (admissible i found)
    obtain ⟨rfl, rfl⟩ := Prod.mk.inj (Except.ok.inj (done.symm.trans step))
    exact .deleted found deleted

/-- **The effect of a completed command.** -/
theorem step_effect {e : Command × Reply} (layout : disc.volume.superBlock.Layout) (linked : disc.volume.Linked)
    (admissible : Admissible disc e) (step : Step disc e disc') : Effect disc.volume e disc'.volume := by
  obtain ⟨command, reply⟩ := e
  cases command with
  | copyTo name file => exact copyTo_effect layout admissible step
  | rm name => exact rm_effect layout linked admissible step

end StepEffect

section StoreChain

variable {s : SuperBlock} {blocks : Nat → DataBlock} {l : List Nat} {content : List UInt8} {i : Nat}

/-- The blocks that are not taken stay. -/
theorem storeChain_outside (outside : i ∉ l) : storeChain s blocks l content i = blocks i := by
  induction l generalizing blocks content with
  | nil => rfl
  | cons b l ih =>
    rw [List.mem_cons, not_or] at outside
    rw [storeChain, ih outside.2, Function.update_of_ne outside.1]

/-- The block at place `k` gets the chunk `k` of the file, and is linked to the next one. -/
theorem storeChain_getElem {k : Nat} (distinct : l.Nodup) (hk : k < l.length) :
    storeChain s blocks l content l[k] =
      chunkBlock (content.drop (k * BLOCK_SIZE)) (s.blockOffset (l.getD (k + 1) 0)) := by
  induction l generalizing blocks content k with
  | nil => exact absurd hk (Nat.not_lt_zero k)
  | cons b l ih =>
    obtain ⟨fresh, distinct⟩ := List.nodup_cons.1 distinct
    rw [storeChain]
    cases k with
    | zero =>
      rw [List.getElem_cons_zero, storeChain_outside fresh, Function.update_self, Nat.zero_mul, List.drop_zero]
      cases l with
      | nil => rfl
      | cons c l => rfl
    | succ k =>
      rw [List.getElem_cons_succ, ih distinct (by simpa using hk), List.drop_drop, Nat.succ_mul, Nat.add_comm]
      rfl

end StoreChain

namespace Stored

variable {v v' : Volume} {name : CString} {file : HostFile} {i k : Nat}

theorem outside (h : Stored v name file i v') (untaken : k ∉ v.taken file) : v'.dataBlocks k = v.dataBlocks k := by
  rw [h.dataBlocks, storeChain_outside untaken]

theorem blockAmount (h : Stored v name file i v') : v'.blockAmount = v.blockAmount :=
  congrArg (fun s => s.blockAmount.toNat) h.superBlock

theorem iNodeAmount (h : Stored v name file i v') : v'.iNodeAmount = v.iNodeAmount :=
  congrArg (fun s => s.iNodeAmount.toNat) h.superBlock

/-- RM undoes COPYTO when the links of the file lead to its blocks, and to blocks that were empty. -/
theorem undone {w : Volume} (h : Stored v name file i v') (deleted : Deleted v' i w) (inode : v.iNodes i = {})
    (owned : ∀ k ∈ v.taken file, Reach v'.link (v'.target (v'.iNodes i).firstBlock) k)
    (empty : ∀ k, Reach v'.link (v'.target (v'.iNodes i).firstBlock) k → v.dataBlocks k = {}) : w = v := by
  have superBlock : w.superBlock = v.superBlock := deleted.superBlock.trans h.superBlock
  have iNodes : w.iNodes = v.iNodes := by
    rw [deleted.iNodes, h.iNodes, Function.update_idem, ← inode, Function.update_eq_self]
  have dataBlocks : w.dataBlocks = v.dataBlocks := by
    funext k
    by_cases linked : Reach v'.link (v'.target (v'.iNodes i).firstBlock) k
    · exact (deleted.cleared k linked).trans (empty k linked).symm
    · exact (deleted.kept k linked).trans (h.outside fun taken => linked (owned k taken))
  cases w
  cases v
  congr

/-- The volume after COPYTO of a file of one chunk. -/
theorem volume_eq {b : Nat} (h : Stored v name file i v') (one : chunks file.content.length = 1)
    (head : v.freeBlocks.head? = some b) :
    v' = (v.setINode i (newINode name file (v.superBlock.blockOffset b))).setBlock b
      (chunkBlock file.content (v.superBlock.blockOffset 0)) := by
  have taken : v.taken file = [b] := by
    unfold Volume.taken
    rw [one, List.take_one, head]
    rfl
  have first : v.newFirstBlock = v.superBlock.blockOffset b := by
    unfold Volume.newFirstBlock
    rw [head]
    exact SuperBlock.offsetFromIndex
  obtain ⟨superBlock, iNodes, dataBlocks⟩ := h
  rw [taken] at dataBlocks
  rw [first] at iNodes
  cases v'
  obtain rfl := superBlock
  obtain rfl := iNodes
  obtain rfl := dataBlocks
  rfl

theorem mem_taken (taken : k ∈ v.taken file) : k < v.blockAmount ∧ v.isDataBlockFree k :=
  Volume.mem_freeBlocks.1 (List.mem_of_mem_take taken)

theorem nodup_taken : (v.taken file).Nodup := Volume.nodup_freeBlocks.sublist (List.take_sublist _ _)

/-- The block at place `k` holds the chunk `k` of the file. -/
theorem chunk {b : Nat} (h : Stored v name file i v') (place : (v.taken file)[k]? = some b) (c : Fin BLOCK_SIZE) :
    (v'.dataBlocks b).data c = file.content.getD (k * BLOCK_SIZE + c) 0 := by
  obtain ⟨hk, rfl⟩ := List.getElem?_eq_some_iff.1 place
  rw [h.dataBlocks, storeChain_getElem nodup_taken hk]
  show (file.content.drop (k * BLOCK_SIZE)).getD c 0 = _
  rw [List.getD_eq_getElem?_getD, List.getElem?_drop, ← List.getD_eq_getElem?_getD]

theorem linked (h : Stored v name file i v') (layout : v.superBlock.Layout) (linked : v.Linked) : v'.Linked := by
  intro k hk
  unfold Volume.Linkable
  rw [h.blockAmount] at hk ⊢
  rw [h.superBlock]
  by_cases taken : k ∈ v.taken file
  · obtain ⟨n, hn, rfl⟩ := List.mem_iff_getElem.1 taken
    rw [h.dataBlocks, storeChain_getElem nodup_taken hn]
    refine .inr ⟨_, ?_, rfl⟩
    by_cases last : n + 1 < (v.taken file).length
    · rw [List.getD_eq_getElem _ _ last]
      exact (mem_taken (List.getElem_mem last)).1
    · rw [List.getD_eq_default _ _ (by omega)]
      exact layout.nonempty
  · rw [h.outside taken]
    exact linked k hk

end Stored

theorem Deleted.blockAmount {v v' : Volume} {i : Nat} (h : Deleted v i v') : v'.blockAmount = v.blockAmount :=
  congrArg (fun s => s.blockAmount.toNat) h.superBlock

theorem Deleted.iNodeAmount {v v' : Volume} {i : Nat} (h : Deleted v i v') : v'.iNodeAmount = v.iNodeAmount :=
  congrArg (fun s => s.iNodeAmount.toNat) h.superBlock

section Sane

/-- With a free block the first block of a new file is the first free one. -/
theorem newFirstBlock_eq {v : Volume} (room : 1 ≤ v.freeBlocks.length) :
    ∃ b, v.freeBlocks.head? = some b ∧ v.newFirstBlock = v.superBlock.blockOffset b := by
  obtain ⟨b, rest, split⟩ := List.exists_cons_of_length_pos room
  refine ⟨b, by rw [split]; rfl, ?_⟩
  unfold Volume.newFirstBlock
  rw [split]
  exact SuperBlock.offsetFromIndex

theorem newFirstBlock_ne_zero {v : Volume} (layout : v.superBlock.Layout) (room : 1 ≤ v.freeBlocks.length) :
    v.newFirstBlock ≠ 0 := by
  obtain ⟨b, head, first⟩ := newFirstBlock_eq room
  rw [first]
  exact layout.blockOffset_ne_zero (Volume.mem_freeBlocks.1 (List.mem_of_head? head)).1

/-- There is a block for each chunk of what is copied, and for the first block of an empty file. -/
def HasRoom (disc : Disc) : Command × Reply → Prop
  | (.copyTo _ (some file), .copied) => max 1 (chunks file.content.length) ≤ disc.volume.freeBlocks.length
  | _ => True

/-- An inode is empty, or it has a name and its first block is a block of the disc. -/
def Volume.Slot (v : Volume) (n : INode) : Prop :=
  n = {} ∨ (∃ b < v.blockAmount, n.firstBlock = v.superBlock.blockOffset b) ∧ (cString n.fileName).bytes ≠ []

/-- What holds of every disc that commands with enough room make of a new one. -/
structure Sane (size : UInt64) (v : Volume) : Prop where
  superBlock : v.superBlock = initializeSuperBlock size
  linked : v.Linked
  slots : ∀ i, v.Slot (v.iNodes i)

namespace Sane

variable {size : UInt64} {v v' : Volume} {i : Nat}

theorem layout (h : Sane size v) (layout : (initializeSuperBlock size).Layout) : v.superBlock.Layout :=
  h.superBlock ▸ layout

/-- An inode that counts as free is empty. -/
theorem free (h : Sane size v) (layout : v.superBlock.Layout) (free : v.isINodeFree i) : v.iNodes i = {} := by
  rcases h.slots i with empty | ⟨⟨b, hb, first⟩, -⟩
  · exact empty
  · simp only [Volume.isINodeFree, Bool.and_eq_true, decide_eq_true_eq] at free
    exact absurd (first.symm.trans free.2) (layout.blockOffset_ne_zero hb)

/-- An empty name is found as soon as there is a free inode. -/
theorem name_nonempty {name : CString} (h : Sane size v) (layout : v.superBlock.Layout) (new : v.lookup name = none)
    (free : v.freeINode = some i) : name.bytes ≠ [] := by
  intro empty
  obtain ⟨inside, isFree⟩ := Volume.freeINode_some free
  have unfound := List.find?_eq_none.1 new i (List.mem_range.2 inside)
  have named : cString (v.iNodes i).fileName = name := by
    rw [h.free layout isFree]
    exact CString.ext (cString_empty.trans empty.symm)
  exact unfound (by simpa using named)

theorem admissible {disc : Disc} {e : Command × Reply} (h : Sane size disc.volume) (room : HasRoom disc e) :
    Admissible disc e := by
  obtain ⟨command, reply⟩ := e
  cases command with
  | copyTo name file =>
    cases file with
    | none => exact trivial
    | some file =>
      cases reply
      case copied => exact le_trans (le_max_right _ _) room
      all_goals exact trivial
  | rm name =>
    intro i found
    rcases h.slots i with empty | ⟨first, -⟩
    · rw [empty]
      exact .inl rfl
    · exact .inr first

/-- **One command keeps the disc sane.** -/
theorem effect {disc : Disc} {e : Command × Reply} (h : Sane size disc.volume) (layout : disc.volume.superBlock.Layout)
    (room : HasRoom disc e) (effect : Effect disc.volume e v') : Sane size v' := by
  cases effect with
  | refused => exact h
  | notFound => exact h
  | @stored name file i _ admitted free enough stored =>
    refine ⟨stored.superBlock.trans h.superBlock, stored.linked layout h.linked, fun k => ?_⟩
    unfold Volume.Slot
    rw [stored.iNodes, stored.blockAmount, stored.superBlock]
    by_cases same : k = i
    · subst same
      rw [Function.update_self]
      obtain ⟨b, head, first⟩ := newFirstBlock_eq (le_trans (le_max_left 1 _) room)
      have hb := List.mem_of_head? head
      have new : disc.volume.lookup name = none := by
        by_contra found
        exact admitted (.inl found)
      refine .inr ⟨⟨b, (Volume.mem_freeBlocks.1 hb).1, first⟩, ?_⟩
      show (cString (fileNameField name)).bytes ≠ []
      rw [cString_fileNameField]
      exact CString.cut_nonempty (h.name_nonempty layout new free)
    · rw [Function.update_of_ne same]
      exact h.slots k
  | @deleted name i _ found deleted =>
    refine ⟨deleted.superBlock.trans h.superBlock, deleted.linked h.linked, fun k => ?_⟩
    unfold Volume.Slot
    rw [deleted.iNodes, deleted.blockAmount, deleted.superBlock]
    by_cases same : k = i
    · subst same
      rw [Function.update_self]
      exact .inl rfl
    · rw [Function.update_of_ne same]
      exact h.slots k

end Sane

def SaneDisc (size : UInt64) (disc : Disc) : Prop := Sane size disc.volume

/-- A disc that CREATE of a size makes, and that commands with enough room lead to. -/
structure Reached (size : UInt64) (es : List (Command × Reply)) (disc : Disc) : Prop where
  fits : (initializeSuperBlock size).blockAmount.toNat ≤ INT_MAX
  run : ∃ new, createSystem size = some new ∧ Run (Guarded Step HasRoom) new es disc

namespace Reached

variable {size : UInt64} {es : List (Command × Reply)} {disc disc' : Disc} {e : Command × Reply}

theorem fresh_sane : Sane size (freshVolume size) where
  superBlock := rfl
  linked := fun _ _ => .inl rfl
  slots := fun _ => .inl rfl

theorem layout (h : Reached size es disc) : (initializeSuperBlock size).Layout := by
  obtain ⟨new, created, -⟩ := h.run
  exact (volume_createSystem h.fits created).2

/-- **Every disc that is reached is sane.** -/
theorem sane (h : Reached size es disc) : Sane size disc.volume := by
  obtain ⟨new, created, run⟩ := h.run
  obtain ⟨fresh, layout⟩ := volume_createSystem h.fits created
  have kept : ∀ {d e d'}, SaneDisc size d → Guarded Step HasRoom d e d' → SaneDisc size d' := by
    intro d e d' sane step
    have layout := Sane.layout sane layout
    exact Sane.effect sane layout step.2
      (step_effect layout (Sane.linked sane) (Sane.admissible sane step.2) step.1)
  have start : SaneDisc size new := by
    unfold SaneDisc
    rw [fresh]
    exact fresh_sane
  have sane : SaneDisc size disc := run.invariant kept start
  exact sane

theorem effect (h : Reached size es disc) (room : HasRoom disc e) (step : Step disc e disc') :
    Effect disc.volume e disc'.volume :=
  step_effect (h.sane.layout h.layout) h.sane.linked (h.sane.admissible room) step

theorem snoc (h : Reached size es disc) (room : HasRoom disc e) (step : Step disc e disc') :
    Reached size (es ++ [e]) disc' := by
  obtain ⟨new, created, run⟩ := h.run
  exact ⟨h.fits, new, created, run.snoc ⟨step, room⟩⟩

/-- An admitted COPYTO with enough room goes through. -/
theorem copy {name : CString} {file : HostFile} (h : Reached size es disc)
    (admitted : ¬ disc.volume.Refuses name file)
    (room : max 1 (chunks file.content.length) ≤ disc.volume.freeBlocks.length) :
    ∃ disc' i, Reached size (es ++ [(.copyTo name (some file), .copied)]) disc' ∧
      copyFileToSystem disc name (some file) = .ok (disc', .copied) ∧
      disc.volume.freeINode = some i ∧ Stored disc.volume name file i disc'.volume := by
  obtain ⟨disc', i, done, free, stored, -⟩ :=
    copyFileToSystem_spec (h.sane.layout h.layout) admitted (le_trans (le_max_right _ _) room)
  have room : HasRoom disc (.copyTo name (some file), .copied) := room
  exact ⟨disc', i, h.snoc room done, done, free, stored⟩

/-- RM of a stored name goes through. -/
theorem delete {name : CString} {i : Nat} (h : Reached size es disc) (found : disc.volume.lookup name = some i) :
    ∃ disc', Reached size (es ++ [(.rm name, .deleted)]) disc' ∧ deleteFile disc name = .ok (disc', .deleted) ∧
      Deleted disc.volume i disc'.volume := by
  have room : HasRoom disc (.rm name, .deleted) := trivial
  have linkable := h.sane.admissible room i found
  obtain ⟨disc', done, deleted, -⟩ := deleteFile_spec (h.sane.layout h.layout) h.sane.linked found linkable
  exact ⟨disc', h.snoc room done, done, deleted⟩

end Reached

/-- A disc that CREATE of a size makes, and that commands which meet a condition lead to. -/
structure ReachedBy (cond : Disc → Command × Reply → Prop) (size : UInt64) (es : List (Command × Reply)) (disc : Disc) :
    Prop where
  fits : (initializeSuperBlock size).blockAmount.toNat ≤ INT_MAX
  run : ∃ new, createSystem size = some new ∧ Run (Guarded Step cond) new es disc

namespace ReachedBy

variable {cond : Disc → Command × Reply → Prop} {Inv : Volume → Prop} {size : UInt64} {es : List (Command × Reply)}
  {disc : Disc}

theorem reached (h : ReachedBy cond size es disc) (room : ∀ {d e}, cond d e → HasRoom d e) : Reached size es disc := by
  obtain ⟨new, created, run⟩ := h.run
  exact ⟨h.fits, new, created, run.mono fun step => ⟨step.1, room step.2⟩⟩

/-- An invariant of the volume beside what all runs keep. -/
structure Keeps (Inv : Volume → Prop) (size : UInt64) (es : List (Command × Reply)) (disc : Disc) : Prop where
  reached : Reached size es disc
  inv : Inv disc.volume

/-- **The rule for runs from CREATE**: what the effects of the commands preserve. -/
theorem invariant (h : ReachedBy cond size es disc) (room : ∀ {d e}, cond d e → HasRoom d e)
    (start : Inv (freshVolume size))
    (kept : ∀ {es d e v'}, Reached size es d → Inv d.volume → cond d e → Effect d.volume e v' → Inv v') :
    Inv disc.volume := by
  obtain ⟨new, created, run⟩ := h.run
  have init : Keeps Inv size [] new := by
    refine ⟨⟨h.fits, new, created, .nil new⟩, ?_⟩
    rw [(volume_createSystem h.fits created).1]
    exact start
  have step : ∀ {es d e d'}, Keeps Inv size es d → Guarded Step cond d e d' → Keeps Inv size (es ++ [e]) d' := by
    intro es d e d' ⟨reached, inv⟩ ⟨step, meets⟩
    exact ⟨reached.snoc (room meets) step, kept reached inv meets (reached.effect (room meets) step)⟩
  have keeps : Keeps Inv size es disc := run.invariant_events step init
  exact keeps.inv

end ReachedBy

end Sane

section Fresh

variable {size : UInt64} {name : CString} {i : Nat}

theorem fresh_freeBlocks : (freshVolume size).freeBlocks = List.range (freshVolume size).blockAmount := by
  unfold Volume.freeBlocks
  apply List.filter_eq_self.2
  intro i _
  unfold Volume.isDataBlockFree
  exact decide_eq_true fun _ => rfl

theorem fresh_lookup (named : name.bytes ≠ []) : (freshVolume size).lookup name = none := by
  apply List.find?_eq_none.2
  intro i _ same
  have same : cString ((freshVolume size).iNodes i).fileName = name := by simpa using same
  exact named (same ▸ cString_empty)

theorem fresh_freeINode (pos : 0 < (freshVolume size).iNodeAmount) : (freshVolume size).freeINode = some 0 := by
  obtain ⟨n, hn⟩ : ∃ n, (freshVolume size).iNodeAmount = n + 1 := ⟨_, (Nat.succ_pred_eq_of_pos pos).symm⟩
  have free : (freshVolume size).isINodeFree 0 := rfl
  unfold Volume.freeINode
  rw [hn, List.range_succ_eq_map, List.find?_cons_of_pos free]

/-- The smallest disc that CREATE makes has 950 data blocks. -/
theorem smallest_blockAmount : (freshVolume MIN_FILE_SYSTEM_SIZE).blockAmount = 950 :=
  blockAmount_initializeSuperBlock (UInt64.le_refl _)

theorem smallest_fits : (initializeSuperBlock MIN_FILE_SYSTEM_SIZE).blockAmount.toNat ≤ INT_MAX := by
  have amount := smallest_blockAmount
  unfold Volume.blockAmount at amount
  rw [show initializeSuperBlock MIN_FILE_SYSTEM_SIZE = (freshVolume MIN_FILE_SYSTEM_SIZE).superBlock from rfl, amount]
  decide

theorem smallest_iNodeAmount : (freshVolume MIN_FILE_SYSTEM_SIZE).iNodeAmount = 128 :=
  iNodeAmount_initializeSuperBlock MIN_FILE_SYSTEM_SIZE

/-- The smallest disc. -/
theorem smallest : ∃ new, createSystem MIN_FILE_SYSTEM_SIZE = some new ∧ new.volume = freshVolume MIN_FILE_SYSTEM_SIZE ∧
    Reached MIN_FILE_SYSTEM_SIZE [] new := by
  obtain ⟨new, created⟩ : ∃ new, createSystem MIN_FILE_SYSTEM_SIZE = some new := ⟨_, if_neg (by decide)⟩
  exact ⟨new, created, (volume_createSystem smallest_fits created).1, smallest_fits, new, created, .nil new⟩

/-- The file names `a` and `b`. -/
def nameA : CString := ⟨[97], by decide⟩

def nameB : CString := ⟨[98], by decide⟩

/-- A file of one byte. -/
def byteFile (c : UInt8) : HostFile where
  content := [c]
  small := by
    show 1 < 2 ^ 63
    decide

theorem chunks_byteFile {c : UInt8} : chunks (byteFile c).content.length = 1 := by
  show chunks 1 = 1
  decide

theorem Volume.head_freeBlocks {v : Volume} {b : Nat} :
    v.freeBlocks.head? = some b ↔ v.isDataBlockFree b ∧ b < v.blockAmount ∧ ∀ j < b, v.isDataBlockFree j = false := by
  unfold Volume.freeBlocks
  rw [List.head?_filter, List.find?_range_eq_some, List.mem_range]
  simp only [Bool.not_eq_true']

theorem smallest_pos : 0 < (freshVolume MIN_FILE_SYSTEM_SIZE).blockAmount := by
  rw [smallest_blockAmount]
  decide

theorem smallest_head : (freshVolume MIN_FILE_SYSTEM_SIZE).freeBlocks.head? = some 0 :=
  Volume.head_freeBlocks.2 ⟨decide_eq_true fun _ => rfl, smallest_pos, fun j hj => absurd hj (Nat.not_lt_zero j)⟩

theorem smallest_newFirstBlock : (freshVolume MIN_FILE_SYSTEM_SIZE).newFirstBlock =
    (freshVolume MIN_FILE_SYSTEM_SIZE).superBlock.blockOffset 0 := by
  unfold Volume.newFirstBlock
  rw [smallest_head]
  exact SuperBlock.offsetFromIndex

/-- A first file on the smallest disc. -/
theorem smallest_copy {file : HostFile} (named : name.bytes ≠ []) (small : file.content.length ≤ 950 * BLOCK_SIZE) :
    ∃ new disc, createSystem MIN_FILE_SYSTEM_SIZE = some new ∧
      copyFileToSystem new name (some file) = .ok (disc, .copied) ∧
      Reached MIN_FILE_SYSTEM_SIZE [(.copyTo name (some file), .copied)] disc ∧
      Stored (freshVolume MIN_FILE_SYSTEM_SIZE) name file 0 disc.volume := by
  obtain ⟨new, created, fresh, reached⟩ := smallest
  have free : new.volume.freeBlocks.length = 950 := by
    rw [fresh, fresh_freeBlocks, List.length_range, smallest_blockAmount]
  have inode : new.volume.freeINode = some 0 := by
    rw [fresh]
    exact fresh_freeINode (by rw [smallest_iNodeAmount]; omega)
  have admitted : ¬ new.volume.Refuses name file := by
    unfold Volume.Refuses
    rw [free, inode, fresh, fresh_lookup named]
    unfold BLOCK_SIZE at small
    simp only [ne_eq, not_true_eq_false, reduceCtorEq, false_or]
    omega
  have room : max 1 (chunks file.content.length) ≤ new.volume.freeBlocks.length := by
    rw [free]
    unfold chunks BLOCK_SIZE
    unfold BLOCK_SIZE at small
    omega
  obtain ⟨disc, i, after, done, first, stored⟩ := reached.copy admitted room
  obtain rfl : 0 = i := Option.some.inj (inode.symm.trans first)
  exact ⟨new, disc, created, done, after, fresh ▸ stored⟩

end Fresh

end SoiExercises.Vfs
