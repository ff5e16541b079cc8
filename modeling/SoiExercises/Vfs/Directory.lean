import SoiExercises.Vfs.Runs

/-!
# The inode table as a directory

The names of the inodes in use are the directory of a disc. A new file takes the first free inode, RM
empties the inode that its name is found at, and no other inode changes. Over a whole run the directory
is exact (`directory_exact`): no history duplicates, hides or loses a name.
-/

namespace SoiExercises.Vfs

open SoiExercises.Lib

namespace Volume

variable {v v' : Volume} {i j : Nat} {name : CString}

def nameAt (v : Volume) (i : Nat) : CString := cString (v.iNodes i).fileName

/-- The names that LS prints. -/
def names (v : Volume) : List CString :=
  ((List.range v.iNodeAmount).filter fun i => !v.isINodeFree i).map v.nameAt

theorem mem_names : name ∈ v.names ↔ ∃ i < v.iNodeAmount, v.isINodeFree i = false ∧ v.nameAt i = name := by
  unfold names
  simp only [List.mem_map, List.mem_filter, List.mem_range, Bool.not_eq_true', and_assoc]

/-- The table is full when there are as many names as inodes. -/
theorem freeINode_eq_none_iff : v.freeINode = none ↔ v.names.length = v.iNodeAmount := by
  have size : (List.range v.iNodeAmount).length = v.iNodeAmount := List.length_range
  unfold freeINode names
  rw [List.find?_eq_none, List.length_map]
  conv_rhs => rhs; rw [← size]
  rw [List.length_filter_eq_length_iff]
  simp only [Bool.not_eq_true, Bool.not_eq_true']

/-- A name is found at the first inode that has it. -/
theorem lookup_eq_some : v.lookup name = some i ↔ i < v.iNodeAmount ∧ v.nameAt i = name ∧ ∀ j < i, v.nameAt j ≠ name := by
  unfold lookup
  rw [List.find?_range_eq_some, List.mem_range]
  simp only [decide_eq_true_eq, Bool.not_eq_true', decide_eq_false_iff_not]
  exact and_left_comm

theorem lookup_eq_none : v.lookup name = none ↔ ∀ i < v.iNodeAmount, v.nameAt i ≠ name := by
  unfold lookup
  rw [List.find?_eq_none]
  simp only [List.mem_range, decide_eq_true_eq]
  exact Iff.rfl

/-- A name is still found after the inode of another one has changed. -/
theorem lookup_update {k : Nat} {other : CString} (found : v.lookup name = some i)
    (iNodeAmount : v'.iNodeAmount = v.iNodeAmount) (nameAt : v'.nameAt = Function.update v.nameAt k other)
    (apart : i ≠ k) (ne : other ≠ name) : v'.lookup name = some i := by
  obtain ⟨inside, named, first⟩ := lookup_eq_some.1 found
  rw [lookup_eq_some, iNodeAmount, nameAt]
  refine ⟨inside, ?_, fun j hj => ?_⟩
  · rw [Function.update_of_ne apart]
    exact named
  · by_cases same : j = k
    · subst same
      rw [Function.update_self]
      exact ne
    · rw [Function.update_of_ne same]
      exact first j hj

/-- One inode changes, and its name with it. -/
theorem nameAt_update {n : INode} (iNodes : v'.iNodes = Function.update v.iNodes i n) :
    v'.nameAt = Function.update v.nameAt i (cString n.fileName) := by
  have names (w : Volume) : w.nameAt = (fun n => cString n.fileName) ∘ w.iNodes := rfl
  rw [names, names, iNodes, Function.comp_update]

theorem isINodeFree_update {n : INode} (iNodes : v'.iNodes = Function.update v.iNodes i n) :
    v'.isINodeFree = Function.update v.isINodeFree i (n.fileSize = 0 && n.firstBlock = 0) := by
  have free (w : Volume) : w.isINodeFree = (fun n => n.fileSize = 0 && n.firstBlock = 0) ∘ w.iNodes := rfl
  rw [free, free, iNodes, Function.comp_update]

end Volume

theorem showFiles_eq {disc : Disc} (layout : disc.volume.superBlock.Layout) :
    showFiles disc = .ok disc.volume.names := by
  unfold showFiles
  rw [Disc.loadSystem_eq layout]
  rfl

namespace Stored

variable {v v' : Volume} {name : CString} {file : HostFile} {i : Nat}

theorem nameAt (h : Stored v name file i v') : v'.nameAt = Function.update v.nameAt i name.cut := by
  rw [Volume.nameAt_update h.iNodes]
  exact congrArg _ cString_fileNameField

theorem isINodeFree (h : Stored v name file i v') (first : v.newFirstBlock ≠ 0) :
    v'.isINodeFree = Function.update v.isINodeFree i false := by
  have used : (decide ((newINode name file v.newFirstBlock).fileSize = 0) && decide (v.newFirstBlock = 0)) = false := by
    rw [decide_eq_false first, Bool.and_false]
  rw [Volume.isINodeFree_update h.iNodes]
  exact congrArg _ used

end Stored

namespace Deleted

variable {v v' : Volume} {i : Nat}

theorem nameAt (h : Deleted v i v') : v'.nameAt = Function.update v.nameAt i ⟨[], List.not_mem_nil⟩ := by
  rw [Volume.nameAt_update h.iNodes]
  exact congrArg _ (CString.ext cString_empty)

theorem isINodeFree (h : Deleted v i v') : v'.isINodeFree = Function.update v.isINodeFree i true :=
  Volume.isINodeFree_update h.iNodes

end Deleted

namespace Sane

variable {size : UInt64} {v : Volume} {i : Nat} {name : CString}

/-- A free inode has no name, and an inode in use has one. -/
theorem free_iff (h : Sane size v) (layout : v.superBlock.Layout) : v.isINodeFree i ↔ (v.nameAt i).bytes = [] := by
  constructor
  · intro free
    unfold Volume.nameAt
    rw [h.free layout free]
    exact cString_empty
  · intro none
    rcases h.slots i with empty | ⟨-, named⟩
    · unfold Volume.isINodeFree
      rw [empty]
      rfl
    · exact absurd none named

theorem named (h : Sane size v) (layout : v.superBlock.Layout) (used : v.isINodeFree i = false) :
    (v.nameAt i).bytes ≠ [] := by
  intro none
  rw [← h.free_iff layout, used] at none
  cases none

/-- A name is found at an inode in use. -/
theorem lookup_used (h : Sane size v) (layout : v.superBlock.Layout) (named : name.bytes ≠ [])
    (found : v.lookup name = some i) : v.isINodeFree i = false := by
  rw [← Bool.not_eq_true, h.free_iff layout, (Volume.lookup_eq_some.1 found).2.1]
  exact named

theorem lookup_ne_none_iff (h : Sane size v) (layout : v.superBlock.Layout) (named : name.bytes ≠ []) :
    v.lookup name ≠ none ↔ name ∈ v.names := by
  rw [Volume.mem_names]
  constructor
  · intro some
    obtain ⟨i, found⟩ := Option.ne_none_iff_exists'.1 some
    obtain ⟨inside, same, -⟩ := Volume.lookup_eq_some.1 found
    exact ⟨i, inside, h.lookup_used layout named found, same⟩
  · rintro ⟨i, inside, -, same⟩ none
    exact Volume.lookup_eq_none.1 none i inside same

theorem nonempty_of_mem (h : Sane size v) (layout : v.superBlock.Layout) (listed : name ∈ v.names) :
    name.bytes ≠ [] := by
  obtain ⟨i, -, used, rfl⟩ := Volume.mem_names.1 listed
  exact h.named layout used

theorem lookup_of_mem (h : Sane size v) (layout : v.superBlock.Layout) (listed : name ∈ v.names) :
    ∃ i, v.lookup name = some i :=
  Option.ne_none_iff_exists'.1 ((h.lookup_ne_none_iff layout (h.nonempty_of_mem layout listed)).2 listed)

end Sane

section Present

variable {es : List (Command × Reply)} {e : Command × Reply} {name : CString} {size : UInt64} {n : INode}

/-- The last successful COPYTO of the name was not followed by a successful RM. -/
def Present (es : List (Command × Reply)) (name : CString) : Prop :=
  ∃ es₁ file es₂, es = es₁ ++ (.copyTo name file, .copied) :: es₂ ∧ (.rm name, .deleted) ∉ es₂

/-- `n` is the inode that the last successful COPYTO of the name, not followed by a successful RM, made. -/
def Recorded (size : UInt64) (es : List (Command × Reply)) (name : CString) (n : INode) : Prop :=
  ∃ es₁ file es₂ disc, es = es₁ ++ (.copyTo name (some file), .copied) :: es₂ ∧ (.rm name, .deleted) ∉ es₂ ∧
    Reached size es₁ disc ∧ n = newINode name file disc.volume.newFirstBlock

theorem Recorded.present (h : Recorded size es name n) : Present es name := by
  obtain ⟨es₁, file, es₂, disc, split, kept, -⟩ := h
  exact ⟨es₁, file, es₂, split, kept⟩

theorem Recorded.snoc (h : Recorded size es name n) (kept : e ≠ (.rm name, .deleted)) :
    Recorded size (es ++ [e]) name n := by
  obtain ⟨es₁, file, es₂, disc, rfl, others, reached, same⟩ := h
  refine ⟨es₁, file, es₂ ++ [e], disc, by simp, ?_, reached, same⟩
  rw [List.mem_append, List.mem_singleton, not_or]
  exact ⟨others, kept.symm⟩

theorem Recorded.new {disc : Disc} {file : HostFile} (reached : Reached size es disc) :
    Recorded size (es ++ [(.copyTo name (some file), .copied)]) name (newINode name file disc.volume.newFirstBlock) :=
  ⟨es, file, [], disc, rfl, List.not_mem_nil, reached, rfl⟩

theorem Present.of_snoc (h : Present (es ++ [e]) name) :
    (∃ file, e = (.copyTo name file, .copied)) ∨ (Present es name ∧ e ≠ (.rm name, .deleted)) := by
  obtain ⟨es₁, file, es₂, split, kept⟩ := h
  rcases List.eq_nil_or_concat es₂ with rfl | ⟨es₃, x, rfl⟩
  · obtain ⟨-, last⟩ := List.append_inj' split rfl
    exact .inl ⟨file, (List.cons.inj last).1⟩
  · right
    have split' : es ++ [e] = (es₁ ++ (.copyTo name file, .copied) :: es₃) ++ [x] := by simpa using split
    obtain ⟨rfl, last⟩ := List.append_inj' split' rfl
    obtain ⟨rfl, -⟩ := List.cons.inj last
    rw [List.concat_eq_append, List.mem_append, List.mem_singleton, not_or] at kept
    exact ⟨⟨es₁, file, es₃, rfl, kept.1⟩, fun same => kept.2 same.symm⟩

end Present

/-- The name of a COPYTO has 1 to 511 bytes. -/
def NameFits : Command × Reply → Prop
  | (.copyTo name _, _) => name.bytes ≠ [] ∧ name.bytes.length < FILE_NAME_SIZE
  | _ => True

/-- The inode table is the directory that the events of a run describe. -/
structure Directory (size : UInt64) (es : List (Command × Reply)) (disc : Disc) : Prop where
  reached : Reached size es disc
  unique : ∀ i < disc.volume.iNodeAmount, ∀ j < disc.volume.iNodeAmount, disc.volume.isINodeFree i = false →
    disc.volume.isINodeFree j = false → disc.volume.nameAt i = disc.volume.nameAt j → i = j
  recorded : ∀ i < disc.volume.iNodeAmount, disc.volume.isINodeFree i = false →
    Recorded size es (disc.volume.nameAt i) (disc.volume.iNodes i)
  listed : ∀ name, Present es name → name ∈ disc.volume.names

namespace Directory

variable {size : UInt64} {es : List (Command × Reply)} {e : Command × Reply} {disc disc' : Disc}

theorem fresh {new : Disc} (reached : Reached size [] new) (fresh : new.volume = freshVolume size) :
    Directory size [] new := by
  refine ⟨reached, ?_, ?_, ?_⟩
  · rw [fresh]
    exact fun i _ j _ used => nomatch used
  · rw [fresh]
    exact fun i _ used => nomatch used
  · rintro name ⟨es₁, file, es₂, split, -⟩
    simp at split

/-- A command that leaves the volume as it is. -/
theorem same (h : Directory size es disc) (reached : Reached size (es ++ [e]) disc') (same : disc'.volume = disc.volume)
    (noCopy : ∀ name file, e ≠ (.copyTo name file, .copied)) (noRm : ∀ name, e ≠ (.rm name, .deleted)) :
    Directory size (es ++ [e]) disc' := by
  refine ⟨reached, ?_, ?_, fun name present => ?_⟩
  · rw [same]
    exact h.unique
  · rw [same]
    exact fun i hi used => (h.recorded i hi used).snoc (noRm _)
  · rw [same]
    rcases present.of_snoc with ⟨file, copy⟩ | ⟨present, -⟩
    · exact absurd copy (noCopy name file)
    · exact h.listed name present

/-- A successful COPYTO adds its name. -/
theorem stored {name : CString} {file : HostFile} {i : Nat} (h : Directory size es disc)
    (fits : name.bytes.length < FILE_NAME_SIZE)
    (reached : Reached size (es ++ [(.copyTo name (some file), .copied)]) disc')
    (new : disc.volume.lookup name = none) (free : disc.volume.freeINode = some i)
    (first : disc.volume.newFirstBlock ≠ 0) (stored : Stored disc.volume name file i disc'.volume) :
    Directory size (es ++ [(.copyTo name (some file), .copied)]) disc' := by
  have cut := CString.cut_eq fits
  have names := stored.nameAt
  rw [cut] at names
  have used := stored.isINodeFree first
  have new := Volume.lookup_eq_none.1 new
  obtain ⟨inside, isFree⟩ := Volume.freeINode_some free
  refine ⟨reached, ?_, ?_, fun other present => ?_⟩
  · rw [stored.iNodeAmount, names, used]
    intro j hj k hk
    by_cases hji : j = i
    · by_cases hki : k = i
      · exact fun _ _ _ => hji.trans hki.symm
      · rw [hji, Function.update_self, Function.update_self, Function.update_of_ne hki, Function.update_of_ne hki]
        exact fun _ _ same => absurd same.symm (new k hk)
    · by_cases hki : k = i
      · rw [hki, Function.update_self, Function.update_self, Function.update_of_ne hji, Function.update_of_ne hji]
        exact fun _ _ same => absurd same (new j hj)
      · rw [Function.update_of_ne hji, Function.update_of_ne hji, Function.update_of_ne hki,
          Function.update_of_ne hki]
        exact h.unique j hj k hk
  · rw [stored.iNodeAmount, names, used, stored.iNodes]
    intro j hj
    by_cases hji : j = i
    · subst hji
      rw [Function.update_self, Function.update_self, Function.update_self]
      exact fun _ => .new h.reached
    · rw [Function.update_of_ne hji, Function.update_of_ne hji, Function.update_of_ne hji]
      exact fun used => (h.recorded j hj used).snoc nofun
  · rw [Volume.mem_names, stored.iNodeAmount, names, used]
    rcases present.of_snoc with ⟨file', same⟩ | ⟨present, -⟩
    · obtain ⟨rfl, -⟩ := Command.copyTo.inj (Prod.mk.inj same).1
      exact ⟨i, inside, Function.update_self .., Function.update_self ..⟩
    · obtain ⟨j, hj, usedj, named⟩ := Volume.mem_names.1 (h.listed other present)
      have ne : j ≠ i := by
        rintro rfl
        rw [isFree] at usedj
        cases usedj
      refine ⟨j, hj, ?_, ?_⟩
      · rwa [Function.update_of_ne ne]
      · rwa [Function.update_of_ne ne]

/-- A successful RM removes its name. -/
theorem deleted {name : CString} {i : Nat} (h : Directory size es disc)
    (layout : disc.volume.superBlock.Layout) (reached : Reached size (es ++ [(.rm name, .deleted)]) disc')
    (found : disc.volume.lookup name = some i) (deleted : Deleted disc.volume i disc'.volume) :
    Directory size (es ++ [(.rm name, .deleted)]) disc' := by
  have names := deleted.nameAt
  have used := deleted.isINodeFree
  obtain ⟨inside, named, -⟩ := Volume.lookup_eq_some.1 found
  refine ⟨reached, ?_, ?_, fun other present => ?_⟩
  · rw [deleted.iNodeAmount, names, used]
    intro j hj k hk
    by_cases hji : j = i
    · subst hji
      rw [Function.update_self]
      exact fun no => nomatch no
    · by_cases hki : k = i
      · subst hki
        rw [Function.update_self]
        exact fun _ no => nomatch no
      · rw [Function.update_of_ne hji, Function.update_of_ne hji, Function.update_of_ne hki,
          Function.update_of_ne hki]
        exact h.unique j hj k hk
  · rw [deleted.iNodeAmount, names, used, deleted.iNodes]
    intro j hj
    by_cases hji : j = i
    · subst hji
      rw [Function.update_self]
      exact fun no => nomatch no
    · rw [Function.update_of_ne hji, Function.update_of_ne hji, Function.update_of_ne hji]
      intro usedj
      refine (h.recorded j hj usedj).snoc fun same => hji ?_
      -- the name of `j` would be that of `i`
      have same : name = disc.volume.nameAt j := Command.rm.inj (Prod.mk.inj same).1
      have nonempty : name.bytes ≠ [] := same ▸ h.reached.sane.named layout usedj
      exact h.unique j hj i inside usedj (h.reached.sane.lookup_used layout nonempty found)
        (same.symm.trans named.symm)
  · rw [Volume.mem_names, deleted.iNodeAmount, names, used]
    rcases present.of_snoc with ⟨file, no⟩ | ⟨present, kept⟩
    · cases no
    · obtain ⟨j, hj, usedj, namedj⟩ := Volume.mem_names.1 (h.listed other present)
      have ne : j ≠ i := by
        rintro rfl
        exact kept (by rw [← namedj, named])
      refine ⟨j, hj, ?_, ?_⟩
      · rwa [Function.update_of_ne ne]
      · rwa [Function.update_of_ne ne]

/-- **One command keeps the directory.** -/
theorem step (h : Directory size es disc) (fits : NameFits e) (step : Guarded Step HasRoom disc e disc') :
    Directory size (es ++ [e]) disc' := by
  obtain ⟨step, room⟩ := step
  have layout := h.reached.sane.layout h.reached.layout
  have effect := h.reached.effect room step
  have reached := h.reached.snoc room step
  generalize hv : disc'.volume = v' at effect
  cases effect with
  | refused no => exact h.same reached hv (fun name file same => no (Prod.mk.inj same).2) nofun
  | notFound => exact h.same reached hv nofun nofun
  | @stored name file i _ admitted free enough stored =>
    subst hv
    have first := newFirstBlock_ne_zero layout (le_trans (le_max_left 1 _) room)
    refine h.stored fits.2 reached ?_ free first stored
    by_contra found
    exact admitted (.inl found)
  | deleted found deleted =>
    subst hv
    exact h.deleted layout reached found deleted

end Directory

/-- The inode table is the directory if all the names fit. -/
def Directed (size : UInt64) (es : List (Command × Reply)) (disc : Disc) : Prop :=
  (∀ e ∈ es, NameFits e) → Directory size es disc

theorem Directed.step {size : UInt64} {es : List (Command × Reply)} {e : Command × Reply} {disc disc' : Disc}
    (h : Directed size es disc) (step : Guarded Step HasRoom disc e disc') : Directed size (es ++ [e]) disc' := by
  intro fits
  refine (h fun e' he => fits e' (List.mem_append_left _ he)).step (fits e ?_) step
  exact List.mem_append_right _ (List.mem_singleton_self e)

theorem Reached.directed {size : UInt64} {es : List (Command × Reply)} {disc : Disc} (h : Reached size es disc) :
    Directed size es disc := by
  obtain ⟨blocks, new, created, run⟩ := h
  have start : Directed size [] new := by
    intro _
    exact .fresh ⟨blocks, new, created, .nil new⟩ (volume_createSystem blocks created).1
  exact run.invariant_events Directed.step start

/-- **The directory is exact** after every run of COPYTO with fitting names and enough room, and of RM: LS
prints each name once whose last successful COPYTO was not followed by a successful RM, a name is found
at the one inode that this COPYTO made, and a COPYTO is rejected exactly when its name is there or the
table is full. -/
theorem directory_exact {size : UInt64} {es : List (Command × Reply)} {disc : Disc} (reached : Reached size es disc)
    (fits : ∀ e ∈ es, NameFits e) :
    ∃ names, showFiles disc = .ok names ∧ names.Nodup ∧ (∀ name, name ∈ names ↔ Present es name) ∧
      (∀ name ∈ names, ∃ i, disc.volume.getINodeIndex name = .ok (some i) ∧
        Recorded size es name (disc.volume.iNodes i) ∧
        ∀ j < disc.volume.iNodeAmount, disc.volume.isINodeFree j = false → disc.volume.nameAt j = name → j = i) ∧
      ∀ name file, name.bytes ≠ [] → name.bytes.length < FILE_NAME_SIZE →
        max 1 (chunks file.content.length) ≤ disc.volume.freeBlocks.length →
        ∃ disc' reply, copyFileToSystem disc name (some file) = .ok (disc', reply) ∧
          (reply ≠ .copied ↔ name ∈ names ∨ names.length = disc.volume.iNodeAmount) := by
  have dir := reached.directed fits
  have layout := reached.sane.layout reached.layout
  refine ⟨disc.volume.names, showFiles_eq layout, ?_, fun name => ?_, fun name listed => ?_, fun name file named _ room => ?_⟩
  · refine List.Nodup.map_on (fun i hi j hj same => ?_) (List.nodup_range.filter _)
    simp only [List.mem_filter, List.mem_range, Bool.not_eq_true'] at hi hj
    exact dir.unique i hi.1 j hj.1 hi.2 hj.2 same
  · refine ⟨fun listed => ?_, dir.listed name⟩
    obtain ⟨i, hi, used, rfl⟩ := Volume.mem_names.1 listed
    exact (dir.recorded i hi used).present
  · have nonempty := reached.sane.nonempty_of_mem layout listed
    obtain ⟨i, found⟩ := reached.sane.lookup_of_mem layout listed
    obtain ⟨inside, same, -⟩ := Volume.lookup_eq_some.1 found
    have used := reached.sane.lookup_used layout nonempty found
    refine ⟨i, ?_, ?_, fun j hj usedj named => ?_⟩
    · rw [Volume.getINodeIndex_eq layout, found]
    · rw [← same]
      exact dir.recorded i inside used
    · exact dir.unique j hj i inside usedj used (named.trans same.symm)
  · have small : ¬ file.content.length > disc.volume.freeBlocks.length * 1032 := by
      have enough := le_trans (le_max_right 1 _) room
      unfold chunks BLOCK_SIZE at enough
      omega
    have refuses : disc.volume.Refuses name file ↔
        name ∈ disc.volume.names ∨ disc.volume.names.length = disc.volume.iNodeAmount := by
      unfold Volume.Refuses
      rw [reached.sane.lookup_ne_none_iff layout named, Volume.freeINode_eq_none_iff]
      tauto
    by_cases refused : disc.volume.Refuses name file
    · obtain ⟨reply, no, done⟩ := copyFileToSystem_refused layout refused
      exact ⟨disc, reply, done, fun _ => refuses.1 refused, fun _ => no⟩
    · obtain ⟨disc', i, -, done, -⟩ := reached.copy refused room
      exact ⟨disc', .copied, done, fun no => absurd rfl no, fun some => absurd (refuses.2 some) refused⟩

/-- One file on the smallest disc. -/
theorem directory_exact_letter : ∃ new disc names, createSystem MIN_FILE_SYSTEM_SIZE = some new ∧
    copyFileToSystem new nameA (some (byteFile 1)) = .ok (disc, .copied) ∧
    showFiles disc = .ok names ∧ names.Nodup ∧
    ∀ name, name ∈ names ↔ Present [(.copyTo nameA (some (byteFile 1)), .copied)] name := by
  obtain ⟨new, disc, created, done, reached, -⟩ :=
    @smallest_copy nameA (byteFile 1) (by decide) (by decide)
  obtain ⟨names, listed, distinct, present, -⟩ := directory_exact reached (by
    intro e he
    obtain rfl := List.mem_singleton.1 he
    exact ⟨by decide, by decide⟩)
  exact ⟨new, disc, names, created, done, listed, distinct, present⟩

end SoiExercises.Vfs
