import Mathlib.Data.Finset.Card
import Mathlib.Data.Finset.Filter
import Mathlib.Logic.Function.Basic
import SoiExercises.Lib.Except
import SoiExercises.Lib.Spans

/-!
# Memory allocation (`alloc.c`)

A slot of `hole[]` is its index, a `struct hole *` an optional index, and `NIL_HOLE` is `none`. The
amounts are click counts of physical memory, which fit in `phys_clicks`, so they are natural numbers.
`alloc_mem` returns an optional base: `none` is its `return(NO_MEM)`, and `some 0` is a block at
address 0, which is the same number. Following `NIL_HOLE` (or a
`prev_ptr` that was never set), a panic and a walk along cyclic links are `Fault`s. The transfer of a
swapped process (`lseek`, `rw_seg`, `sys_newmap`) and the summaries of `mem_init` touch nothing that
is modelled and are left out.
-/

namespace SoiExercises.Alloc

open SoiExercises.Lib

structure Config where
  NR_PROCS : Nat
  LOW_USER : Nat
  low_user : LOW_USER < NR_PROCS

/-- The size of the hole table. -/
def Config.NR_HOLES (cfg : Config) : Nat := 2 * cfg.NR_PROCS

structure Hole where
  next : Option Nat
  base : Nat
  len : Nat
  deriving DecidableEq

/-- Bits of `mp_flags`. -/
inductive MpFlag where
  | waiting
  | paused
  | sigsuspended
  | traced
  | reply
  | onswap
  deriving DecidableEq

/-- A segment of a process, in clicks. -/
structure MemMap where
  memVir : Nat
  memPhys : Nat
  memLen : Nat
  deriving DecidableEq

structure Mproc where
  flags : Finset MpFlag
  segD : MemMap
  segS : MemMap
  deriving DecidableEq

inductive Algorithm where
  | first
  | worst
  deriving DecidableEq

/-- A slot of `mproc[]` from `LOW_USER` on. -/
abbrev UserSlot (cfg : Config) := {rmp : Nat // cfg.LOW_USER ≤ rmp ∧ rmp < cfg.NR_PROCS}

/-- The hole table, the process table and the variables of the swapper. -/
structure Mem (cfg : Config) where
  hole : Nat → Hole
  holeHead : Option Nat
  freeSlots : Option Nat
  swapBase : Nat
  mproc : Nat → Mproc
  outswap : UserSlot cfg

/-- The memory and `current_algorithm`, which `alloc_mem` alone reads. -/
structure Allocator (cfg : Config) where
  mem : Mem cfg
  currentAlgorithm : Algorithm

inductive Fault where
  | nilHole
  | endless
  | panic (text : String)
  deriving DecidableEq

abbrev Result := Except Fault

variable {cfg : Config}

/-- `if (++rmp == &mproc[NR_PROCS]) rmp = &mproc[LOW_USER]` -/
def UserSlot.next (rmp : UserSlot cfg) : UserSlot cfg :=
  if h : rmp.1 + 1 = cfg.NR_PROCS then ⟨cfg.LOW_USER, le_refl _, cfg.low_user⟩
  else ⟨rmp.1 + 1, by omega, by have := rmp.2.2; omega⟩

/-- The clicks of a process's data, gap and stack. -/
def Mproc.size (rmp : Mproc) : Nat := rmp.segS.memVir + rmp.segS.memLen - rmp.segD.memVir

/-- Blocked on a call that MM handles, and not on swap or otherwise to be avoided. -/
def Mproc.isCandidate (rmp : Mproc) : Bool :=
  (.paused ∈ rmp.flags || .waiting ∈ rmp.flags || .sigsuspended ∈ rmp.flags) &&
    !(.traced ∈ rmp.flags || .reply ∈ rmp.flags || .onswap ∈ rmp.flags)

namespace Mem

/-- Overwrite slot `i` of the hole table. -/
def setHole (s : Mem cfg) (i : Nat) (h : Hole) : Mem cfg := { s with hole := Function.update s.hole i h }

/-- `hole[i].h_next = v` -/
def setNext (s : Mem cfg) (i : Nat) (v : Option Nat) : Mem cfg := s.setHole i { s.hole i with next := v }

/-- Take `hp` off the hole list; `prev` is the hole before it, if it is not the head. -/
def unlink (s : Mem cfg) (prev : Option Nat) (hp : Nat) : Result (Mem cfg) :=
  if s.holeHead = some hp then .ok { s with holeHead := (s.hole hp).next }
  else match prev with
    | some prev => .ok (s.setNext prev (s.hole hp).next)
    | none => .error .nilHole

/-- Remove `hp` from the hole list and put its slot on the list of unused ones. -/
def delSlot (s : Mem cfg) (prev : Option Nat) (hp : Nat) : Result (Mem cfg) := do
  let s ← s.unlink prev hp
  return { s.setNext hp s.freeSlots with freeSlots := some hp }

/-- `hp` gets its successor's memory, and the successor's slot is free. -/
def absorb (s : Mem cfg) (hp next : Nat) : Result (Mem cfg) :=
  (s.setHole hp { s.hole hp with len := (s.hole hp).len + (s.hole next).len }).delSlot (some hp) next

/-- `hp` and its successor are contiguous. -/
def touches (s : Mem cfg) (hp next : Nat) : Bool := (s.hole hp).base + (s.hole hp).len = (s.hole next).base

/-- The second half of `merge`. -/
def mergeNext (s : Mem cfg) (hp : Nat) : Result (Mem cfg) :=
  match (s.hole hp).next with
  | none => .ok s
  | some next => if s.touches hp next then s.absorb hp next else .ok s

/-- Join `hp` and the two holes that follow it where they are contiguous. -/
def merge (s : Mem cfg) (hp : Nat) : Result (Mem cfg) :=
  match (s.hole hp).next with
  | none => .ok s
  | some next =>
    if s.touches hp next then do
      let s ← s.absorb hp next
      s.mergeNext hp
    else s.mergeNext next

/-- The last hole from `hp` on that starts below `base`, after `prev`. A list that ends visits each slot
of the table at most once, so `fuel` runs out on cyclic links only. -/
def findPlace (s : Mem cfg) (base : Nat) : Nat → Nat → Option Nat → Result Nat
  | 0, _, _ => .error .endless
  | _ + 1, prev, none => .ok prev
  | fuel + 1, prev, some hp =>
    if (s.hole hp).base < base then s.findPlace base fuel hp (s.hole hp).next else .ok prev

/-- Put the hole `new` on the front of the hole list. -/
def linkFirst (s : Mem cfg) (new : Nat) : Result (Mem cfg) :=
  { s.setNext new s.holeHead with holeHead := some new }.merge new

/-- Put the hole `new` behind `prev`. -/
def linkAfter (s : Mem cfg) (new prev : Nat) : Result (Mem cfg) :=
  ((s.setNext new (s.hole prev).next).setNext prev (some new)).merge prev

/-- Take the unused slot `new` for a block. -/
def takeSlot (s : Mem cfg) (new base clicks : Nat) : Mem cfg :=
  { s.setHole new { s.hole new with base := base, len := clicks } with freeSlots := (s.hole new).next }

/-- Return a block to the hole list. -/
def freeMem (s : Mem cfg) (base clicks : Nat) : Result (Mem cfg) :=
  if clicks = 0 then .ok s
  else match s.freeSlots with
    | none => .error (.panic "Hole table full")
    | some new =>
      let s := s.takeSlot new base clicks
      match s.holeHead with
      | none => s.linkFirst new
      | some hp =>
        if base ≤ (s.hole hp).base then s.linkFirst new
        else do
          let prev ← s.findPlace base (cfg.NR_HOLES + 1) hp (some hp)
          s.linkAfter new prev

/-- Bite `clicks` off the hole `hp`, and delete it if it is used up. -/
def bite (s : Mem cfg) (prev : Option Nat) (hp clicks : Nat) : Result (Mem cfg × Nat) :=
  let h := s.hole hp
  let s := s.setHole hp { h with base := h.base + clicks, len := h.len - clicks }
  if h.len - clicks = 0 then do
    let s ← s.delSlot prev hp
    return (s, h.base)
  else return (s, h.base)

/-- The search of `swap_out`: the first hole of the swap area with `size` clicks, and the hole before it. -/
def findSwap (s : Mem cfg) (size : Nat) : Nat → Option Nat → Option Nat → Result (Option (Option Nat × Nat))
  | 0, _, _ => .error .endless
  | _ + 1, _, none => .ok none
  | fuel + 1, prev, some hp =>
    if s.swapBase ≤ (s.hole hp).base ∧ size ≤ (s.hole hp).len then .ok (some (prev, hp))
    else s.findSwap size fuel (some hp) (s.hole hp).next

/-- Move the process `rmp` to the swap hole `hp`, and free the memory it occupied. -/
def swapTo (s : Mem cfg) (rmp : UserSlot cfg) (prev : Option Nat) (hp : Nat) : Result (Mem cfg) := do
  let p := s.mproc rmp
  let (s, newBase) ← s.bite prev hp p.size
  let s := { s with mproc := Function.update s.mproc rmp { p with
    segD := { p.segD with memPhys := newBase }
    segS := { p.segS with memPhys := newBase + (p.segS.memVir - p.segD.memVir) } } }
  let s ← s.freeMem p.segD.memPhys p.size
  let p := s.mproc rmp
  return { s with
    mproc := Function.update s.mproc rmp { p with flags := insert .onswap p.flags }
    outswap := rmp }

/-- How far the loop of `swap_out` at `rmp` is from its end at `outswap`. -/
def remaining (s : Mem cfg) (rmp : UserSlot cfg) : Nat :=
  if rmp.1 < s.outswap.1 then s.outswap.1 - rmp.1
  else s.outswap.1 + (cfg.NR_PROCS - cfg.LOW_USER) - rmp.1

theorem remaining_next {s : Mem cfg} {rmp : UserSlot cfg} (more : rmp.next ≠ s.outswap) :
    s.remaining rmp.next < s.remaining rmp := by
  have ne : rmp.next.1 ≠ s.outswap.1 := fun same => more (Subtype.ext same)
  have hrmp := rmp.2
  have hout := s.outswap.2
  have hlow := cfg.low_user
  unfold remaining
  unfold UserSlot.next at ne ⊢
  split at ne
  · rename_i last
    rw [dif_pos last]
    dsimp only at ne ⊢
    split <;> split <;> omega
  · rename_i inside
    rw [dif_neg inside]
    dsimp only at ne ⊢
    split <;> split <;> omega

/-- A place in the swap area for `rmp`, if it can be swapped out. -/
def swapPlace (s : Mem cfg) (rmp : UserSlot cfg) : Result (Option (Option Nat × Nat)) :=
  if (s.mproc rmp).isCandidate then s.findSwap (s.mproc rmp).size (cfg.NR_HOLES + 1) none s.holeHead
  else .ok none

/-- The loop of `swap_out`, with `rmp` the process it has just looked at. -/
def swapOutAfter (s : Mem cfg) (rmp : UserSlot cfg) : Result (Mem cfg × Bool) := do
  match ← s.swapPlace rmp.next with
  | some (prev, hp) => return (← s.swapTo rmp.next prev hp, true)
  | none => if _more : rmp.next ≠ s.outswap then s.swapOutAfter rmp.next else return (s, false)
termination_by s.remaining rmp
decreasing_by exact remaining_next _more

/-- Try to swap a process out. -/
def swapOut (s : Mem cfg) : Result (Mem cfg × Bool) := s.swapOutAfter s.outswap

/-- The first hole of ordinary memory with `clicks` clicks, and the hole before it. -/
def findFirst (s : Mem cfg) (clicks : Nat) : Nat → Option Nat → Option Nat → Result (Option (Option Nat × Nat))
  | 0, _, _ => .error .endless
  | _ + 1, _, none => .ok none
  | fuel + 1, prev, some hp =>
    if (s.hole hp).base < s.swapBase then
      if clicks ≤ (s.hole hp).len then .ok (some (prev, hp))
      else s.findFirst clicks fuel (some hp) (s.hole hp).next
    else .ok none

/-- The biggest hole of ordinary memory from `hp` on, and the hole before it, starting from a candidate
that is not checked to be either a hole or ordinary memory. -/
def findBiggest (s : Mem cfg) : Nat → Option Nat → Option Nat → Option Nat → Option Nat →
    Result (Option Nat × Option Nat)
  | 0, _, _, _, _ => .error .endless
  | _ + 1, _, biggestPrev, biggest, none => .ok (biggestPrev, biggest)
  | fuel + 1, prev, biggestPrev, biggest, some hp =>
    if (s.hole hp).base < s.swapBase then
      match biggest with
      | none => .error .nilHole
      | some big =>
        if (s.hole big).len < (s.hole hp).len then
          s.findBiggest fuel (some hp) prev (some hp) (s.hole hp).next
        else s.findBiggest fuel (some hp) biggestPrev (some big) (s.hole hp).next
    else .ok (biggestPrev, biggest)

/-- The body of one of the two loops of `alloc_mem`. -/
def pass (s : Mem cfg) (clicks : Nat) : Algorithm → Result (Option (Mem cfg × Nat))
  | .worst => do
    let (biggestPrev, biggest) ← s.findBiggest (cfg.NR_HOLES + 1) none none s.holeHead s.holeHead
    match biggest with
    | none => .error .nilHole
    | some big =>
      if clicks ≤ (s.hole big).len then return some (← s.bite biggestPrev big clicks) else return none
  | .first => do
    match ← s.findFirst clicks (cfg.NR_HOLES + 1) none s.holeHead with
    | some (prev, hp) => return some (← s.bite prev hp clicks)
    | none => return none

/-- The hole list operations change nothing but the hole list. -/
structure Frame (s t : Mem cfg) : Prop where
  swapBase : t.swapBase = s.swapBase
  mproc : t.mproc = s.mproc
  outswap : t.outswap = s.outswap

theorem Frame.refl {s : Mem cfg} : Frame s s := ⟨rfl, rfl, rfl⟩

theorem Frame.trans {s t u : Mem cfg} (h : Frame s t) (h' : Frame t u) : Frame s u where
  swapBase := h'.swapBase.trans h.swapBase
  mproc := h'.mproc.trans h.mproc
  outswap := h'.outswap.trans h.outswap

variable {s : Mem cfg}

theorem Frame.completes {t : Mem cfg} {x : Result (Mem cfg)} (h : Frame s t)
    (hx : Completes (Frame t) x) : Completes (Frame s) x := fun u done => h.trans (hx u done)

theorem unlink_frame {prev : Option Nat} {hp : Nat} : Completes (Frame s) (s.unlink prev hp) := by
  unfold unlink
  refine .ite (.ok ⟨rfl, rfl, rfl⟩) ?_
  cases prev with
  | none => exact .error
  | some prev => exact .ok ⟨rfl, rfl, rfl⟩

theorem delSlot_frame {prev : Option Nat} {hp : Nat} : Completes (Frame s) (s.delSlot prev hp) :=
  .bind unlink_frame fun _ frame => .pure (frame.trans ⟨rfl, rfl, rfl⟩)

theorem absorb_frame {hp next : Nat} : Completes (Frame s) (s.absorb hp next) := by
  unfold absorb
  refine Frame.completes ?_ delSlot_frame
  exact ⟨rfl, rfl, rfl⟩

theorem mergeNext_frame {hp : Nat} : Completes (Frame s) (s.mergeNext hp) := by
  unfold mergeNext
  split
  · exact .ok .refl
  · exact .ite absorb_frame (.ok .refl)

theorem merge_frame {hp : Nat} : Completes (Frame s) (s.merge hp) := by
  unfold merge
  split
  · exact .ok .refl
  · exact .ite (.bind absorb_frame fun t frame => frame.completes mergeNext_frame) mergeNext_frame

theorem linkFirst_frame {new : Nat} : Completes (Frame s) (s.linkFirst new) := by
  unfold linkFirst
  refine Frame.completes ?_ merge_frame
  exact ⟨rfl, rfl, rfl⟩

theorem linkAfter_frame {new prev : Nat} : Completes (Frame s) (s.linkAfter new prev) := by
  unfold linkAfter
  refine Frame.completes ?_ merge_frame
  exact ⟨rfl, rfl, rfl⟩

theorem freeMem_frame {base clicks : Nat} : Completes (Frame s) (s.freeMem base clicks) := by
  unfold freeMem
  refine .ite (.ok .refl) ?_
  cases s.freeSlots with
  | none => exact .error
  | some new =>
    have taken : Frame s (s.takeSlot new base clicks) := ⟨rfl, rfl, rfl⟩
    refine taken.completes ?_
    dsimp only
    split
    · exact linkFirst_frame
    · exact .ite linkFirst_frame (.bind_any fun _ => linkAfter_frame)

theorem bite_frame {prev : Option Nat} {hp clicks : Nat} :
    Completes (fun r => Frame s r.1) (s.bite prev hp clicks) := by
  unfold bite
  refine .ite (.bind (Q := Frame s) ?_ fun t frame => .pure frame) (.pure ⟨rfl, rfl, rfl⟩)
  refine Frame.completes ?_ delSlot_frame
  exact ⟨rfl, rfl, rfl⟩

/-- The processes of the table that are not on swap. -/
def inMemory (s : Mem cfg) : Finset Nat := (Finset.range cfg.NR_PROCS).filter fun i => .onswap ∉ (s.mproc i).flags

/-- `swap_out` sets `ONSWAP` for a process that did not have it and leaves the other processes alone. -/
theorem swapTo_mproc {rmp : UserSlot cfg} {prev : Option Nat} {hp : Nat} :
    Completes (fun t => .onswap ∈ (t.mproc rmp).flags ∧ ∀ i, i ≠ rmp.1 → t.mproc i = s.mproc i)
      (s.swapTo rmp prev hp) := by
  unfold swapTo
  dsimp only
  refine .bind (Q := fun r => Frame s r.1) bite_frame fun ⟨s₁, newBase⟩ frame₁ => ?_
  refine .bind freeMem_frame fun s₂ frame₂ => .pure ⟨?_, fun i hi => ?_⟩
  · dsimp only
    rw [Function.update_self]
    exact Finset.mem_insert_self _ _
  · dsimp only
    rw [Function.update_of_ne hi, frame₂.mproc]
    exact (Function.update_of_ne hi _ _).trans (congrFun frame₁.mproc i)

theorem candidate_inMemory {p : Mproc} (candidate : p.isCandidate) : .onswap ∉ p.flags := by
  simp only [Mproc.isCandidate, Bool.and_eq_true, Bool.not_eq_true', Bool.or_eq_false_iff] at candidate
  simpa using candidate.2.2

theorem swapTo_inMemory {rmp : UserSlot cfg} {prev : Option Nat} {hp : Nat}
    (candidate : (s.mproc rmp).isCandidate) :
    Completes (fun t => t.inMemory.card < s.inMemory.card) (s.swapTo rmp prev hp) := by
  intro t done
  obtain ⟨swapped, others⟩ := swapTo_mproc t done
  have old : rmp.1 ∈ s.inMemory :=
    Finset.mem_filter.2 ⟨Finset.mem_range.2 rmp.2.2, candidate_inMemory candidate⟩
  refine Finset.card_lt_card (Finset.ssubset_iff_subset_ne.2 ⟨fun i hi => ?_, fun same => ?_⟩)
  · obtain ⟨hrange, hswap⟩ := Finset.mem_filter.1 hi
    refine Finset.mem_filter.2 ⟨hrange, ?_⟩
    rwa [← others i fun same => hswap (same ▸ swapped)]
  · rw [← same] at old
    exact (Finset.mem_filter.1 old).2 swapped

/-- Only a candidate is given a place in the swap area. -/
theorem swapPlace_candidate {rmp : UserSlot cfg} :
    Completes (fun found => found ≠ none → (s.mproc rmp).isCandidate) (s.swapPlace rmp) := by
  unfold swapPlace
  split
  · rename_i candidate
    exact fun _ _ _ => candidate
  · exact .ok fun none => absurd rfl none

/-- A successful `swap_out` leaves a process less in memory. -/
theorem swapOutAfter_inMemory (rmp : UserSlot cfg) :
    Completes (fun r => r.2 = true → r.1.inMemory.card < s.inMemory.card) (s.swapOutAfter rmp) := by
  induction rmp using swapOutAfter.induct s with
  | case1 rmp ih =>
    rw [swapOutAfter]
    refine .bind swapPlace_candidate fun found candidate => ?_
    cases found with
    | none =>
      dsimp only
      split
      · rename_i more
        exact ih more
      · exact .pure fun stop => Bool.noConfusion stop
    | some found =>
      exact .bind (swapTo_inMemory (candidate (Option.some_ne_none found))) fun t less => .pure fun _ => less

theorem swapOut_inMemory {t : Mem cfg} (done : s.swapOut = .ok (t, true)) :
    t.inMemory.card < s.inMemory.card := by
  have less := swapOutAfter_inMemory s.outswap (t, true) done
  exact less rfl

/-- One of the two loops of `alloc_mem`. -/
def allocLoop (algorithm : Algorithm) (clicks : Nat) (s : Mem cfg) : Result (Mem cfg × Option Nat) :=
  match s.pass clicks algorithm with
  | .error fault => .error fault
  | .ok (some (t, base)) => .ok (t, some base)
  | .ok none =>
    match _done : s.swapOut with
    | .error fault => .error fault
    | .ok (t, true) => allocLoop algorithm clicks t
    | .ok (t, false) => .ok (t, none)
termination_by s.inMemory.card
decreasing_by exact swapOut_inMemory _done

section AllocLoop

variable {algorithm : Algorithm} {clicks : Nat} {t : Mem cfg} {fault : Fault} {base : Nat}

theorem allocLoop_fault (passed : s.pass clicks algorithm = .error fault) :
    allocLoop algorithm clicks s = .error fault := by
  rw [allocLoop, passed]

theorem allocLoop_serve (passed : s.pass clicks algorithm = .ok (some (t, base))) :
    allocLoop algorithm clicks s = .ok (t, some base) := by
  rw [allocLoop, passed]

/-- After an unsuccessful pass, what `swap_out` does decides. -/
theorem allocLoop_swap (passed : s.pass clicks algorithm = .ok none) :
    allocLoop algorithm clicks s = s.swapOut >>= fun r =>
      if r.2 then allocLoop algorithm clicks r.1 else .ok (r.1, none) := by
  rw [allocLoop, passed]
  dsimp only
  split
  · rename_i swapped
    rw [swapped, error_bind]
  · rename_i swapped
    rw [swapped, ok_bind, if_pos rfl]
  · rename_i swapped
    rw [swapped, ok_bind, if_neg Bool.false_ne_true]

end AllocLoop

/-- Enter the chunks of physical memory that `SYS_MEM` reports, up to the first empty one. -/
def addChunks (s : Mem cfg) : List Span → Result (Mem cfg)
  | [] => .ok s
  | chunk :: chunks =>
    if chunk.len = 0 then .ok s
    else do
      let s ← s.freeMem chunk.base chunk.len
      addChunks { s with swapBase := max s.swapBase chunk.stop } chunks

/-- All slots unused, each linked to the next. -/
def initSlots (s : Mem cfg) : Mem cfg :=
  { s with
    hole := fun i => { s.hole i with next := if i + 1 < cfg.NR_HOLES then some (i + 1) else none }
    holeHead := none
    freeSlots := some 0 }

/-- Initialize the hole lists. -/
def memInit (s : Mem cfg) (chunks : List Span) : Result (Mem cfg) := do
  let s ← s.initSlots.addChunks chunks
  return { s with swapBase := s.swapBase + 1 }

end Mem

namespace Allocator

/-- Allocate a block, swapping processes out if needed. -/
def allocMem (a : Allocator cfg) (clicks : Nat) : Result (Allocator cfg × Option Nat) := do
  let (mem, base) ← Mem.allocLoop a.currentAlgorithm clicks a.mem
  return ({ a with mem := mem }, base)

def freeMem (a : Allocator cfg) (base clicks : Nat) : Result (Allocator cfg) := do
  let mem ← a.mem.freeMem base clicks
  return { a with mem := mem }

/-- Choose the algorithm: 0 is `FIRST` and 1 is `WORST`. -/
def doWorstFit (a : Allocator cfg) (algorithm : Int) : Allocator cfg × Int :=
  if algorithm = 0 then ({ a with currentAlgorithm := .first }, 0)
  else if algorithm = 1 then ({ a with currentAlgorithm := .worst }, 0)
  else (a, -1)

end Allocator

end SoiExercises.Alloc
