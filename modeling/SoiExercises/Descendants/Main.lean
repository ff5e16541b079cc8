import Mathlib.Data.Finset.Card
import Mathlib.Data.Fintype.Card
import Mathlib.Data.List.FinRange
import SoiExercises.Lib.Except

/-!
# Most descendants (exercise 1)

The system call that `mm/main.c` adds to find the process with most descendants. The entries of `stack[]` up to
`pointer` are a list with the top in front, so `stack[++pointer]` is the element at the index that is the length
of the list, and storing beyond the array is a fault. `visited` is the set of slots whose entry is 1.
-/

namespace SoiExercises.Descendants

open SoiExercises.Lib

/-- What the calls read of a slot of `mproc[]`; `inUse` is `mp_flags & IN_USE`. -/
structure Mproc where
  inUse : Bool
  mpParent : Int
  mpPid : Int

/-- A store beyond the end of `stack[NR_PROCS]`. -/
inductive Fault where
  | stackOverflow

abbrev Result := Except Fault

variable {NR_PROCS : Nat}

/-- The variables of `count_descendants`. -/
structure Search (NR_PROCS : Nat) where
  descendants : Nat
  stack : List (Fin NR_PROCS)
  visited : Finset (Fin NR_PROCS)

namespace Search

/-- `stack[++pointer] = i; visited[i] = 1` -/
def push (s : Search NR_PROCS) (i : Fin NR_PROCS) : Result (Search NR_PROCS) :=
  if s.stack.length < NR_PROCS then .ok { s with stack := i :: s.stack, visited := insert i s.visited }
  else .error .stackOverflow

/-- The `for` loop over the slots `l`. -/
def scan (mproc : Fin NR_PROCS → Mproc) (currentProc : Fin NR_PROCS) :
    List (Fin NR_PROCS) → Search NR_PROCS → Result (Search NR_PROCS)
  | [], s => .ok s
  | i :: l, s =>
    if (mproc i).inUse ∧ (mproc i).mpParent = currentProc ∧ i ∉ s.visited then do
      let s ← { s with descendants := s.descendants + 1 }.push i
      scan mproc currentProc l s
    else scan mproc currentProc l s

/-- What the `while` loop uses up: a slot that has not been visited gives at most one more entry. -/
def remaining (s : Search NR_PROCS) : Nat := 2 * (NR_PROCS - s.visited.card) + s.stack.length

theorem push_remaining {s t : Search NR_PROCS} {i : Fin NR_PROCS} (new : i ∉ s.visited) (done : s.push i = .ok t) :
    t.remaining ≤ s.remaining := by
  unfold push at done
  split at done
  · cases done
    have bound := Finset.card_le_univ (insert i s.visited)
    rw [Fintype.card_fin] at bound
    unfold remaining
    dsimp only
    rw [List.length_cons]
    rw [Finset.card_insert_of_notMem new] at bound ⊢
    omega
  · cases done

theorem scan_remaining {mproc : Fin NR_PROCS → Mproc} {currentProc : Fin NR_PROCS} {l : List (Fin NR_PROCS)}
    {s t : Search NR_PROCS} (done : scan mproc currentProc l s = .ok t) : t.remaining ≤ s.remaining := by
  induction l generalizing s with
  | nil =>
    cases done
    exact le_refl _
  | cons i l ih =>
    unfold scan at done
    split at done
    · rename_i child
      obtain ⟨s', pushed, done⟩ := bind_eq_ok.1 done
      exact (ih done).trans (@push_remaining _ { s with descendants := s.descendants + 1 } _ _ child.2.2 pushed)
    · exact ih done

/-- The `while` loop. -/
def loop (mproc : Fin NR_PROCS → Mproc) (s : Search NR_PROCS) : Result Nat :=
  match _hs : s.stack with
  | [] => .ok s.descendants
  | currentProc :: stack =>
    match _hscan : scan mproc currentProc (List.finRange NR_PROCS) { s with stack := stack } with
    | .ok t => loop mproc t
    | .error e => .error e
termination_by s.remaining
decreasing_by
  have less := scan_remaining _hscan
  unfold remaining at less ⊢
  rw [_hs, List.length_cons]
  dsimp only at less
  omega

end Search

/-- The number of descendants of a slot. -/
def countDescendants (mproc : Fin NR_PROCS → Mproc) (procNr : Fin NR_PROCS) : Result Nat := do
  let s ← ({ descendants := 0, stack := [], visited := ∅ } : Search NR_PROCS).push procNr
  s.loop mproc

/-- The loop of `most_descendants` over the slots `l`, with `most_descendants_ammount` and `found`. -/
def most (mproc : Fin NR_PROCS → Mproc) (excludePid : Int) : List (Fin NR_PROCS) → Int × Int → Result (Int × Int)
  | [], best => .ok best
  | procNr :: l, (ammount, found) =>
    if (mproc procNr).inUse ∧ (mproc procNr).mpPid ≠ excludePid ∧ (mproc procNr).mpPid ≠ 0 then do
      let count ← countDescendants mproc procNr
      if ammount < count then most mproc excludePid l (count, (mproc procNr).mpPid)
      else most mproc excludePid l (ammount, found)
    else most mproc excludePid l (ammount, found)

/-- `*descendants` and `*who` -/
def mostDescendants (mproc : Fin NR_PROCS → Mproc) (excludePid : Int) : Result (Int × Int) :=
  most mproc excludePid (List.finRange NR_PROCS) (-1, -1)

/-- The answer of the system call and its `reply_res2`; `m1_i1` is the pid to leave out. -/
def doWhoMostDescendants (mproc : Fin NR_PROCS → Mproc) (m1_i1 : Int) : Result (Int × Int) :=
  mostDescendants mproc m1_i1

end SoiExercises.Descendants
