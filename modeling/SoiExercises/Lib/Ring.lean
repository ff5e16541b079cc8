import Mathlib.Data.Nat.ModEq
import Mathlib.Logic.Function.Basic

/-!
# Bounded queues laid out in a ring

`Ring n blank body lo q`: the `n` slots of `body` hold the queue `q` from slot `lo` on, wrapping
at `n`, and every other slot holds `blank`. Pushing writes the first slot after the queue, popping
clears the slot at `lo`; the two lemmas are all a client needs of the modular arithmetic.
-/

namespace SoiExercises.Lib

/-- The slots of `body` hold exactly the queue `q`, from slot `lo` on. -/
structure Ring {α : Type*} (n : Nat) (blank : α) (body : Nat → α) (lo : Nat) (q : List α) : Prop where
  fits : q.length ≤ n
  items : ∀ k (h : k < q.length), body ((lo + k) % n) = q[k]
  blanks : ∀ k, q.length ≤ k → k < n → body ((lo + k) % n) = blank

/-- Different places of one lap are different slots. -/
theorem slot_inj {n lo k k' : Nat} (hk : k < n) (hk' : k' < n)
    (same : (lo + k) % n = (lo + k') % n) : k = k' := by
  have := Nat.ModEq.add_left_cancel' lo same
  rwa [Nat.ModEq, Nat.mod_eq_of_lt hk, Nat.mod_eq_of_lt hk'] at this

namespace Ring

variable {α : Type*} {n : Nat} {blank : α} {body : Nat → α} {lo : Nat} {q : List α} {x : α}

theorem empty : Ring n blank (fun _ => blank) lo [] where
  fits := Nat.zero_le n
  items k h := absurd h (Nat.not_lt_zero k)
  blanks _ _ _ := rfl

/-- The slot after the queue is blank while there is room. -/
theorem blank_next (h : Ring n blank body lo q) (room : q.length < n) :
    body ((lo + q.length) % n) = blank :=
  h.blanks _ (Nat.le_refl _) room

/-- The slot at `lo` holds the head of the queue. -/
theorem head (h : Ring n blank body lo (x :: q)) : body (lo % n) = x :=
  h.items 0 (Nat.zero_lt_succ _)

/-- All slots of an empty ring are blank. -/
theorem blank_of_empty (h : Ring n blank body lo []) {slot : Nat} (bound : slot < n) : body slot = blank := by
  have below := Nat.mod_lt lo (Nat.zero_lt_of_lt bound)
  have place : (lo + (slot + n - lo % n) % n) % n = slot := by
    have around : lo % n + (slot + n - lo % n) = slot + n := by omega
    rw [Nat.add_mod_mod, ← Nat.mod_add_mod, around, Nat.add_mod_right, Nat.mod_eq_of_lt bound]
  rw [← place]
  exact h.blanks _ (Nat.zero_le _) (Nat.mod_lt _ (Nat.zero_lt_of_lt bound))

/-- Writing the first slot after the queue appends to it. -/
theorem push (h : Ring n blank body lo q) (room : q.length < n) (x : α) :
    Ring n blank (Function.update body ((lo + q.length) % n) x) lo (q ++ [x]) where
  fits := by simp; omega
  items k hk := by
    rw [List.length_append, List.length_singleton] at hk
    by_cases last : k = q.length
    · subst last
      simp
    · have old : k < q.length := by omega
      rw [Function.update_of_ne, List.getElem_append_left old]
      · exact h.items k old
      · exact fun same => last (slot_inj (by omega) room same)
  blanks k hk hn := by
    rw [List.length_append, List.length_singleton] at hk
    rw [Function.update_of_ne]
    · exact h.blanks k (by omega) hn
    · intro same
      have := slot_inj hn room same
      omega

/-- Clearing the slot at `lo` removes the head of the queue. -/
theorem pop (h : Ring n blank body lo (x :: q)) :
    Ring n blank (Function.update body (lo % n) blank) ((lo + 1) % n) q := by
  have fits := h.fits
  rw [List.length_cons] at fits
  have next : ∀ k, ((lo + 1) % n + k) % n = (lo + (k + 1)) % n := by
    intro k
    rw [Nat.mod_add_mod]
    congr 1
    omega
  refine ⟨by omega, fun k hk => ?_, fun k hk hn => ?_⟩
  · rw [next, Function.update_of_ne]
    · exact h.items (k + 1) (by simpa using hk)
    · intro same
      have first : k + 1 = 0 := slot_inj (by omega) (by omega) same
      omega
  · rw [next]
    by_cases lap : k + 1 = n
    · rw [lap, Nat.add_mod_right, Function.update_self]
    · rw [Function.update_of_ne]
      · exact h.blanks (k + 1) (by simpa using hk) (by omega)
      · intro same
        have first : k + 1 = 0 := slot_inj (by omega) (by omega) same
        omega

end Ring

end SoiExercises.Lib
