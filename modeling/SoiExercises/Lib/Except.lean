import Mathlib.Logic.Basic

/-!
# Completed computations

`x >>= f` completes exactly when `x` does and `f` does on its value. `Completes Q x` says that
whatever `x` returns satisfies `Q`; it composes along `>>=`, so a property that every operation
of a program preserves is proved without unfolding the program's `do` block. `Ends F Q x` says in
addition that `x` fails in no other way than `F` allows.
-/

namespace SoiExercises.Lib

universe u

variable {ε : Type*} {α β : Type u}

@[simp] theorem bind_eq_ok {x : Except ε α} {f : α → Except ε β} {b : β} :
    x >>= f = .ok b ↔ ∃ a, x = .ok a ∧ f a = .ok b := by
  cases x with
  | error e => simp [bind, Except.bind]
  | ok a => simp [bind, Except.bind]

@[simp] theorem pure_eq_ok {a b : α} : (pure a : Except ε α) = .ok b ↔ a = b :=
  ⟨fun h => Except.ok.inj h, fun h => h ▸ rfl⟩

@[simp] theorem ok_bind {a : α} {f : α → Except ε β} : (Except.ok a : Except ε α) >>= f = f a := rfl

@[simp] theorem error_bind {e : ε} {f : α → Except ε β} :
    (Except.error e : Except ε α) >>= f = .error e := rfl

/-- A computation whose value passes a test completes with a value that passes it. -/
theorem ok_of_any {x : Except ε α} {p : α → Bool} (h : x.toOption.any p) : ∃ a, x = .ok a ∧ p a := by
  cases x with
  | error e => cases h
  | ok a => exact ⟨a, rfl, h⟩

/-- Whatever `x` returns satisfies `Q`. -/
def Completes (Q : α → Prop) (x : Except ε α) : Prop := ∀ a, x = .ok a → Q a

namespace Completes

variable {Q : α → Prop} {R : β → Prop} {x : Except ε α} {f : α → Except ε β}

theorem ok {a : α} (h : Q a) : Completes Q (.ok a : Except ε α) := by
  intro b hb
  cases hb
  exact h

theorem pure {a : α} (h : Q a) : Completes Q (Pure.pure a : Except ε α) := ok h

theorem error {e : ε} : Completes Q (.error e : Except ε α) := fun _ h => nomatch h

theorem bind (hx : Completes Q x) (hf : ∀ a, Q a → Completes R (f a)) : Completes R (x >>= f) := by
  intro b hb
  obtain ⟨a, ha, hb⟩ := bind_eq_ok.1 hb
  exact hf a (hx a ha) b hb

/-- What is computed first does not matter. -/
theorem bind_any (hf : ∀ a, Completes R (f a)) : Completes R (x >>= f) := by
  intro b hb
  obtain ⟨a, -, hb⟩ := bind_eq_ok.1 hb
  exact hf a b hb

theorem ite {c : Prop} [Decidable c] {y : Except ε α} (hx : Completes Q x) (hy : Completes Q y) :
    Completes Q (if c then x else y) := by
  split
  · exact hx
  · exact hy

/-- A choice between two computations that go on alike. -/
theorem ite_bind {c : Prop} [Decidable c] {y : Except ε α} (hx : Completes Q x) (hy : Completes Q y)
    (hf : ∀ a, Q a → Completes R (f a)) : Completes R (if c then x >>= f else y >>= f) :=
  ite (hx.bind hf) (hy.bind hf)

/-- A loop keeps what its body keeps. -/
theorem foldlM {β : Type*} {f : α → β → Except ε α} {l : List β} {a : α} (init : Q a)
    (kept : ∀ a b, b ∈ l → Q a → Completes Q (f a b)) : Completes Q (l.foldlM f a) := by
  induction l generalizing a with
  | nil => exact ok init
  | cons b l ih =>
    rw [List.foldlM_cons]
    refine (kept a b List.mem_cons_self init).bind fun a' ha' => ?_
    exact ih ha' fun a b hb => kept a b (List.mem_cons_of_mem _ hb)

end Completes

/-- `x` returns a value that satisfies `Q`, or fails in a way that `F` allows. -/
def Ends (F : ε → Prop) (Q : α → Prop) : Except ε α → Prop
  | .ok a => Q a
  | .error e => F e

/-- `x` returns a value that satisfies `Q`. -/
abbrev Returns (Q : α → Prop) (x : Except ε α) : Prop := Ends (fun _ => False) Q x

namespace Ends

variable {F G : ε → Prop} {Q R : α → Prop} {S : β → Prop} {x : Except ε α} {f : α → Except ε β}

theorem ok {a : α} (h : Q a) : Ends F Q (.ok a) := h

theorem pure {a : α} (h : Q a) : Ends F Q (Pure.pure a) := h

theorem error {e : ε} (h : F e) : Ends F Q (.error e) := h

theorem mono (h : Ends F Q x) (fails : ∀ e, F e → G e) (returns : ∀ a, Q a → R a) : Ends G R x := by
  cases x with
  | error e => exact fails e h
  | ok a => exact returns a h

/-- The values satisfy more. -/
theorem imp (h : Ends F Q x) (returns : ∀ a, Q a → R a) : Ends F R x := h.mono (fun _ he => he) returns

/-- What never fails fails in no wrong way. -/
theorem of_returns (h : Returns Q x) : Ends F Q x := h.mono (fun _ no => no.elim) fun _ ha => ha

theorem completes (h : Ends F Q x) : Completes Q x := by
  intro a ha
  rw [ha] at h
  exact h

theorem returns (h : Returns Q x) : ∃ a, x = .ok a ∧ Q a := by
  cases x with
  | error e => exact h.elim
  | ok a => exact ⟨a, rfl, h⟩

theorem fails {e : ε} (h : Ends F Q x) (failed : x = .error e) : F e := by
  rw [failed] at h
  exact h

theorem bind (hx : Ends F Q x) (hf : ∀ a, Q a → Ends F S (f a)) : Ends F S (x >>= f) := by
  cases x with
  | error e => exact hx
  | ok a => exact hf a hx

theorem ite {c : Prop} [Decidable c] {y : Except ε α} (hx : c → Ends F Q x) (hy : ¬ c → Ends F Q y) :
    Ends F Q (if c then x else y) := by
  split
  · rename_i h
    exact hx h
  · rename_i h
    exact hy h

/-- A loop establishes step by step what is true of the elements that it has visited, and fails as its body does. -/
theorem foldlM {β : Type*} {Q : List β → α → Prop} {f : α → β → Except ε α} {l : List β} {a : α} (init : Q [] a)
    (kept : ∀ done b rest a, l = done ++ b :: rest → Q done a → Ends F (Q (done ++ [b])) (f a b)) :
    Ends F (Q l) (l.foldlM f a) := by
  induction l generalizing a Q with
  | nil => exact ok init
  | cons b l ih =>
    rw [List.foldlM_cons]
    refine (kept [] b l a rfl init).bind fun a' ha' => ?_
    refine ih (Q := fun done => Q (b :: done)) ha' fun done c rest a split ha => ?_
    exact kept (b :: done) c rest a (by rw [split, List.cons_append]) ha

end Ends

end SoiExercises.Lib
