import Mathlib.Data.Fin.Basic
import Mathlib.Tactic.DeriveFintype
import SoiExercises.Semaphores.Fifo

/-!
# The four buffers of `main` (exercise 3)

`main` forks two producers, an entrepreneur that produces into the four buffers in turn, and a consumer for
each buffer. A process with nothing to do waits for a semaphore, and the invariant of the buffer says who is
going to release it.
-/

namespace SoiExercises.Semaphores

open SoiExercises.Lib

/-- The processes that `main` forks: `newProducer` on the first buffer and on the last one,
`newEntrepreneur`, and a `newConsumer` for each buffer. -/
inductive Process where
  | producer1
  | producer2
  | entrepreneur
  | consumer (buffer : Fin 4)
  deriving DecidableEq, Fintype

namespace Process

/-- The function that the process calls in its loop. -/
def operation : Process → Operation
  | consumer _ => .consume
  | _ => .produce

/-- The buffer it calls it on; the entrepreneur's is its `counter`. -/
def target : Process → Fin 4 → Fin 4
  | producer1, _ => 0
  | producer2, _ => 3
  | entrepreneur, counter => counter
  | consumer buffer, _ => buffer

/-- `counter = (counter + 1) % 4`, in the loop of the entrepreneur. -/
def advance : Process → Fin 4 → Fin 4
  | entrepreneur, counter => counter + 1
  | _, counter => counter

/-- The next call that a process makes. -/
def calls (i : Process) (counter : Fin 4) (op : Operation) (b counter' : Fin 4) : Prop :=
  op = i.operation ∧ counter' = i.advance counter ∧ b = i.target counter'

end Process

/-- The buffers and the processes that `main` starts with. -/
def main (bufferSize : Nat) (body : Fin 4 → Nat → Int) : State Process (Fin 4) (Fin 4) where
  buffer b := .create bufferSize (10 * ((b : Nat) + 1)) (10 * ((b : Nat) + 1) + 9) (body b)
  pos i := .call i.operation (i.target 0) 0

/-- The process can do a step. -/
def Enabled {ι β κ : Type} [DecidableEq ι] [DecidableEq β] (calls : ι → κ → Operation → β → κ → Prop) (st : State ι β κ)
    (i : ι) : Prop :=
  ∃ st', Step calls st i st'

namespace Label

/-- The function that a label belongs to. -/
def operation : Label → Operation
  | .emptyP | .produceMutexP | .makeProduct | .readIn _ | .store _ _ | .printIn | .readNextIn | .writeIn _
  | .produceMutexV | .fullV => .produce
  | _ => .consume

/-- The semaphore that a process takes at the label is at 0. -/
def Waits : Label → IntegerBuffer → Prop
  | .emptyP, sh => sh.empty = 0
  | .produceMutexP, sh | .consumeMutexP, sh => sh.mutex = 0
  | .fullP, sh => sh.full = 0
  | _, _ => False

theorem entry_operation (op : Operation) : op.entry.operation = op := by
  cases op <;> rfl

end Label

section Exec

variable {choice : Int} {l next : Label} {sh sh' : IntegerBuffer} {r : Option Label}

/-- A step stays in its function or returns from `produce`, and leaves the range of the items alone. -/
theorem exec_within (done : exec choice l sh = some (sh', r)) : (sh'.min = sh.min ∧ sh'.max = sh.max) ∧
    ((∃ next, r = some next ∧ next.operation = l.operation) ∨ (r = none ∧ l.operation = .produce)) := by
  cases l <;> simp only [exec, Option.ite_none_left_eq_some, Option.ite_none_right_eq_some, Option.some.injEq,
    Prod.mk.injEq] at done
  case emptyP | produceMutexP | makeProduct | fullP | consumeMutexP =>
    obtain ⟨-, rfl, rfl⟩ := done
    exact ⟨⟨rfl, rfl⟩, .inl ⟨_, rfl, rfl⟩⟩
  case fullV =>
    obtain ⟨rfl, rfl⟩ := done
    exact ⟨⟨rfl, rfl⟩, .inr ⟨rfl, rfl⟩⟩
  all_goals
    obtain ⟨rfl, rfl⟩ := done
    exact ⟨⟨rfl, rfl⟩, .inl ⟨_, rfl, rfl⟩⟩

theorem exec_operation (done : exec choice l sh = some (sh', some next)) : next.operation = l.operation := by
  obtain ⟨-, ⟨next', same, stays⟩ | ⟨returns, -⟩⟩ := exec_within done
  · cases same
    exact stays
  · cases returns

/-- `consume` does not return. -/
theorem exec_returns (done : exec choice l sh = some (sh', none)) : l.operation = .produce := by
  obtain ⟨-, ⟨next, stays, -⟩ | ⟨-, produces⟩⟩ := exec_within done
  · cases stays
  · exact produces

theorem exec_range (done : exec choice l sh = some (sh', r)) : sh'.min = sh.min ∧ sh'.max = sh.max :=
  (exec_within done).1

/-- A process blocks at a semaphore only. -/
theorem exec_iff (range : sh.min ≤ sh.max) : (∃ choice r, exec choice l sh = some r) ↔ ¬ l.Waits sh := by
  cases l with
  | emptyP | produceMutexP | fullP | consumeMutexP =>
    simp only [exec, Option.ite_none_left_eq_some, Label.Waits]
    constructor
    · rintro ⟨-, -, free, -⟩
      exact free
    · intro free
      exact ⟨0, _, free, rfl⟩
  | makeProduct => exact ⟨fun _ => id, fun _ => ⟨sh.min, _, if_pos ⟨le_refl _, range⟩⟩⟩
  | readIn _ | store _ _ | printIn | readNextIn | writeIn _ | produceMutexV | fullV | readOut | fetch _ | printOut
  | readNextOut | writeOut _ | consumeMutexV | emptyV => exact ⟨fun _ => id, fun _ => ⟨0, _, rfl⟩⟩

/-- Only `mutex.p` is in the way of who holds something of a buffer. -/
theorem Label.Waits.mutex (waits : l.Waits sh) (holds : 0 < l.reserved + l.stored + l.claimed + l.fetched) :
    sh.mutex = 0 := by
  cases l with
  | produceMutexP | consumeMutexP => exact waits
  | emptyP | fullP => exact absurd holds (Nat.lt_irrefl 0)
  | makeProduct | readIn _ | store _ _ | printIn | readNextIn | writeIn _ | produceMutexV | fullV | readOut | fetch _
  | printOut | readNextOut | writeOut _ | consumeMutexV | emptyV => exact waits.elim

/-- Nothing is in the way of who is inside, or holds a stored item or the room of a fetched one. -/
theorem Label.not_waits (holds : 0 < l.inside + l.stored + l.fetched) : ¬ l.Waits sh := by
  cases l with
  | produceMutexP | consumeMutexP | emptyP | fullP => exact absurd holds (Nat.lt_irrefl 0)
  | makeProduct | readIn _ | store _ _ | printIn | readNextIn | writeIn _ | produceMutexV | fullV | readOut | fetch _
  | printOut | readNextOut | writeOut _ | consumeMutexV | emptyV => exact id

theorem Label.stored_produce (stored : l.stored ≠ 0) : l.operation = .produce := by
  cases l with
  | printIn | readNextIn | writeIn _ | produceMutexV | fullV => rfl
  | emptyP | produceMutexP | makeProduct | readIn _ | store _ _ | fullP | consumeMutexP | readOut | fetch _ | printOut
  | readNextOut | writeOut _ | consumeMutexV | emptyV => exact absurd rfl stored

/-- The semaphores that `produce` takes. -/
theorem Label.Waits.produce (waits : l.Waits sh) (produces : l.operation = .produce) :
    l = .emptyP ∨ l = .produceMutexP ∨ l = .consumeMutexP := by
  cases l with
  | emptyP => exact .inl rfl
  | produceMutexP => exact .inr (.inl rfl)
  | consumeMutexP => exact .inr (.inr rfl)
  | fullP => cases produces
  | makeProduct | readIn _ | store _ _ | printIn | readNextIn | writeIn _ | produceMutexV | fullV | readOut | fetch _
  | printOut | readNextOut | writeOut _ | consumeMutexV | emptyV => exact waits.elim

/-- A process in `consume` that holds nothing of the buffer is at its beginning. -/
theorem Label.eq_fullP (consumes : l.operation = .consume) (holds : l.claimed + l.fetched = 0) : l = .fullP := by
  cases l with
  | fullP => rfl
  | consumeMutexP | readOut | fetch _ | printOut | readNextOut | writeOut _ | consumeMutexV | emptyV => cases holds
  | emptyP | produceMutexP | makeProduct | readIn _ | store _ _ | printIn | readNextIn | writeIn _ | produceMutexV
  | fullV => cases consumes

end Exec

section Enabled

variable {ι β κ : Type} [DecidableEq ι] [DecidableEq β] {calls : ι → κ → Operation → β → κ → Prop}
  {st : State ι β κ} {i : ι} {b : β}

/-- A process whose caller never stops is enabled unless it waits for a semaphore. -/
theorem enabled_iff (continues : ∀ i k, ∃ op b k', calls i k op b k')
    (range : (st.buffer (st.pos i).buffer).min ≤ (st.buffer (st.pos i).buffer).max) :
    Enabled calls st i ↔ ¬ (st.pos i).label.Waits (st.buffer (st.pos i).buffer) := by
  rw [← exec_iff range]
  constructor
  · rintro ⟨st', step⟩
    obtain ⟨b, l, k, choice, sh, next, p, place, done, -⟩ := step.access
    rw [place]
    exact ⟨choice, _, done⟩
  · rintro ⟨choice, ⟨sh, _ | next⟩, done⟩
    · obtain ⟨op, b, k', call⟩ := continues i (st.pos i).caller
      exact ⟨_, .ret rfl done call⟩
    · exact ⟨_, .go rfl done⟩

variable [Fintype ι] {n : Nat}

omit [DecidableEq ι] in
/-- Somebody is inside while the mutex is taken, and does not wait. -/
theorem Held.inside (h : Held n b st) (taken : (st.buffer b).mutex = 0) :
    ∃ i, (st.pos i).buffer = b ∧ ¬ (st.pos i).label.Waits (st.buffer b) := by
  have mutex := h.mutex
  obtain ⟨i, holds⟩ := @exists_of_tally_pos _ _ _ (Place.weight Label.inside b) st.pos (by omega)
  unfold Place.weight at holds
  split at holds
  case isTrue at_b =>
    refine ⟨i, at_b, Label.not_waits ?_⟩
    omega
  case isFalse => omega

omit [DecidableEq ι] in
/-- Whoever holds something of the buffer goes on, or waits for somebody inside. -/
theorem Held.goes_on (h : Held n b st) {w : Label → Nat} (held : 0 < tally (Place.weight w b) st.pos)
    (part : ∀ l, w l ≤ l.reserved + l.stored + l.claimed + l.fetched) :
    ∃ i, (st.pos i).buffer = b ∧ ¬ (st.pos i).label.Waits (st.buffer b) := by
  obtain ⟨i, holds⟩ := exists_of_tally_pos held
  unfold Place.weight at holds
  split at holds
  case isTrue at_b =>
    by_cases waits : (st.pos i).label.Waits (st.buffer b)
    · have le := part (st.pos i).label
      exact h.inside (waits.mutex (by omega))
    · exact ⟨i, at_b, waits⟩
  case isFalse => omega

omit [DecidableEq ι] in
/-- **While a buffer is full**, somebody who uses it does not wait, if somebody consumes from it. -/
theorem Held.not_full (h : Held n b st) (positive : 0 < n) (full : (st.buffer b).empty = 0)
    (consumer : ∃ i, (st.pos i).buffer = b ∧ (st.pos i).label.operation = .consume) :
    ∃ i, (st.pos i).buffer = b ∧ ¬ (st.pos i).label.Waits (st.buffer b) := by
  have items := h.items
  have room := h.room
  by_cases reserved : 0 < tally (Place.weight Label.reserved b) st.pos
  · exact h.goes_on reserved fun l => by omega
  by_cases stored : 0 < tally (Place.weight Label.stored b) st.pos
  · exact h.goes_on stored fun l => by omega
  by_cases claimed : 0 < tally (Place.weight Label.claimed b) st.pos
  · exact h.goes_on claimed fun l => by omega
  by_cases fetched : 0 < tally (Place.weight Label.fetched b) st.pos
  · exact h.goes_on fetched fun l => by omega
  -- nobody holds anything, so every slot has been signalled as full
  obtain ⟨i, at_b, consumes⟩ := consumer
  have none_claimed := Held.le_tally Label.claimed at_b
  have none_fetched := Held.le_tally Label.fetched at_b
  have label := Label.eq_fullP consumes (by omega)
  refine ⟨i, at_b, ?_⟩
  rw [label]
  show (st.buffer b).full ≠ 0
  omega

omit [DecidableEq ι] in
/-- An empty buffer holds no item once nobody holds one of its items. -/
theorem Held.no_items (h : Held n b st) (empty : (st.buffer b).full = 0)
    (stored : tally (Place.weight Label.stored b) st.pos = 0)
    (claimed : tally (Place.weight Label.claimed b) st.pos = 0) :
    (st.buffer b).produced = (st.buffer b).consumed ∧ ∀ slot < n, (st.buffer b).unread slot = none := by
  obtain ⟨q, lo, next, layout⟩ := h.layout
  have items := h.items
  have length := layout.length
  have nothing : q = [] := List.length_eq_zero_iff.1 (by omega)
  subst nothing
  refine ⟨by rw [layout.history, List.append_nil], fun slot bound => ?_⟩
  exact layout.ring.blank_of_empty bound

end Enabled

/-- Who runs what: each consumer in `consume` on its buffer, the others in `produce`, and the buffers with
ranges to draw from. -/
structure Staffed (st : State Process (Fin 4) (Fin 4)) : Prop where
  range : ∀ b, (st.buffer b).min ≤ (st.buffer b).max
  consumer : ∀ b, (st.pos (.consumer b)).buffer = b
  operation : ∀ i, (st.pos i).label.operation = i.operation

namespace Staffed

variable {bufferSize : Nat} {body : Fin 4 → Nat → Int} {st st' : State Process (Fin 4) (Fin 4)} {i : Process}

theorem main : Staffed (main bufferSize body) where
  range b := by
    show (10 * ((b : Nat) + 1) : Int) ≤ 10 * ((b : Nat) + 1) + 9
    omega
  consumer _ := rfl
  operation i := Label.entry_operation i.operation

/-- The ranges after an access. -/
theorem range_update (h : Staffed st) {b : Fin 4} {l : Label} {choice : Int} {sh : IntegerBuffer} {r : Option Label}
    (done : exec choice l (st.buffer b) = some (sh, r)) (c : Fin 4) :
    (Function.update st.buffer b sh c).min ≤ (Function.update st.buffer b sh c).max := by
  by_cases here : c = b
  · subst here
    obtain ⟨min, max⟩ := exec_range done
    rw [Function.update_self, min, max]
    exact h.range c
  · rw [Function.update_of_ne here]
    exact h.range c

/-- A process that goes to a place of its own operation, and on its own buffer if it is a consumer. -/
theorem moved (h : Staffed st) {buffer : Fin 4 → IntegerBuffer} {p : Place (Fin 4) (Fin 4)}
    (range : ∀ c, (buffer c).min ≤ (buffer c).max) (operation : p.label.operation = i.operation)
    (station : ∀ c, i = .consumer c → p.buffer = c) : Staffed ⟨buffer, Function.update st.pos i p⟩ := by
  refine ⟨range, fun c => ?_, fun j => ?_⟩
  · show (Function.update st.pos i p _).buffer = c
    by_cases mover : Process.consumer c = i
    · rw [mover, Function.update_self]
      exact station c mover.symm
    · rw [Function.update_of_ne mover]
      exact h.consumer c
  · show (Function.update st.pos i p j).label.operation = j.operation
    by_cases mover : j = i
    · rw [mover, Function.update_self]
      exact operation
    · rw [Function.update_of_ne mover]
      exact h.operation j

theorem step (h : Staffed st) (step : Step Process.calls st i st') : Staffed st' := by
  cases step with
  | @go b l k choice sh next place done =>
    have runs := h.operation i
    rw [place] at runs
    apply h.moved (h.range_update done)
    · exact (exec_operation done).trans runs
    · rintro c rfl
      have at_c := h.consumer c
      rw [place] at at_c
      exact at_c
  | @ret b l k choice sh op c k' place done call =>
    obtain ⟨rfl, rfl, rfl⟩ := call
    have returns := h.operation i
    rw [place] at returns
    apply h.moved (h.range_update done)
    · exact Label.entry_operation i.operation
    · -- `consume` never returns, so the caller is no consumer
      rintro c rfl
      rw [exec_returns done] at returns
      cases returns

end Staffed

/-- No deadlock: whoever is blocked at `empty.p` or `mutex.p` of a buffer, somebody who uses it can do a step; a
consumer that is blocked with no producer of its buffer able to do a step has nothing to consume; and
somebody can do a step. -/
structure DeadlockFree (n : Nat) (st : State Process (Fin 4) (Fin 4)) : Prop where
  released : ∀ i, (st.pos i).label = .emptyP ∨ (st.pos i).label = .produceMutexP ∨ (st.pos i).label = .consumeMutexP →
    ¬ Enabled Process.calls st i → ∃ j, (st.pos j).buffer = (st.pos i).buffer ∧ Enabled Process.calls st j
  supplied : ∀ i, (st.pos i).label = .fullP → ¬ Enabled Process.calls st i →
    (∀ j, (st.pos j).buffer = (st.pos i).buffer → (st.pos j).label.operation = .produce →
      ¬ Enabled Process.calls st j) →
    (st.buffer (st.pos i).buffer).produced = (st.buffer (st.pos i).buffer).consumed ∧
      ∀ slot < n, (st.buffer (st.pos i).buffer).unread slot = none
  live : ∃ i, Enabled Process.calls st i

section Run

variable {bufferSize : Nat} {body : Fin 4 → Nat → Int} {schedule : List Process} {st : State Process (Fin 4) (Fin 4)}
  {i : Process} {b : Fin 4}

theorem main_reaches (run : Run (Step Process.calls) (main bufferSize body) schedule st) :
    Reaches (fun _ => bufferSize) Process.calls st :=
  ⟨_, schedule, ⟨fun _ => ⟨_, _, _, rfl⟩, fun _ => ⟨_, _, _, rfl⟩⟩, run⟩

theorem main_staffed (run : Run (Step Process.calls) (main bufferSize body) schedule st) : Staffed st := by
  have kept : Staffed st := run.invariant Staffed.step Staffed.main
  exact kept

theorem Staffed.enabled (h : Staffed st) :
    Enabled Process.calls st i ↔ ¬ (st.pos i).label.Waits (st.buffer (st.pos i).buffer) :=
  enabled_iff (fun _ _ => ⟨_, _, _, rfl, rfl, rfl⟩) (h.range _)

/-- Whoever does not wait at a buffer can do a step. -/
theorem Staffed.active (h : Staffed st) (active : ∃ j, (st.pos j).buffer = b ∧ ¬ (st.pos j).label.Waits (st.buffer b)) :
    ∃ j, (st.pos j).buffer = b ∧ Enabled Process.calls st j := by
  obtain ⟨j, rfl, goes⟩ := active
  exact ⟨j, rfl, h.enabled.2 goes⟩

/-- Only the consumer of a buffer claims its items. -/
theorem Staffed.unclaimed (h : Staffed st) (label : (st.pos (.consumer b)).label = .fullP) :
    tally (Place.weight Label.claimed b) st.pos = 0 := by
  rw [tally_eq_zero]
  intro j
  unfold Place.weight
  split
  case isTrue at_b =>
    have runs := h.operation j
    cases j with
    | consumer c =>
      rw [h.consumer c] at at_b
      subst at_b
      rw [label]
      rfl
    | producer1 | producer2 | entrepreneur =>
      revert runs
      cases (st.pos _).label <;> simp [Label.operation, Process.operation, Label.claimed]
  case isFalse => rfl

/-- Nobody keeps an item back while nobody in `produce` can do a step. -/
theorem Staffed.unstored (h : Staffed st) (idle : ∀ j, (st.pos j).buffer = b → (st.pos j).label.operation = .produce →
    ¬ Enabled Process.calls st j) : tally (Place.weight Label.stored b) st.pos = 0 := by
  rw [tally_eq_zero]
  intro j
  unfold Place.weight
  split
  case isTrue at_b =>
    by_contra stored
    refine idle j at_b (Label.stored_produce stored) (h.enabled.2 (Label.not_waits ?_))
    omega
  case isFalse => rfl

/-- The process that calls `consume` on a buffer. -/
theorem Staffed.consumes (h : Staffed st) : ∃ i, (st.pos i).buffer = b ∧ (st.pos i).label.operation = .consume :=
  ⟨.consumer b, h.consumer b, h.operation (.consumer b)⟩

/-- What holds of the four buffers keeps their users from a deadlock. -/
theorem Staffed.deadlockFree (h : Staffed st) (held : ∀ b, Held bufferSize b st) (positive : 0 < bufferSize) :
    DeadlockFree bufferSize st := by
  have released : ∀ i, (st.pos i).label = .emptyP ∨ (st.pos i).label = .produceMutexP ∨
      (st.pos i).label = .consumeMutexP → ¬ Enabled Process.calls st i →
      ∃ j, (st.pos j).buffer = (st.pos i).buffer ∧ Enabled Process.calls st j := by
    intro i label blocked
    have waits := h.enabled.not_left.1 blocked
    apply h.active
    rcases label with label | label | label
    · rw [label] at waits
      exact (held _).not_full positive waits h.consumes
    · rw [label] at waits
      exact (held _).inside waits
    · rw [label] at waits
      exact (held _).inside waits
  refine ⟨released, fun i label blocked idle => ?_, ?_⟩
  · have waits := h.enabled.not_left.1 blocked
    rw [label] at waits
    have runs := h.operation i
    rw [label] at runs
    cases i with
    | consumer b =>
      rw [h.consumer b] at waits idle ⊢
      exact (held b).no_items waits (h.unstored idle) (h.unclaimed label)
    | producer1 | producer2 | entrepreneur => cases runs
  · by_cases blocked : Enabled Process.calls st .entrepreneur
    · exact ⟨_, blocked⟩
    · have waits := h.enabled.not_left.1 blocked
      obtain ⟨j, -, enabled⟩ := released .entrepreneur (waits.produce (h.operation .entrepreneur)) blocked
      exact ⟨j, enabled⟩

end Run

/-- **No deadlock in the four-buffer system**, for every buffer size, every content of the new memory and
every interleaving of the seven processes. -/
theorem main_deadlock_free (bufferSize : Nat) (positive : 0 < bufferSize) (body : Fin 4 → Nat → Int)
    (schedule : List Process) (st : State Process (Fin 4) (Fin 4))
    (run : Run (Step Process.calls) (main bufferSize body) schedule st) : DeadlockFree bufferSize st := by
  have held : ∀ b, Held bufferSize b st := fun b => Held.reached (main_reaches run) positive
  exact (main_staffed run).deadlockFree held positive

/-- The first producer takes the room and the mutex of the first buffer, and the entrepreneur the rest of the room.
Then it is blocked at `mutex.p`. -/
theorem main_deadlock_free_crowded : ∃ st : State Process (Fin 4) (Fin 4),
    Run (Step Process.calls) (main 2 fun _ _ => 0) [.producer1, .producer1, .entrepreneur] st ∧
    (st.pos .entrepreneur).label = .produceMutexP ∧ ¬ Enabled Process.calls st .entrepreneur ∧ DeadlockFree 2 st := by
  have room : Step Process.calls (main 2 fun _ _ => 0) .producer1 _ :=
    @Step.go _ _ _ _ _ _ _ _ 0 .emptyP 0 0 _ .produceMutexP rfl rfl
  have inside := (Run.single room).snoc (@Step.go _ _ _ _ _ _ _ .producer1 0 .produceMutexP 0 0 _ .makeProduct rfl rfl)
  have run := inside.snoc (@Step.go _ _ _ _ _ _ _ .entrepreneur 0 .emptyP 0 0 _ .produceMutexP rfl rfl)
  refine ⟨_, run, rfl, ?_, main_deadlock_free 2 (by decide) _ _ _ run⟩
  rw [enabled_iff (fun _ _ => ⟨_, _, _, rfl, rfl, rfl⟩) (by decide)]
  exact not_not_intro rfl

end SoiExercises.Semaphores
