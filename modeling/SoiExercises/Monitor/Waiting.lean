import SoiExercises.Lib.Tally
import SoiExercises.Monitor.Outline

/-!
# Waiting counts

For every client of the monitor the waiting count of a condition, the signals on their way to its semaphore
and the value of the semaphore add up to the threads that wait (`Counted`). So a signal that has been counted
off always finds a waiter, and a waiting thread is counted until somebody signals.
-/

namespace SoiExercises.Monitor

open SoiExercises.Lib

variable {ι σ C L : Type}

/-- The thread waits on `c`: it has been counted and has not passed the semaphore yet. -/
def Pos.waiting [DecidableEq C] (c : C) : Pos C L → Nat
  | .waitLeave c' _ | .waitP c' _ => if c' = c then 1 else 0
  | _ => 0

/-- The thread has counted a waiter off and has not signalled yet. -/
def Pos.signalling [DecidableEq C] (c : C) : Pos C L → Nat
  | .signalV c' _ => if c' = c then 1 else 0
  | _ => 0

/-- **Every waiter is counted once.** -/
def Counted [Fintype ι] [DecidableEq C] (st : State ι σ C L) : Prop :=
  ∀ c, st.waitingCount c + tally (Pos.signalling c) st.pos + st.w c = tally (Pos.waiting c) st.pos

section Counted

variable [Fintype ι] [DecidableEq ι] [DecidableEq C] {instr : ι → L → Instr σ C L} {st st' : State ι σ C L} {i : ι}

/-- A thread moves, and the waiting counts and the semaphores with it. -/
theorem Counted.move (h : Counted st) {p : Pos C L} (pos : st'.pos = Function.update st.pos i p)
    (balance : ∀ c, st'.waitingCount c + p.signalling c + st'.w c + (st.pos i).waiting c =
      st.waitingCount c + (st.pos i).signalling c + st.w c + p.waiting c) : Counted st' := by
  intro c
  have counted := h c
  have waiting := tally_update (Pos.waiting c) st.pos i p
  have signalling := tally_update (Pos.signalling c) st.pos i p
  have moved := balance c
  rw [pos]
  omega

theorem Counted.step (h : Counted st) (step : Step instr st i st') : Counted st' := by
  cases step with
  | enter pos | leave pos | signalNone pos | signalSome pos | access pos | pause pos | waitLeave pos
  | signalEnter pos =>
    refine h.move rfl fun c => ?_
    rw [pos]
    rfl
  | @waitInc l c' next pos | @waitP c' next pos posted | @signalDec c' next pos | @signalV c' next pos =>
    refine h.move rfl fun c => ?_
    rw [pos]
    simp only [Pos.waiting, Pos.signalling, State.move_w, State.move_waitingCount]
    by_cases same : c' = c
    · subst same
      simp only [Function.update_self, if_true]
      omega
    · simp only [Function.update_of_ne (Ne.symm same), if_neg same]

omit [DecidableEq ι] in
theorem Counted.initial {shared : σ} {start : ι → L} :
    Counted (State.initial shared start : State ι σ C L) := by
  intro c
  have nobody_signals : tally (Pos.signalling c) (State.initial shared start : State ι σ C L).pos = 0 :=
    tally_eq_zero.2 fun _ => rfl
  have nobody_waits : tally (Pos.waiting c) (State.initial shared start : State ι σ C L).pos = 0 :=
    tally_eq_zero.2 fun _ => rfl
  rw [nobody_signals, nobody_waits]
  rfl

theorem Counted.reached {shared : σ} {start : ι → L} (reached : Reaches instr (State.initial shared start) st) :
    Counted st := by
  obtain ⟨schedule, run⟩ := reached
  have kept : Counted st := run.invariant Counted.step Counted.initial
  exact kept

omit [DecidableEq ι] in
/-- While the monitor is free, the threads that wait are the waiting count. -/
theorem Counted.of_free {inside : L → Prop} (h : Counted st) (token : HasToken inside st .free) (c : C) :
    st.waitingCount c = tally (Pos.waiting c) st.pos := by
  have counted := h c
  have nobody_signals : tally (Pos.signalling c) st.pos = 0 := by
    rw [tally_eq_zero]
    intro i
    have outside := (token.holds i).not.2 nofun
    cases pos : st.pos i with
    | signalV c' next =>
      rw [pos] at outside
      exact absurd trivial outside
    | «at» _ | waitLeave _ _ | waitP _ _ | signalDec _ _ | signalEnter _ => rfl
  have nothing_posted : st.w c = 0 := token.w c
  omega

omit [DecidableEq ι] in
/-- A signal that has been posted finds a thread at the semaphore. -/
theorem Counted.woken {inside : L → Prop} {c : C} (h : Counted st) (token : HasToken inside st (.posted c))
    (counts : 0 ≤ st.waitingCount c) : ∃ i next, st.pos i = .waitP c next := by
  have counted := h c
  have posted : st.w c = 1 := (token.w c).trans (if_pos rfl)
  obtain ⟨i, waits⟩ := @exists_of_tally_pos _ _ _ (Pos.waiting c) st.pos (by omega)
  have outside := (token.holds i).not.2 nofun
  cases pos : st.pos i with
  | waitP c' next =>
    rw [pos] at waits
    simp only [Pos.waiting] at waits
    split at waits
    case isTrue same => exact ⟨i, next, same ▸ pos⟩
    case isFalse => omega
  | waitLeave c' next =>
    rw [pos] at outside
    exact absurd trivial outside
  | «at» _ | signalDec _ _ | signalV _ _ | signalEnter _ =>
    rw [pos] at waits
    exact absurd waits (Nat.lt_irrefl 0)

end Counted

section Labels

variable [DecidableEq ι] [DecidableEq C] {instr : ι → L → Instr σ C L} {st st' : State ι σ C L} {i : ι}

/-- Where an instruction leads to. -/
def Instr.LeadsTo : Instr σ C L → L → Prop
  | .enter next, l | .leave next, l | .wait _ next, l | .signal _ next, l => l = next
  | .access effect, l => ∃ sh sh', effect sh sh' l
  | .pause nexts, l => nexts l

/-- The label that the thread is at or is going to return to. -/
def Pos.label : Pos C L → L
  | .at l => l
  | .waitLeave _ next | .waitP _ next | .signalDec _ next | .signalV _ next | .signalEnter next => next

/-- A step leads its thread to a label as its instruction says, or stays inside `monitor.h`. -/
theorem Step.leads (step : Step instr st i st') : ∃ p, st'.pos = Function.update st.pos i p ∧
    (p.label = (st.pos i).label ∨ (instr i (st.pos i).label).LeadsTo p.label) := by
  cases step with
  | enter pos does | leave pos does | waitInc pos does | signalNone pos does | signalSome pos does =>
    refine ⟨_, rfl, .inr ?_⟩
    rw [pos]
    show (instr i _).LeadsTo _
    rw [Pos.label, does]
    rfl
  | access pos does effect =>
    refine ⟨_, rfl, .inr ?_⟩
    rw [pos, Pos.label, does]
    exact ⟨_, _, effect⟩
  | pause pos does goes =>
    refine ⟨_, rfl, .inr ?_⟩
    rw [pos, Pos.label, does]
    exact goes
  | waitLeave pos | waitP pos | signalDec pos | signalV pos | signalEnter pos =>
    refine ⟨_, rfl, .inl ?_⟩
    rw [pos]
    rfl

/-- **A property of the labels of each thread** that its instructions keep. -/
theorem Step.labels {P : ι → L → Prop} (kept : ∀ i l l', P i l → (instr i l).LeadsTo l' → P i l')
    (h : ∀ j, P j (st.pos j).label) (step : Step instr st i st') : ∀ j, P j (st'.pos j).label := by
  obtain ⟨p, pos, leads⟩ := step.leads
  intro j
  rw [pos]
  by_cases mover : j = i
  · subst mover
    rw [Function.update_self]
    rcases leads with same | leads
    · rw [same]
      exact h j
    · exact kept j _ _ (h j) leads
  · rw [Function.update_of_ne mover]
    exact h j

end Labels

end SoiExercises.Monitor
