import Mathlib.Logic.Function.Basic
import SoiExercises.Lib.Run

/-!
# `monitor.h` as a machine of single semaphore operations

`Monitor` and `Condition` are two kinds of counting semaphores and a waiting count for each
condition. The machine runs any number of threads of an arbitrary client, one semaphore
operation or shared-variable statement at a time: `Monitor::wait` is three steps, and
`Monitor::signal` is up to four. A client is what its threads do at each of their labels;
the monitor's own intermediate points are the other constructors of `Pos`.
-/

namespace SoiExercises.Monitor

open SoiExercises.Lib

/-- What a client thread does at a label. -/
inductive Instr (σ C L : Type) where
  /-- `enter()` -/
  | enter (next : L)
  /-- `leave()` -/
  | leave (next : L)
  /-- `wait(c)` -/
  | wait (c : C) (next : L)
  /-- `signal(c)` -/
  | signal (c : C) (next : L)
  /-- One statement on the shared variables; the relation gives the new values and the next label. -/
  | access (effect : σ → σ → L → Prop)
  /-- A statement that touches no shared variable. -/
  | pause (next : L → Prop)

/-- Where a thread stands: at a label of the client, or inside an operation of `monitor.h`
that will return to the label `next`. -/
inductive Pos (C L : Type) where
  | at (l : L)
  /-- `Monitor::wait` before `leave()` -/
  | waitLeave (c : C) (next : L)
  /-- `Monitor::wait` before `cond.wait()`, that is before `w.p()` -/
  | waitP (c : C) (next : L)
  /-- `Condition::signal` before `-- waitingCount` -/
  | signalDec (c : C) (next : L)
  /-- `Condition::signal` before `w.v()` -/
  | signalV (c : C) (next : L)
  /-- `Monitor::signal` before `enter()` -/
  | signalEnter (next : L)

/-- The monitor's semaphore `s`, the conditions' semaphores `w` and waiting counts, the client's
shared variables, and the threads' positions. -/
structure State (ι σ C L : Type) where
  s : Nat
  w : C → Nat
  waitingCount : C → Int
  shared : σ
  pos : ι → Pos C L

variable {ι σ C L : Type}

/-- `Monitor() : s( 1 )` and `Condition() : w( 0 )` with `waitingCount = 0`. -/
def State.initial (shared : σ) (start : ι → L) : State ι σ C L where
  s := 1
  w := fun _ => 0
  waitingCount := fun _ => 0
  shared := shared
  pos := fun i => .at (start i)

variable [DecidableEq ι] [DecidableEq C]

/-- Thread `i` stands at `p` from now on. -/
def State.move (st : State ι σ C L) (i : ι) (p : Pos C L) : State ι σ C L :=
  { st with pos := Function.update st.pos i p }

/-- One step of thread `i` of the client whose threads do `instr` at their labels. A semaphore's
`p()` is enabled when its value is positive. -/
inductive Step (instr : ι → L → Instr σ C L) : State ι σ C L → ι → State ι σ C L → Prop
  | enter {st i l next} : st.pos i = .at l → instr i l = .enter next → 0 < st.s →
      Step instr st i { st.move i (.at next) with s := st.s - 1 }
  | leave {st i l next} : st.pos i = .at l → instr i l = .leave next →
      Step instr st i { st.move i (.at next) with s := st.s + 1 }
  | waitInc {st i l c next} : st.pos i = .at l → instr i l = .wait c next →
      Step instr st i { st.move i (.waitLeave c next) with
        waitingCount := Function.update st.waitingCount c (st.waitingCount c + 1) }
  | waitLeave {st i c next} : st.pos i = .waitLeave c next →
      Step instr st i { st.move i (.waitP c next) with s := st.s + 1 }
  | waitP {st i c next} : st.pos i = .waitP c next → 0 < st.w c →
      Step instr st i { st.move i (.at next) with w := Function.update st.w c (st.w c - 1) }
  | signalNone {st i l c next} : st.pos i = .at l → instr i l = .signal c next →
      st.waitingCount c = 0 → Step instr st i (st.move i (.at next))
  | signalSome {st i l c next} : st.pos i = .at l → instr i l = .signal c next →
      st.waitingCount c ≠ 0 → Step instr st i (st.move i (.signalDec c next))
  | signalDec {st i c next} : st.pos i = .signalDec c next →
      Step instr st i { st.move i (.signalV c next) with
        waitingCount := Function.update st.waitingCount c (st.waitingCount c - 1) }
  | signalV {st i c next} : st.pos i = .signalV c next →
      Step instr st i { st.move i (.signalEnter next) with
        w := Function.update st.w c (st.w c + 1) }
  | signalEnter {st i next} : st.pos i = .signalEnter next → 0 < st.s →
      Step instr st i { st.move i (.at next) with s := st.s - 1 }
  | access {st i l effect shared next} : st.pos i = .at l → instr i l = .access effect →
      effect st.shared shared next → Step instr st i { st.move i (.at next) with shared := shared }
  | pause {st i l nexts next} : st.pos i = .at l → instr i l = .pause nexts → nexts next →
      Step instr st i (st.move i (.at next))

/-- The states some interleaving of the threads' steps reaches from `st₀`. -/
def Reaches (instr : ι → L → Instr σ C L) (st₀ st : State ι σ C L) : Prop :=
  ∃ schedule, Run (Step instr) st₀ schedule st

section Moves

omit [DecidableEq C]

variable (st : State ι σ C L) (i : ι) (p : Pos C L)

@[simp] theorem State.move_s : (st.move i p).s = st.s := rfl
@[simp] theorem State.move_w : (st.move i p).w = st.w := rfl
@[simp] theorem State.move_waitingCount : (st.move i p).waitingCount = st.waitingCount := rfl
@[simp] theorem State.move_shared : (st.move i p).shared = st.shared := rfl
@[simp] theorem State.move_pos_self : (st.move i p).pos i = p := Function.update_self ..

theorem State.move_pos_ne {j : ι} (h : j ≠ i) : (st.move i p).pos j = st.pos j :=
  Function.update_of_ne h ..

end Moves

end SoiExercises.Monitor
