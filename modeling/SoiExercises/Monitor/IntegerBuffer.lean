import SoiExercises.Monitor.Machine

/-!
# `IntegerBufferMonitor`

The bodies of `produce` and `consume` statement by statement, as a client of the monitor.
`produced` and `consumed` record the items stored and fetched so far; no statement reads them.
A thread repeats the operations it is allowed to call: `newProducer`, `newConsumer` and the
entrepreneur's visits to this buffer are threads with one allowed operation.
-/

namespace SoiExercises.Monitor

/-- The two conditions of `IntegerBufferMonitor`. -/
inductive Condition where
  | empty
  | full
  deriving DecidableEq

/-- The shared variables of `IntegerBufferMonitor` (`in_` is the source's `in`), with the history
of the items. -/
structure IntegerBufferMonitor where
  body : Nat → Int
  counter : Int
  in_ : Nat
  out : Nat
  produced : List Int
  consumed : List Int

/-- The constructor: every slot is -1. -/
def IntegerBufferMonitor.new : IntegerBufferMonitor where
  body := fun _ => -1
  counter := 0
  in_ := 0
  out := 0
  produced := []
  consumed := []

inductive Operation where
  | produce
  | consume
  deriving DecidableEq

/-- The statements of `produce` and `consume`; `item` is the thread's local variable. -/
inductive Label where
  /-- between two calls, where `newProducer` and `newConsumer` sleep -/
  | idle
  | produceEnter
  | produceTest
  | produceWait
  | produceMake
  | produceStore (item : Int)
  | producePrint (item : Int)
  | produceIn
  | produceCount
  | produceSignal
  | produceLeave
  | consumeEnter
  | consumeTest
  | consumeWait
  | consumeFetch
  | consumeClear (item : Int)
  | consumePrint (item : Int)
  | consumeOut
  | consumeCount
  | consumeSignal
  | consumeLeave

/-- A statement that computes its effect on the shared variables and where to go next. -/
def run {σ C L : Type} (f : σ → σ × L) : Instr σ C L :=
  .access fun sh sh' l => (sh', l) = f sh

/-- What `makeProduct(id * 10, id * 10 + 9)` can draw. -/
def MakeProduct (id item : Int) : Prop := id * 10 ≤ item ∧ item ≤ id * 10 + 9

variable {ι : Type}

/-- The code of `produce` and `consume` for the buffer `id` of `size` slots; thread `i` calls the
operations in `calls i`. -/
def code (id : Int) (size : Nat) (calls : ι → Operation → Prop) (i : ι) :
    Label → Instr IntegerBufferMonitor Condition Label
  | .idle => .pause fun l =>
      (calls i .produce ∧ l = .produceEnter) ∨ (calls i .consume ∧ l = .consumeEnter)
  | .produceEnter => .enter .produceTest
  | .produceTest => run fun sh => (sh, if sh.counter = size then .produceWait else .produceMake)
  | .produceWait => .wait .full .produceMake
  | .produceMake => .pause fun l => ∃ item, MakeProduct id item ∧ l = .produceStore item
  | .produceStore item => run fun sh =>
      ({ sh with body := Function.update sh.body sh.in_ item, produced := sh.produced ++ [item] },
        .producePrint item)
  | .producePrint _ => run fun sh => (sh, .produceIn)
  | .produceIn => run fun sh => ({ sh with in_ := (sh.in_ + 1) % size }, .produceCount)
  | .produceCount => run fun sh => ({ sh with counter := sh.counter + 1 }, .produceSignal)
  | .produceSignal => .signal .empty .produceLeave
  | .produceLeave => .leave .idle
  | .consumeEnter => .enter .consumeTest
  | .consumeTest => run fun sh => (sh, if sh.counter = 0 then .consumeWait else .consumeFetch)
  | .consumeWait => .wait .empty .consumeFetch
  | .consumeFetch => run fun sh =>
      ({ sh with consumed := sh.consumed ++ [sh.body sh.out] }, .consumeClear (sh.body sh.out))
  | .consumeClear item => run fun sh =>
      ({ sh with body := Function.update sh.body sh.out (-1) }, .consumePrint item)
  | .consumePrint _ => run fun sh => (sh, .consumeOut)
  | .consumeOut => run fun sh => ({ sh with out := (sh.out + 1) % size }, .consumeCount)
  | .consumeCount => run fun sh => ({ sh with counter := sh.counter - 1 }, .consumeSignal)
  | .consumeSignal => .signal .full .consumeLeave
  | .consumeLeave => .leave .idle

section Code

variable {id : Int} {size : Nat} {calls : ι → Operation → Prop} {i : ι} {l next : Label} {c : Condition}
  {nexts : Label → Prop}

theorem code_enter (h : code id size calls i l = .enter next) :
    (l = .produceEnter ∧ next = .produceTest) ∨ (l = .consumeEnter ∧ next = .consumeTest) := by
  cases l <;> simp only [code, run, reduceCtorEq, Instr.enter.injEq] at h
  case produceEnter => exact .inl ⟨rfl, h.symm⟩
  case consumeEnter => exact .inr ⟨rfl, h.symm⟩

theorem code_leave (h : code id size calls i l = .leave next) :
    (l = .produceLeave ∨ l = .consumeLeave) ∧ next = .idle := by
  cases l <;> simp only [code, run, reduceCtorEq, Instr.leave.injEq] at h
  case produceLeave => exact ⟨.inl rfl, h.symm⟩
  case consumeLeave => exact ⟨.inr rfl, h.symm⟩

theorem code_wait (h : code id size calls i l = .wait c next) :
    (l = .produceWait ∧ c = .full ∧ next = .produceMake) ∨ (l = .consumeWait ∧ c = .empty ∧ next = .consumeFetch) := by
  cases l <;> simp only [code, run, reduceCtorEq, Instr.wait.injEq] at h
  case produceWait => exact .inl ⟨rfl, h.1.symm, h.2.symm⟩
  case consumeWait => exact .inr ⟨rfl, h.1.symm, h.2.symm⟩

theorem code_signal (h : code id size calls i l = .signal c next) :
    (l = .produceSignal ∧ c = .empty ∧ next = .produceLeave) ∨
      (l = .consumeSignal ∧ c = .full ∧ next = .consumeLeave) := by
  cases l <;> simp only [code, run, reduceCtorEq, Instr.signal.injEq] at h
  case produceSignal => exact .inl ⟨rfl, h.1.symm, h.2.symm⟩
  case consumeSignal => exact .inr ⟨rfl, h.1.symm, h.2.symm⟩

theorem code_pause (h : code id size calls i l = .pause nexts) (goes : nexts next) :
    (l = .idle ∧ ((calls i .produce ∧ next = .produceEnter) ∨ (calls i .consume ∧ next = .consumeEnter))) ∨
      (l = .produceMake ∧ ∃ item, MakeProduct id item ∧ next = .produceStore item) := by
  cases l <;> simp only [code, run, reduceCtorEq, Instr.pause.injEq] at h
  all_goals subst h
  case idle => exact .inl ⟨rfl, goes⟩
  case produceMake => exact .inr ⟨rfl, goes⟩

end Code

/-- Every thread between calls, on a fresh buffer. -/
def start : State ι IntegerBufferMonitor Condition Label :=
  .initial .new fun _ => .idle

/-- The labels strictly between obtaining and giving up the monitor. -/
def Label.inside : Label → Prop
  | .idle | .produceEnter | .consumeEnter => False
  | _ => True

end SoiExercises.Monitor
