import SoiExercises.Monitor.Machine

/-!
# The monitor's token and the rule for its clients

There is one token. It is in the semaphore `s` when the monitor is free, in a condition's
semaphore while a signalled waiter has not yet run, and otherwise with the thread that owns the
monitor (`HasToken`). A client's `Outline` says what holds of the shared variables when the
monitor is free, when a condition has been signalled, and at each label of an owner;
`Outline.sound` is the monitor rule: verification conditions on single labels, with no mention
of other threads, give the outline in every state of every interleaving. A `CountingOutline` may
also speak of the waiting counts, and an `Outline` is one that does not.
-/

namespace SoiExercises.Monitor

open SoiExercises.Lib

variable {ι σ C L : Type}

/-- Where the token is. -/
inductive Token (ι C : Type) where
  | free
  | posted (c : C)
  | owned (i : ι)

/-- The token's share of the semaphore `s`. -/
def Token.inS : Token ι C → Nat
  | .free => 1
  | _ => 0

/-- The token's share of the semaphore of condition `c`. -/
def Token.inW [DecidableEq C] : Token ι C → C → Nat
  | .posted c', c => if c' = c then 1 else 0
  | _, _ => 0

/-- A thread owns the monitor at the labels `inside` and, within `monitor.h`, up to the operation
that gives it up. -/
def Pos.Holds (inside : L → Prop) : Pos C L → Prop
  | .at l => inside l
  | .waitLeave _ _ | .signalDec _ _ | .signalV _ _ => True
  | .waitP _ _ | .signalEnter _ => False

/-- The semaphores and the threads agree that the token is at `tok`. -/
structure HasToken [DecidableEq C] (inside : L → Prop) (st : State ι σ C L) (tok : Token ι C) :
    Prop where
  s : st.s = tok.inS
  w : ∀ c, st.w c = tok.inW c
  holds : ∀ i, (st.pos i).Holds inside ↔ tok = .owned i

/-- A thread inside an operation of `monitor.h` got there from a label of its own program. -/
def Pos.Placed (program : L → Instr σ C L) : Pos C L → Prop
  | .at _ => True
  | .waitLeave c next | .waitP c next => ∃ l, program l = .wait c next
  | .signalDec c next | .signalV c next => ∃ l, program l = .signal c next
  | .signalEnter next => ∃ l c, program l = .signal c next

/-- A proof outline for the client `instr`: the labels at which a thread owns the monitor, what
holds of the shared variables and the waiting counts when it is free, when `c` has been signalled,
and at an owner's label, with the conditions each instruction must meet on its own. -/
structure CountingOutline [DecidableEq C] (instr : ι → L → Instr σ C L) where
  inside : L → Prop
  free : σ → (C → Int) → Prop
  signalled : C → σ → (C → Int) → Prop
  at' : ι → L → σ → (C → Int) → Prop
  enter : ∀ {i l next}, instr i l = .enter next →
    ¬ inside l ∧ inside next ∧ ∀ {sh wc}, free sh wc → at' i next sh wc
  leave : ∀ {i l next}, instr i l = .leave next →
    inside l ∧ ¬ inside next ∧ ∀ {sh wc}, at' i l sh wc → free sh wc
  wait : ∀ {i l c next}, instr i l = .wait c next →
    inside l ∧ inside next ∧ (∀ {sh wc}, at' i l sh wc → free sh (Function.update wc c (wc c + 1))) ∧
      ∀ {sh wc}, signalled c sh wc → at' i next sh wc
  signal : ∀ {i l c next}, instr i l = .signal c next →
    inside l ∧ inside next ∧
      (∀ {sh wc}, at' i l sh wc → wc c ≠ 0 → signalled c sh (Function.update wc c (wc c - 1))) ∧
      (∀ {sh wc}, at' i l sh wc → wc c = 0 → at' i next sh wc) ∧ ∀ {sh wc}, free sh wc → at' i next sh wc
  access : ∀ {i l effect}, instr i l = .access effect →
    inside l ∧ ∀ {sh sh' wc next}, at' i l sh wc → effect sh sh' next → inside next ∧ at' i next sh' wc
  pause : ∀ {i l nexts next}, instr i l = .pause nexts → nexts next →
    (inside l ↔ inside next) ∧ ∀ {sh wc}, inside l → at' i l sh wc → at' i next sh wc

namespace CountingOutline

variable [DecidableEq C] {instr : ι → L → Instr σ C L} (O : CountingOutline instr)

/-- What an owner at position `p` knows. -/
def owner (i : ι) : Pos C L → σ → (C → Int) → Prop
  | .at l, sh, wc => O.at' i l sh wc
  | .waitLeave _ _, sh, wc => O.free sh wc
  | .signalDec c _, sh, wc => O.signalled c sh (Function.update wc c (wc c - 1))
  | .signalV c _, sh, wc => O.signalled c sh wc
  | .waitP _ _, _, _ | .signalEnter _, _, _ => False

/-- What is known when the token is at `tok`. -/
def known (st : State ι σ C L) : Token ι C → Prop
  | .free => O.free st.shared st.waitingCount
  | .posted c => O.signalled c st.shared st.waitingCount
  | .owned i => O.owner i (st.pos i) st.shared st.waitingCount

/-- The outline holds in `st`, with the token at `tok`. -/
structure Holds (st : State ι σ C L) (tok : Token ι C) : Prop where
  token : HasToken O.inside st tok
  known : O.known st tok
  placed : ∀ i, (st.pos i).Placed (instr i)

/-- The outline holds, with the token somewhere. -/
def Annotated (st : State ι σ C L) : Prop := ∃ tok, O.Holds st tok

end CountingOutline

/-- A proof outline for the client `instr`: the labels at which a thread owns the monitor, what
holds of the shared variables when it is free, when `c` has been signalled, and at an owner's
label, with the conditions each instruction must meet on its own. -/
structure Outline (instr : ι → L → Instr σ C L) where
  inside : L → Prop
  free : σ → Prop
  signalled : C → σ → Prop
  at' : ι → L → σ → Prop
  enter : ∀ {i l next}, instr i l = .enter next →
    ¬ inside l ∧ inside next ∧ ∀ {sh}, free sh → at' i next sh
  leave : ∀ {i l next}, instr i l = .leave next →
    inside l ∧ ¬ inside next ∧ ∀ {sh}, at' i l sh → free sh
  wait : ∀ {i l c next}, instr i l = .wait c next →
    inside l ∧ inside next ∧ (∀ {sh}, at' i l sh → free sh) ∧ ∀ {sh}, signalled c sh → at' i next sh
  signal : ∀ {i l c next}, instr i l = .signal c next →
    inside l ∧ inside next ∧ (∀ {sh}, at' i l sh → signalled c sh) ∧
      (∀ {sh}, at' i l sh → at' i next sh) ∧ ∀ {sh}, free sh → at' i next sh
  access : ∀ {i l effect}, instr i l = .access effect →
    inside l ∧ ∀ {sh sh' next}, at' i l sh → effect sh sh' next → inside next ∧ at' i next sh'
  pause : ∀ {i l nexts next}, instr i l = .pause nexts → nexts next →
    (inside l ↔ inside next) ∧ ∀ {sh}, inside l → at' i l sh → at' i next sh

namespace Outline

variable {instr : ι → L → Instr σ C L} (O : Outline instr)

/-- What an owner at position `p` knows of the shared variables. -/
def owner (i : ι) : Pos C L → σ → Prop
  | .at l, sh => O.at' i l sh
  | .waitLeave _ _, sh => O.free sh
  | .signalDec c _, sh | .signalV c _, sh => O.signalled c sh
  | .waitP _ _, _ | .signalEnter _, _ => False

/-- What is known of the shared variables when the token is at `tok`. -/
def known (st : State ι σ C L) : Token ι C → Prop
  | .free => O.free st.shared
  | .posted c => O.signalled c st.shared
  | .owned i => O.owner i (st.pos i) st.shared

variable [DecidableEq C]

/-- The outline holds in `st`, with the token at `tok`. -/
structure Holds (st : State ι σ C L) (tok : Token ι C) : Prop where
  token : HasToken O.inside st tok
  known : O.known st tok
  placed : ∀ i, (st.pos i).Placed (instr i)

end Outline

section Tokens

variable [DecidableEq C] {inside : L → Prop} {st : State ι σ C L} {tok : Token ι C}

/-- At most one thread owns the monitor. -/
theorem HasToken.unique (h : HasToken inside st tok) {i j : ι} (hi : (st.pos i).Holds inside)
    (hj : (st.pos j).Holds inside) : i = j := by
  have e := ((h.holds i).1 hi).symm.trans ((h.holds j).1 hj)
  exact Token.owned.inj e

/-- A positive `s` is the free token. -/
theorem HasToken.free_of_s (h : HasToken inside st tok) (pos : 0 < st.s) : tok = .free := by
  rw [h.s] at pos
  cases tok with
  | free => rfl
  | posted c => exact absurd pos (Nat.lt_irrefl 0)
  | owned i => exact absurd pos (Nat.lt_irrefl 0)

/-- A positive condition semaphore is the token posted there. -/
theorem HasToken.posted_of_w (h : HasToken inside st tok) {c : C} (pos : 0 < st.w c) :
    tok = .posted c := by
  rw [h.w] at pos
  cases tok with
  | free => exact absurd pos (Nat.lt_irrefl 0)
  | owned i => exact absurd pos (Nat.lt_irrefl 0)
  | posted c' =>
    by_cases same : c' = c
    · rw [same]
    · simp [Token.inW, same] at pos

/-- Thread `i` moves to `p` and the token to `tok'`; the other threads' ownership is untouched. -/
theorem HasToken.move [DecidableEq ι] (h : HasToken inside st tok) {st' : State ι σ C L} {i : ι}
    {p : Pos C L} {tok' : Token ι C} (pos : st'.pos = Function.update st.pos i p)
    (s : st'.s = tok'.inS) (w : ∀ c, st'.w c = tok'.inW c)
    (mine : p.Holds inside ↔ tok' = .owned i)
    (others : ∀ j, j ≠ i → (tok = .owned j ↔ tok' = .owned j)) : HasToken inside st' tok' where
  s := s
  w := w
  holds j := by
    rw [pos]
    by_cases hj : j = i
    · subst hj
      rw [Function.update_self]
      exact mine
    · rw [Function.update_of_ne hj, h.holds j]
      exact others j hj

/-- The owner moves within the monitor, or a thread outside moves outside: the token stays. -/
theorem HasToken.stay [DecidableEq ι] (h : HasToken inside st tok) {st' : State ι σ C L} {i : ι}
    {p : Pos C L} (pos : st'.pos = Function.update st.pos i p) (s : st'.s = st.s)
    (w : st'.w = st.w) (same : p.Holds inside ↔ (st.pos i).Holds inside) :
    HasToken inside st' tok :=
  h.move pos (s.trans h.s) (fun c => (congrFun w c).trans (h.w c)) (same.trans (h.holds i))
    fun _ _ => Iff.rfl

/-- The owner moves within the monitor. -/
theorem HasToken.keep [DecidableEq ι] {i : ι} (h : HasToken inside st (.owned i)) {st' : State ι σ C L} {p : Pos C L}
    (pos : st'.pos = Function.update st.pos i p) (s : st'.s = st.s) (w : st'.w = st.w) (holds : p.Holds inside) :
    HasToken inside st' (.owned i) :=
  h.stay pos s w (iff_of_true holds ((h.holds i).2 rfl))

/-- `s.p()` takes the free token. -/
theorem HasToken.acquire [DecidableEq ι] (h : HasToken inside st tok) {i : ι} {p : Pos C L} (free : 0 < st.s)
    (holds : p.Holds inside) : HasToken inside { st.move i p with s := st.s - 1 } (.owned i) := by
  obtain rfl := h.free_of_s free
  refine h.move rfl ?_ h.w (by simp [holds]) ?_
  · simp [h.s, Token.inS]
  · intro j hj
    simp [Ne.symm hj]

/-- `s.v()` frees the owner's token. -/
theorem HasToken.release [DecidableEq ι] {i : ι} (h : HasToken inside st (.owned i)) {p : Pos C L}
    (gone : ¬ p.Holds inside) : HasToken inside { st.move i p with s := st.s + 1 } .free := by
  refine h.move rfl ?_ h.w (by simp [gone]) ?_
  · simp [h.s, Token.inS]
  · intro j hj
    simp [Ne.symm hj]

/-- The semaphore of `c` changes, and the token's share of it with it. -/
theorem HasToken.shift (h : HasToken inside st tok) {tok' : Token ι C} {c : C} {n : Nat} (here : n = tok'.inW c)
    (elsewhere : ∀ c', c' ≠ c → tok.inW c' = tok'.inW c') (c' : C) : Function.update st.w c n c' = tok'.inW c' := by
  by_cases hc : c' = c
  · subst hc
    rw [Function.update_self, here]
  · rw [Function.update_of_ne hc, h.w, elsewhere c' hc]

/-- `w.p()` takes the token posted there. -/
theorem HasToken.take [DecidableEq ι] (h : HasToken inside st tok) {i : ι} {p : Pos C L} {c : C} (posted : 0 < st.w c)
    (holds : p.Holds inside) :
    HasToken inside { st.move i p with w := Function.update st.w c (st.w c - 1) } (.owned i) := by
  obtain rfl := h.posted_of_w posted
  refine h.move rfl h.s (h.shift ?_ ?_) (by simp [holds]) ?_
  · simp [h.w, Token.inW]
  · intro c' hc
    simp [Token.inW, Ne.symm hc]
  · intro j hj
    simp [Ne.symm hj]

/-- `w.v()` posts the owner's token. -/
theorem HasToken.post [DecidableEq ι] {i : ι} (h : HasToken inside st (.owned i)) {p : Pos C L} {c : C}
    (gone : ¬ p.Holds inside) :
    HasToken inside { st.move i p with w := Function.update st.w c (st.w c + 1) } (.posted c) := by
  refine h.move rfl h.s (h.shift ?_ ?_) (by simp [gone]) ?_
  · simp [h.w, Token.inW]
  · intro c' hc
    simp [Token.inW, Ne.symm hc]
  · intro j hj
    simp [Ne.symm hj]

end Tokens

namespace CountingOutline

variable [DecidableEq ι] [DecidableEq C] {instr : ι → L → Instr σ C L} (O : CountingOutline instr)
  {st : State ι σ C L} {tok : Token ι C} {i : ι}

omit [DecidableEq C] in
/-- A moved thread is placed where its program put it, the others where they were. -/
theorem placed_move {p : Pos C L} (h : ∀ j, (st.pos j).Placed (instr j)) (hp : p.Placed (instr i)) :
    ∀ j, (Function.update st.pos i p j).Placed (instr j) := by
  intro j
  by_cases hj : j = i
  · subst hj
    rwa [Function.update_self]
  · rw [Function.update_of_ne hj]
    exact h j

omit [DecidableEq ι] in
/-- Who stands inside the monitor has the token and knows its assertion. -/
theorem Holds.owns {p : Pos C L} (h : O.Holds st tok) (hpos : st.pos i = p) (inl : p.Holds O.inside) :
    tok = .owned i ∧ O.owner i p st.shared st.waitingCount := by
  obtain rfl : tok = .owned i := (h.token.holds i).1 (by rwa [hpos])
  have known := h.known
  rw [CountingOutline.known, hpos] at known
  exact ⟨rfl, known⟩

/-- A thread that moved to `p` and has the token. -/
theorem Holds.own {st' : State ι σ C L} {p : Pos C L} (h : O.Holds st tok) (token : HasToken O.inside st' (.owned i))
    (pos : st'.pos = Function.update st.pos i p) (known : O.owner i p st'.shared st'.waitingCount)
    (placed : p.Placed (instr i)) : O.Holds st' (.owned i) where
  token := token
  known := by
    rw [CountingOutline.known, pos, Function.update_self]
    exact known
  placed := by
    rw [pos]
    exact placed_move h.placed placed

/-- **One step keeps the outline**: the token moves with the semaphore operation, and the
client's condition for the instruction carries the assertion. -/
theorem Holds.step {st' : State ι σ C L} (h : O.Holds st tok) (step : Step instr st i st') :
    ∃ tok', O.Holds st' tok' := by
  have placed := h.placed i
  cases step with
  | @enter l next hpos hi hs =>
    obtain ⟨-, inn, ann⟩ := O.enter hi
    obtain rfl := h.token.free_of_s hs
    exact ⟨.owned i, h.own O (h.token.acquire hs inn) rfl (ann h.known) trivial⟩
  | @leave l next hpos hi =>
    obtain ⟨inl, outn, ann⟩ := O.leave hi
    obtain ⟨rfl, known⟩ := h.owns O hpos inl
    exact ⟨.free, h.token.release outn, ann known, placed_move h.placed trivial⟩
  | @waitInc l c next hpos hi =>
    obtain ⟨inl, -, ann, -⟩ := O.wait hi
    obtain ⟨rfl, known⟩ := h.owns O hpos inl
    exact ⟨.owned i, h.own O (h.token.keep rfl rfl rfl trivial) rfl (ann known) ⟨l, hi⟩⟩
  | @waitLeave c next hpos =>
    obtain ⟨rfl, known⟩ := h.owns O hpos trivial
    rw [hpos] at placed
    exact ⟨.free, h.token.release id, known, placed_move h.placed placed⟩
  | @waitP c next hpos hw =>
    rw [hpos] at placed
    obtain ⟨l, hl⟩ := placed
    obtain ⟨-, inn, -, ann⟩ := O.wait hl
    obtain rfl := h.token.posted_of_w hw
    exact ⟨.owned i, h.own O (h.token.take hw inn) rfl (ann h.known) trivial⟩
  | @signalNone l c next hpos hi hc =>
    obtain ⟨inl, inn, -, ann, -⟩ := O.signal hi
    obtain ⟨rfl, known⟩ := h.owns O hpos inl
    exact ⟨.owned i, h.own O (h.token.keep rfl rfl rfl inn) rfl (ann known hc) trivial⟩
  | @signalSome l c next hpos hi hc =>
    obtain ⟨inl, -, ann, -⟩ := O.signal hi
    obtain ⟨rfl, known⟩ := h.owns O hpos inl
    exact ⟨.owned i, h.own O (h.token.keep rfl rfl rfl trivial) rfl (ann known hc) ⟨l, hi⟩⟩
  | @signalDec c next hpos =>
    obtain ⟨rfl, known⟩ := h.owns O hpos trivial
    rw [hpos] at placed
    exact ⟨.owned i, h.own O (h.token.keep rfl rfl rfl trivial) rfl known placed⟩
  | @signalV c next hpos =>
    obtain ⟨rfl, known⟩ := h.owns O hpos trivial
    rw [hpos] at placed
    obtain ⟨l, hl⟩ := placed
    exact ⟨.posted c, h.token.post id, known, placed_move h.placed ⟨l, c, hl⟩⟩
  | @signalEnter next hpos hs =>
    rw [hpos] at placed
    obtain ⟨l, c, hl⟩ := placed
    obtain ⟨-, inn, -, -, ann⟩ := O.signal hl
    obtain rfl := h.token.free_of_s hs
    exact ⟨.owned i, h.own O (h.token.acquire hs inn) rfl (ann h.known) trivial⟩
  | @access l effect shared next hpos hi he =>
    obtain ⟨inl, ann⟩ := O.access hi
    obtain ⟨rfl, known⟩ := h.owns O hpos inl
    obtain ⟨inn, after⟩ := ann known he
    exact ⟨.owned i, h.own O (h.token.keep rfl rfl rfl inn) rfl after trivial⟩
  | @pause l nexts next hpos hi hn =>
    obtain ⟨same, ann⟩ := O.pause hi hn
    refine ⟨tok, h.token.stay rfl rfl rfl (by rw [hpos]; exact same.symm), ?_, placed_move h.placed trivial⟩
    have known := h.known
    cases tok with
    | free => exact known
    | posted c => exact known
    | owned j =>
      by_cases hj : j = i
      · subst hj
        have inl := (h.token.holds j).2 rfl
        rw [hpos] at inl
        rw [CountingOutline.known, hpos] at known
        simpa [CountingOutline.known, owner] using ann inl known
      · simpa [CountingOutline.known, State.move_pos_ne _ _ _ hj] using known

omit [DecidableEq ι] in
/-- Before any step the monitor is free. -/
theorem Holds.initial {shared : σ} {start : ι → L} (outside : ∀ i, ¬ O.inside (start i))
    (free : O.free shared fun _ => 0) : O.Holds (State.initial shared start) .free where
  token := ⟨rfl, fun _ => rfl, fun i => by simp [State.initial, Pos.Holds, outside i]⟩
  known := free
  placed _ := trivial

theorem Annotated.step {st' : State ι σ C L} (h : O.Annotated st) (step : Step instr st i st') :
    O.Annotated st' :=
  let ⟨_, h⟩ := h
  h.step O step

/-- **The monitor rule**, with waiting counts. -/
theorem sound {shared : σ} {start : ι → L} (outside : ∀ i, ¬ O.inside (start i))
    (free : O.free shared fun _ => 0) (reached : Reaches instr (State.initial shared start) st) :
    ∃ tok, O.Holds st tok := by
  obtain ⟨schedule, run⟩ := reached
  have init : O.Annotated (State.initial shared start) := ⟨.free, Holds.initial O outside free⟩
  have kept : O.Annotated st := run.invariant (Annotated.step O) init
  exact kept

end CountingOutline

namespace Outline

variable [DecidableEq ι] [DecidableEq C] {instr : ι → L → Instr σ C L} (O : Outline instr)
  {st : State ι σ C L} {tok : Token ι C} {i : ι}

omit [DecidableEq ι] in
/-- An outline that does not speak of the waiting counts. -/
def counting : CountingOutline instr where
  inside := O.inside
  free sh _ := O.free sh
  signalled c sh _ := O.signalled c sh
  at' i l sh _ := O.at' i l sh
  enter h :=
    let ⟨out, inn, ann⟩ := O.enter h
    ⟨out, inn, ann⟩
  leave h :=
    let ⟨inl, out, ann⟩ := O.leave h
    ⟨inl, out, ann⟩
  wait h :=
    let ⟨inl, inn, ann, back⟩ := O.wait h
    ⟨inl, inn, ann, back⟩
  signal h :=
    let ⟨inl, inn, left, stays, back⟩ := O.signal h
    ⟨inl, inn, fun known _ => left known, fun known _ => stays known, back⟩
  access h :=
    let ⟨inl, ann⟩ := O.access h
    ⟨inl, ann⟩
  pause h hn :=
    let ⟨same, ann⟩ := O.pause h hn
    ⟨same, ann⟩

omit [DecidableEq ι] in
theorem holds_iff : O.Holds st tok ↔ O.counting.Holds st tok := by
  have same : O.known st tok ↔ O.counting.known st tok := by
    cases tok with
    | free | posted c => exact Iff.rfl
    | owned i =>
      show O.owner i (st.pos i) st.shared ↔ O.counting.owner i (st.pos i) st.shared st.waitingCount
      cases st.pos i <;> exact Iff.rfl
  exact ⟨fun h => ⟨h.token, same.1 h.known, h.placed⟩, fun h => ⟨h.token, same.2 h.known, h.placed⟩⟩

/-- The outline holds, with the token somewhere. -/
def Annotated (st : State ι σ C L) : Prop := ∃ tok, O.Holds st tok

omit [DecidableEq ι] in
theorem Annotated.of_counting (h : O.counting.Annotated st) : O.Annotated st :=
  let ⟨tok, holds⟩ := h
  ⟨tok, O.holds_iff.2 holds⟩

/-- **The monitor rule.** Threads that start outside the monitor, on shared variables that meet
the outline's `free` assertion, keep the outline in every state of every interleaving. -/
theorem sound {shared : σ} {start : ι → L} (outside : ∀ i, ¬ O.inside (start i))
    (free : O.free shared) (reached : Reaches instr (State.initial shared start) st) :
    ∃ tok, O.Holds st tok := by
  have counting : O.counting.Annotated st := O.counting.sound outside free reached
  exact Annotated.of_counting O counting

end Outline

end SoiExercises.Monitor
