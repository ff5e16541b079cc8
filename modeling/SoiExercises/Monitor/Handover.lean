import Mathlib.Data.Set.Card
import SoiExercises.Monitor.Fifo
import SoiExercises.Monitor.Waiting

/-!
# Handing over the monitor

A client keeps to the monitor if its threads touch the shared variables, wait and signal only between `enter` and
`leave` (`Bracketed`). For every such client there is one token in every state, and a signal passes it to the thread
that it wakes: from the call of `signal(c)` to the return of `wait(c)` no other thread is inside (`Matched`), so the
woken thread finds the shared variables as they were.
-/

namespace SoiExercises.Monitor

open SoiExercises.Lib

variable {ι σ C L : Type}

/-- The threads of `instr` are inside the monitor at the labels `inside`: they come in by `enter` and out by `leave`,
and touch the shared variables, wait and signal in between only. -/
structure Bracketed (instr : ι → L → Instr σ C L) (inside : L → Prop) : Prop where
  enter : ∀ {i l next}, instr i l = .enter next → inside next
  leave : ∀ {i l next}, instr i l = .leave next → inside l ∧ ¬ inside next
  wait : ∀ {i l c next}, instr i l = .wait c next → inside l ∧ inside next
  signal : ∀ {i l c next}, instr i l = .signal c next → inside l ∧ inside next
  access : ∀ {i l effect}, instr i l = .access effect → inside l ∧ ∀ {sh sh' next}, effect sh sh' next → inside next
  pause : ∀ {i l nexts next}, instr i l = .pause nexts → nexts next → (inside l ↔ inside next)

/-- The token is at `tok`, and the threads inside `monitor.h` are where their program has put them. -/
structure Guards [DecidableEq C] (instr : ι → L → Instr σ C L) (inside : L → Prop) (st : State ι σ C L)
    (tok : Token ι C) : Prop where
  token : HasToken inside st tok
  placed : ∀ i, (st.pos i).Placed (instr i)

section Token

variable [DecidableEq ι] [DecidableEq C] {instr : ι → L → Instr σ C L} {inside : L → Prop} {st st' : State ι σ C L}
  {tok : Token ι C} {i : ι}

omit [DecidableEq ι] in
theorem Guards.owns {p : Pos C L} (h : Guards instr inside st tok) (pos : st.pos i = p) (holds : p.Holds inside) :
    tok = .owned i := (h.token.holds i).1 (by rwa [pos])

/-- **One step moves the token** with the semaphore operation. -/
theorem Guards.step (client : Bracketed instr inside) (h : Guards instr inside st tok) (step : Step instr st i st') :
    ∃ tok', Guards instr inside st' tok' := by
  have placed := h.placed i
  have moved : ∀ {p : Pos C L}, p.Placed (instr i) → ∀ j, (Function.update st.pos i p j).Placed (instr j) :=
    CountingOutline.placed_move h.placed
  cases step with
  | @enter l next hpos hi hs => exact ⟨.owned i, h.token.acquire hs (client.enter hi), moved trivial⟩
  | @leave l next hpos hi =>
    obtain ⟨inl, outn⟩ := client.leave hi
    obtain rfl := h.owns hpos inl
    exact ⟨.free, h.token.release outn, moved trivial⟩
  | @waitInc l c next hpos hi =>
    obtain rfl := h.owns hpos (client.wait hi).1
    exact ⟨.owned i, h.token.keep rfl rfl rfl trivial, moved ⟨l, hi⟩⟩
  | @waitLeave c next hpos =>
    obtain rfl := h.owns hpos trivial
    rw [hpos] at placed
    exact ⟨.free, h.token.release id, moved placed⟩
  | @waitP c next hpos hw =>
    rw [hpos] at placed
    obtain ⟨l, hl⟩ := placed
    exact ⟨.owned i, h.token.take hw (client.wait hl).2, moved trivial⟩
  | @signalNone l c next hpos hi hc =>
    obtain ⟨inl, inn⟩ := client.signal hi
    obtain rfl := h.owns hpos inl
    exact ⟨.owned i, h.token.keep rfl rfl rfl inn, moved trivial⟩
  | @signalSome l c next hpos hi hc =>
    obtain rfl := h.owns hpos (client.signal hi).1
    exact ⟨.owned i, h.token.keep rfl rfl rfl trivial, moved ⟨l, hi⟩⟩
  | @signalDec c next hpos =>
    obtain rfl := h.owns hpos trivial
    rw [hpos] at placed
    exact ⟨.owned i, h.token.keep rfl rfl rfl trivial, moved placed⟩
  | @signalV c next hpos =>
    obtain rfl := h.owns hpos trivial
    rw [hpos] at placed
    obtain ⟨l, hl⟩ := placed
    exact ⟨.posted c, h.token.post id, moved ⟨l, c, hl⟩⟩
  | @signalEnter next hpos hs =>
    rw [hpos] at placed
    obtain ⟨l, c, hl⟩ := placed
    exact ⟨.owned i, h.token.acquire hs (client.signal hl).2, moved trivial⟩
  | @access l effect shared next hpos hi he =>
    obtain ⟨inl, inn⟩ := client.access hi
    obtain rfl := h.owns hpos inl
    exact ⟨.owned i, h.token.keep rfl rfl rfl (inn he), moved trivial⟩
  | @pause l nexts next hpos hi hn =>
    have same := client.pause hi hn
    exact ⟨tok, h.token.stay rfl rfl rfl (by rw [hpos]; exact same.symm), moved trivial⟩

omit [DecidableEq ι] in
theorem Guards.initial {shared : σ} {start : ι → L} (outside : ∀ i, ¬ inside (start i)) :
    Guards instr inside (State.initial shared start) .free where
  token := ⟨rfl, fun _ => rfl, fun i => by simp [State.initial, Pos.Holds, outside i]⟩
  placed _ := trivial

/-- **While the monitor is taken**, a thread that does not own it stays outside, or is the one that has been woken. -/
theorem Guards.bystander (client : Bracketed instr inside) (h : Guards instr inside st tok) (taken : tok ≠ .free)
    (other : tok ≠ .owned i) (step : Step instr st i st') :
    (∃ l next, st.pos i = .at l ∧ ¬ inside next ∧ st' = st.move i (.at next)) ∨
      ∃ c next, st.pos i = .waitP c next ∧ tok = .posted c ∧
        st' = { st.move i (.at next) with w := Function.update st.w c (st.w c - 1) } := by
  cases step with
  | enter _ _ hs | signalEnter _ hs => exact absurd (h.token.free_of_s hs) taken
  | leave hpos hi => exact absurd (h.owns hpos (client.leave hi).1) other
  | waitInc hpos hi => exact absurd (h.owns hpos (client.wait hi).1) other
  | signalNone hpos hi | signalSome hpos hi => exact absurd (h.owns hpos (client.signal hi).1) other
  | access hpos hi he => exact absurd (h.owns hpos (client.access hi).1) other
  | waitLeave hpos | signalDec hpos | signalV hpos => exact absurd (h.owns hpos trivial) other
  | @waitP c next hpos hw =>
    exact .inr ⟨c, next, hpos, h.token.posted_of_w hw, rfl⟩
  | @pause l nexts next hpos hi hn =>
    exact .inl ⟨l, next, hpos, fun inn => other (h.owns hpos ((client.pause hi hn).2 inn)), rfl⟩

end Token

/-- Thread `i` is in `signal(c)`, on its way to `w.v()` or past it with nobody woken yet. -/
def Passing (i : ι) (c : C) (st : State ι σ C L) : Prop :=
  (∃ next, st.pos i = .signalDec c next ∨ st.pos i = .signalV c next) ∨
    (st.w c = 1 ∧ ∃ next, st.pos i = .signalEnter next)

/-- The monitor is on its way from thread `i` to a thread that waits on `c`: the shared variables are as they were in
`sig`, and no other thread is inside. -/
structure Handing (inside : L → Prop) (i : ι) (c : C) (sig st : State ι σ C L) : Prop where
  shared : st.shared = sig.shared
  others : ∀ k, k ≠ i → ¬ (st.pos k).Holds inside
  passing : Passing i c st

/-- What the step of thread `i` from inside an operation of `monitor.h` does. -/
def Continues [DecidableEq ι] [DecidableEq C] (st : State ι σ C L) (i : ι) (st' : State ι σ C L) : Pos C L → Prop
  | .at _ => True
  | .waitLeave c next => st' = { st.move i (.waitP c next) with s := st.s + 1 }
  | .waitP c next => 0 < st.w c ∧ st' = { st.move i (.at next) with w := Function.update st.w c (st.w c - 1) }
  | .signalDec c next => st' = { st.move i (.signalV c next) with
      waitingCount := Function.update st.waitingCount c (st.waitingCount c - 1) }
  | .signalV c next => st' = { st.move i (.signalEnter next) with w := Function.update st.w c (st.w c + 1) }
  | .signalEnter next => 0 < st.s ∧ st' = { st.move i (.at next) with s := st.s - 1 }

section Handing

variable [DecidableEq ι] [DecidableEq C] {instr : ι → L → Instr σ C L} {inside : L → Prop} {st st' sig : State ι σ C L}
  {tok : Token ι C} {i k : ι} {c : C} {next : L}

/-- A thread inside an operation of `monitor.h` has one step to take. -/
theorem Step.continues (step : Step instr st i st') : Continues st i st' (st.pos i) := by
  cases step with
  | waitP hpos enabled | signalEnter hpos enabled =>
    rw [hpos]
    exact ⟨enabled, rfl⟩
  | waitLeave hpos | signalDec hpos | signalV hpos =>
    rw [hpos]
    rfl
  | enter hpos | leave hpos | waitInc hpos | signalNone hpos | signalSome hpos | access hpos | pause hpos =>
    rw [hpos]
    trivial

omit [DecidableEq C] in
/-- The thread that moves changes nothing for the others. -/
theorem Handing.stay {p : Pos C L} (h : Handing inside i c sig st) (pos : st'.pos = Function.update st.pos k p)
    (shared : st'.shared = st.shared) (gone : k ≠ i → ¬ p.Holds inside) (passing : Passing i c st') :
    Handing inside i c sig st' where
  shared := shared.trans h.shared
  others j ne := by
    rw [pos]
    by_cases mover : j = k
    · subst mover
      rw [Function.update_self]
      exact gone ne
    · rw [Function.update_of_ne mover]
      exact h.others j ne
  passing := passing

omit [DecidableEq ι] in
/-- The token is with the signaller or in the semaphore. -/
theorem Handing.token (h : Handing inside i c sig st) (guards : Guards instr inside st tok) :
    tok = .owned i ∨ tok = .posted c := by
  rcases h.passing with ⟨next, dec | v⟩ | ⟨posted, -⟩
  · exact .inl (guards.owns dec trivial)
  · exact .inl (guards.owns v trivial)
  · exact .inr (guards.token.posted_of_w (by omega))

/-- The signaller goes on to `w.v()`, and leaves the monitor to the thread that it wakes. -/
theorem Handing.signaller (h : Handing inside i c sig st) (guards : Guards instr inside st (.owned i))
    (step : Step instr st i st') : Handing inside i c sig st' := by
  have none : st.w c = 0 := guards.token.w c
  have continues := step.continues
  rcases h.passing with ⟨next, dec | v⟩ | ⟨posted, -⟩
  · rw [dec] at continues
    obtain rfl := continues
    exact h.stay rfl rfl (absurd rfl) (.inl ⟨next, .inr (State.move_pos_self ..)⟩)
  · rw [v] at continues
    obtain rfl := continues
    refine h.stay rfl rfl (absurd rfl) (.inr ⟨?_, next, State.move_pos_self ..⟩)
    simp [none]
  · omega

omit [DecidableEq C] in
theorem Passing.move {p : Pos C L} (h : Passing i c st) (ne : i ≠ k) : Passing i c (st.move k p) := by
  unfold Passing
  rwa [State.move_pos_ne _ _ _ ne]

/-- **A hand-over goes on** until a thread returns from `wait(c)`. -/
theorem Handing.step (client : Bracketed instr inside) (h : Handing inside i c sig st)
    (guards : Guards instr inside st tok) (step : Step instr st k st') :
    Handing inside i c sig st' ∨ tok = .posted c ∧ ∃ next, st.pos k = .waitP c next ∧
      st' = { st.move k (.at next) with w := Function.update st.w c (st.w c - 1) } := by
  by_cases mine : tok = .owned k
  · subst mine
    obtain rfl : k = i := by simpa using h.token guards
    exact .inl (h.signaller guards step)
  · have taken : tok ≠ .free := by
      rintro rfl
      simpa using h.token guards
    rcases guards.bystander client taken mine step with ⟨l, next, pos, out, rfl⟩ | ⟨c', next, pos, rfl, rfl⟩
    · have ne : i ≠ k := by
        rintro rfl
        simpa [Passing, pos] using h.passing
      exact .inl (h.stay rfl rfl (fun _ => out) (h.passing.move ne))
    · obtain rfl : c' = c := by simpa using h.token guards
      exact .inr ⟨rfl, next, pos, rfl⟩

end Handing

/-- Thread `i` has called `signal(c)` in the state `sig` of the run `es` to `st`, somebody waited then, and from there
to `st` it has been handing the monitor over. -/
structure Matched [DecidableEq ι] [DecidableEq C] (instr : ι → L → Instr σ C L) (inside : L → Prop)
    (init : State ι σ C L) (es : List (ι × State ι σ C L)) (st : State ι σ C L) (i : ι) (c : C)
    (sig : State ι σ C L) : Prop where
  calls : ∃ l next, sig.pos i = .at l ∧ instr i l = .signal c next ∧ sig.waitingCount c ≠ 0
  alone : ∀ k, k ≠ i → ¬ (sig.pos k).Holds inside
  split : ∃ before between, es = before ++ between ∧ Run (Traced (Step instr)) init before sig ∧
    Run (Traced (Step instr)) sig between st ∧ ∀ e ∈ between, Handing inside i c sig e.2
  now : Handing inside i c sig st

/-- Somebody has called `signal(c)` and nobody has been woken yet. -/
def Signalled (c : C) (st : State ι σ C L) : Prop :=
  (∃ i next, st.pos i = .signalDec c next ∨ st.pos i = .signalV c next) ∨ st.w c ≠ 0

section Runs

variable [DecidableEq ι] [DecidableEq C] {instr : ι → L → Instr σ C L} {inside : L → Prop}
  {init st st' sig : State ι σ C L} {es : List (ι × State ι σ C L)} {tok : Token ι C} {i k : ι} {c : C}

theorem Matched.extend (h : Matched instr inside init es st i c sig) (step : Step instr st k st')
    (handing : Handing inside i c sig st') : Matched instr inside init (es ++ [(k, st')]) st' i c sig where
  calls := h.calls
  alone := h.alone
  split := by
    obtain ⟨before, between, rfl, called, rest, along⟩ := h.split
    refine ⟨before, between ++ [(k, st')], List.append_assoc .., called, rest.trace step, fun e mem => ?_⟩
    rcases List.mem_append.1 mem with old | new
    · exact along e old
    · rw [List.mem_singleton.1 new]
      exact handing
  now := handing

/-- A call of `signal(c)` that finds somebody waiting begins a hand-over. -/
theorem Matched.begin {l next : L} (client : Bracketed instr inside) (guards : Guards instr inside st tok)
    (run : Run (Traced (Step instr)) init es st) (pos : st.pos i = .at l) (does : instr i l = .signal c next)
    (some : st.waitingCount c ≠ 0) :
    Matched instr inside init (es ++ [(i, st.move i (.signalDec c next))]) (st.move i (.signalDec c next)) i c st := by
  have owned := guards.owns pos (client.signal does).1
  have alone : ∀ k, k ≠ i → ¬ (st.pos k).Holds inside := fun k ne holds =>
    ne (Token.owned.inj ((guards.token.holds k).1 holds ▸ owned))
  have handing : Handing inside i c st (st.move i (.signalDec c next)) := by
    refine ⟨rfl, fun k ne => ?_, .inl ⟨next, .inl (State.move_pos_self ..)⟩⟩
    rw [State.move_pos_ne _ _ _ ne]
    exact alone k ne
  refine ⟨⟨l, next, pos, does, some⟩, alone, ⟨es, [_], rfl, run, .single ⟨.signalSome pos does some, rfl⟩, ?_⟩, handing⟩
  intro e mem
  rw [List.mem_singleton.1 mem]
  exact handing

omit [DecidableEq C] in
/-- A step that neither calls nor posts a signal of `c`. -/
theorem Signalled.stay {p : Pos C L} (h : Signalled c st') (pos : st'.pos = Function.update st.pos k p)
    (w : st'.w c ≤ st.w c) (outside : ∀ next, p ≠ .signalDec c next ∧ p ≠ .signalV c next) : Signalled c st := by
  rcases h with ⟨i, next, signals⟩ | posted
  · rw [pos] at signals
    by_cases mover : i = k
    · subst mover
      rw [Function.update_self] at signals
      exact (signals.elim (outside next).1 (outside next).2).elim
    · rw [Function.update_of_ne mover] at signals
      exact .inl ⟨i, next, signals⟩
  · exact .inr (by omega)

/-- A signal of `c` is new by a call of `signal(c)` only. -/
theorem Signalled.before (h : Signalled c st') (step : Step instr st k st') :
    Signalled c st ∨ ∃ l next, st.pos k = .at l ∧ instr k l = .signal c next ∧ st.waitingCount c ≠ 0 ∧
      st' = st.move k (.signalDec c next) := by
  cases step with
  | enter | leave | waitInc | waitLeave | signalNone | signalEnter | access | pause =>
    exact .inl (h.stay rfl (le_refl _) fun _ => ⟨nofun, nofun⟩)
  | @waitP c' next hpos hw =>
    refine .inl (h.stay rfl ?_ fun _ => ⟨nofun, nofun⟩)
    by_cases same : c = c'
    · subst same
      simp
    · simp [Function.update_of_ne same]
  | @signalSome l c' next hpos hi hc =>
    by_cases same : c' = c
    · subst same
      exact .inr ⟨l, next, hpos, hi, hc, rfl⟩
    · exact .inl (h.stay rfl (le_refl _) fun next => ⟨by simp [same], nofun⟩)
  | @signalDec c' next hpos =>
    by_cases same : c' = c
    · subst same
      exact .inl (.inl ⟨k, next, .inl hpos⟩)
    · exact .inl (h.stay rfl (le_refl _) fun next => ⟨nofun, by simp [same]⟩)
  | @signalV c' next hpos =>
    by_cases same : c' = c
    · subst same
      exact .inl (.inl ⟨k, next, .inr hpos⟩)
    · refine .inl (h.stay rfl ?_ fun _ => ⟨nofun, nofun⟩)
      simp [Function.update_of_ne (Ne.symm same)]

/-- The thread that is woken is the last one that the signal of `c` was for. -/
theorem Signalled.woken {next : L} (guards : Guards instr inside st (.posted c)) :
    ¬ Signalled c { st.move k (.at next) with w := Function.update st.w c (st.w c - 1) } := by
  rintro (⟨i, next', signals⟩ | posted)
  · by_cases mover : i = k
    · subst mover
      simp [State.move] at signals
    · have holds : (st.pos i).Holds inside := by
        simp only [State.move_pos_ne _ _ _ mover] at signals
        rcases signals with dec | v
        · rw [dec]
          trivial
        · rw [v]
          trivial
      simpa using (guards.token.holds i).1 holds
  · have one : st.w c = 1 := (guards.token.w c).trans (if_pos rfl)
    simp [one] at posted

/-- Every signal that has not woken anybody yet is matched by its call. -/
def Pending (instr : ι → L → Instr σ C L) (inside : L → Prop) (init : State ι σ C L) (es : List (ι × State ι σ C L))
    (st : State ι σ C L) : Prop :=
  ∀ c, Signalled c st → ∃ i sig, Matched instr inside init es st i c sig

theorem Pending.step (h : Pending instr inside init es st) (client : Bracketed instr inside)
    (guards : Guards instr inside st tok) (run : Run (Traced (Step instr)) init es st)
    (step : Step instr st k st') : Pending instr inside init (es ++ [(k, st')]) st' := by
  intro c signalled
  rcases signalled.before step with before | ⟨l, next, pos, does, some, rfl⟩
  · obtain ⟨i, sig, matched⟩ := h c before
    rcases matched.now.step client guards step with handing | ⟨rfl, next, -, rfl⟩
    · exact ⟨i, sig, matched.extend step handing⟩
    · exact absurd signalled (Signalled.woken guards)
  · exact ⟨k, st, .begin client guards run pos does some⟩

end Runs

section Counts

variable [DecidableEq C] {inside : L → Prop} {st : State ι σ C L} {tok : Token ι C}

/-- **The semaphores and the owners share one token.** -/
theorem HasToken.conserved [Fintype C] (h : HasToken inside st tok) :
    st.s + ∑ c, st.w c + {i | (st.pos i).Holds inside}.ncard = 1 := by
  have owners : {i | (st.pos i).Holds inside} = {i | tok = .owned i} := Set.ext h.holds
  simp only [h.s, h.w, owners]
  cases tok with
  | free => simp [Token.inS, Token.inW]
  | posted c => simp [Token.inS, Token.inW]
  | owned i => simp [Token.inS, Token.inW]

/-- Between the changes of the waiting counts, the threads at the semaphore of `c` are counted or have been posted. -/
theorem Counted.settled [Fintype ι] (h : Counted st)
    (between : ∀ i c next, st.pos i ≠ .waitLeave c next ∧ st.pos i ≠ .signalV c next) (c : C) :
    ({i | ∃ next, st.pos i = .waitP c next}.ncard : Int) = st.waitingCount c + st.w c := by
  classical
  have counted := h c
  have nobody_signals : tally (Pos.signalling c) st.pos = 0 := by
    rw [tally_eq_zero]
    intro i
    cases pos : st.pos i with
    | signalV c' next => exact absurd pos (between i c' next).2
    | «at» _ | waitLeave _ _ | waitP _ _ | signalDec _ _ | signalEnter _ => rfl
  have waiters : tally (Pos.waiting c) st.pos = {i | ∃ next, st.pos i = .waitP c next}.ncard := by
    have weights : ∀ i, (st.pos i).waiting c = if ∃ next, st.pos i = .waitP c next then 1 else 0 := by
      intro i
      cases pos : st.pos i with
      | waitLeave c' next => exact absurd pos (between i c' next).1
      | waitP c' next => simp [Pos.waiting]
      | «at» _ | signalDec _ _ | signalV _ _ | signalEnter _ => simp [Pos.waiting]
    calc tally (Pos.waiting c) st.pos
      _ = ∑ i, if ∃ next, st.pos i = .waitP c next then 1 else 0 := Finset.sum_congr rfl fun i _ => weights i
      _ = (Finset.univ.filter fun i => ∃ next, st.pos i = .waitP c next).card := (Finset.card_filter _ _).symm
      _ = {i | ∃ next, st.pos i = .waitP c next}.ncard := by rw [← Set.ncard_coe_finset, Finset.coe_filter_univ]
  omega

end Counts

/-- What the callers of `wait` rely on. There is one token; the waiting counts and the posted signals are the threads
at the condition's semaphore; and `wait(c)` returns to the shared variables of the matching `signal(c)`, with nobody
else inside in between. -/
structure HandsOver [DecidableEq ι] [Fintype C] [DecidableEq C] (instr : ι → L → Instr σ C L) (inside : L → Prop)
    (init : State ι σ C L) (es : List (ι × State ι σ C L)) (st : State ι σ C L) : Prop where
  token : st.s + ∑ c, st.w c + {i | (st.pos i).Holds inside}.ncard = 1
  counts : (∀ i c next, st.pos i ≠ .waitLeave c next ∧ st.pos i ≠ .signalV c next) →
    ∀ c, ({i | ∃ next, st.pos i = .waitP c next}.ncard : Int) = st.waitingCount c + st.w c
  handover : ∀ j c next st', st.pos j = .waitP c next → Step instr st j st' →
    ∃ i sig, Matched instr inside init es st i c sig ∧ st'.shared = sig.shared

section Clients

variable [Fintype ι] [DecidableEq ι] [DecidableEq C] {instr : ι → L → Instr σ C L} {inside : L → Prop}
  {init st st' : State ι σ C L} {es : List (ι × State ι σ C L)} {i : ι} {shared : σ} {start : ι → L}

/-- What is carried along a run. -/
structure Carried (instr : ι → L → Instr σ C L) (inside : L → Prop) (init : State ι σ C L)
    (es : List (ι × State ι σ C L)) (st : State ι σ C L) : Prop where
  run : Run (Traced (Step instr)) init es st
  guards : ∃ tok, Guards instr inside st tok
  counted : Counted st
  pending : Pending instr inside init es st

theorem Carried.step (client : Bracketed instr inside) (h : Carried instr inside init es st)
    (step : Step instr st i st') : Carried instr inside init (es ++ [(i, st')]) st' := by
  obtain ⟨tok, guards⟩ := h.guards
  exact ⟨h.run.trace step, guards.step client step, h.counted.step step, h.pending.step client guards h.run step⟩

theorem Carried.initial (outside : ∀ i, ¬ inside (start i)) :
    Carried instr inside (State.initial shared start) [] (State.initial shared start) where
  run := .nil _
  guards := ⟨.free, Guards.initial outside⟩
  counted := Counted.initial
  pending := by
    rintro c (⟨i, next, signals⟩ | posted)
    · simp [State.initial] at signals
    · exact absurd rfl posted

/-- **`signal` hands the monitor over**, for every client that keeps to it and every interleaving. -/
theorem signal_hands_over [Fintype C] (client : Bracketed instr inside) (outside : ∀ i, ¬ inside (start i))
    (run : Run (Traced (Step instr)) (State.initial shared start) es st) :
    HandsOver instr inside (State.initial shared start) es st := by
  have carried : Carried instr inside (State.initial shared start) es st := by
    induction run with
    | nil => exact .initial outside
    | snoc _ last ih =>
      obtain ⟨step, traced⟩ := last
      obtain ⟨i, st'⟩ := ‹ι × State ι σ C L›
      subst traced
      exact ih.step client step
  obtain ⟨tok, guards⟩ := carried.guards
  refine ⟨guards.token.conserved, fun between c => carried.counted.settled between c, ?_⟩
  intro j c next st' waits step
  have continues := step.continues
  rw [waits] at continues
  obtain ⟨posted, rfl⟩ := continues
  obtain ⟨i, sig, matched⟩ := carried.pending c (.inr (Nat.ne_of_gt posted))
  exact ⟨i, sig, matched, matched.now.shared⟩

end Clients

/-- A client with an outline keeps to the monitor where its statements on the shared variables stay inside. -/
theorem Outline.bracketed {instr : ι → L → Instr σ C L} (O : Outline instr)
    (access : ∀ {i l effect sh sh' next}, instr i l = .access effect → effect sh sh' next → O.inside next) :
    Bracketed instr O.inside where
  enter h := (O.enter h).2.1
  leave h := ⟨(O.leave h).1, (O.leave h).2.1⟩
  wait h := ⟨(O.wait h).1, (O.wait h).2.1⟩
  signal h := ⟨(O.signal h).1, (O.signal h).2.1⟩
  access h := ⟨(O.access h).1, access h⟩
  pause h goes := (O.pause h goes).1

/-- `produce` and `consume` keep to the monitor. -/
theorem code_bracketed (id : Int) (size : Nat) (calls : ι → Operation → Prop) :
    Bracketed (code id size calls) Label.inside := by
  refine (outline id size calls).bracketed ?_
  intro i l effect sh sh' next h step
  cases l <;> simp only [code, run, reduceCtorEq, Instr.access.injEq] at h
  all_goals
    subst h
    obtain ⟨-, rfl⟩ := Prod.mk.inj step
  case produceTest | consumeTest =>
    split
    all_goals trivial
  all_goals trivial

instance : Fintype Condition where
  elems := {.empty, .full}
  complete c := by cases c <;> simp

/-- A consumer waits on an empty slot, and a producer fills the slot and signals. -/
theorem signal_hands_over_item : ∃ es st,
    HandsOver (code 1 1 fun (i : Bool) op => op = if i then .produce else .consume) Label.inside start es st ∧
      st.pos false = .waitP .empty .consumeFetch ∧ st.pos true = .signalEnter .produceLeave ∧ st.w .empty = 1 := by
  let client := code 1 1 fun (i : Bool) op => op = if i then Operation.produce else .consume
  have idle : Run (Traced (Step client)) start [] start := .nil _
  have waits := ((((idle.trace (.pause (i := false) rfl rfl (.inr ⟨rfl, rfl⟩))).trace
    (.enter (i := false) rfl rfl Nat.one_pos)).trace (.access (i := false) rfl rfl rfl)).trace
    (.waitInc (i := false) rfl rfl)).trace (.waitLeave (i := false) rfl)
  have stores := ((((waits.trace (.pause (i := true) rfl rfl (.inl ⟨rfl, rfl⟩))).trace
    (.enter (i := true) rfl rfl Nat.one_pos)).trace (.access (i := true) rfl rfl rfl)).trace
    (.pause (i := true) rfl rfl ⟨10, by unfold MakeProduct; decide, rfl⟩)).trace (.access (i := true) rfl rfl rfl)
  have counts := ((stores.trace (.access (i := true) rfl rfl rfl)).trace (.access (i := true) rfl rfl rfl)).trace
    (.access (i := true) rfl rfl rfl)
  have signals := ((counts.trace (.signalSome (i := true) rfl rfl (by decide))).trace
    (.signalDec (i := true) rfl)).trace (.signalV (i := true) rfl)
  exact ⟨_, _, signal_hands_over (code_bracketed 1 1 _) (fun _ => id) signals, rfl, rfl, rfl⟩

end SoiExercises.Monitor
