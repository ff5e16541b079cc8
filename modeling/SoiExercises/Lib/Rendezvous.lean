import SoiExercises.Lib.Run

/-!
# Synchronous messages with queues of senders

Parties send messages to each other and wait for each other. A message passes at once to a party that
waits for it (`hand`); otherwise its sender is blocked and joins the queue of the receiver (`post`). A
receiver takes the first message of its queue that it accepts (`take`), and waits when there is none
(`wait`). What a waiting party accepts is given by a `σ`, a source or a pattern of sources. Parties come
and go: one that is gone no longer waits (`forget`) and its message leaves the queue (`withdraw`), and a
new one has nobody in its queue (`enter`).

Every message that one party sends to another arrives once, in the order of sending, or is withdrawn, or is
still queued (`Post.conserved`), and a party never waits for a message that is in its queue
(`Post.Attentive.run`).
-/

namespace SoiExercises.Lib

variable {ι σ α : Type*}

/-- Who is queued where with which message, what the parties wait for, and what they received last; a
party that is queued has its own message in place of the last one. -/
structure Post (ι σ α : Type*) where
  queue : ι → List (ι × α)
  waiting : ι → Option σ
  inbox : ι → Option (ι × α)

/-- What happens to a message from `k` to `d`. -/
inductive Move (ι α : Type*) where
  | post (k d : ι) (a : α)
  | hand (k d : ι) (a : α)
  | take (k d : ι) (a : α)
  | wait (d : ι)
  | withdraw (k d : ι) (a : α)
  | forget (d : ι)
  | enter (d : ι)

namespace Move

variable [DecidableEq ι]

/-- The message that the move sends from `k` to `d`. -/
def sent (k d : ι) : Move ι α → Option α
  | post k' d' a | hand k' d' a => if k' = k ∧ d' = d then some a else none
  | _ => none

/-- The message from `k` to `d` that has found its end: `d` got it, or `k` is gone. -/
def gone (k d : ι) : Move ι α → Option α
  | take k' d' a | hand k' d' a | withdraw k' d' a => if k' = k ∧ d' = d then some a else none
  | _ => none

end Move

namespace Post

variable [DecidableEq ι] {accepts : σ → ι → Prop} {P P' : Post ι σ α} {m : Move ι α} {k d : ι}

/-- `k` is in a queue. -/
def Blocked (P : Post ι σ α) (k : ι) : Prop := ∃ d, ∃ e ∈ P.queue d, e.1 = k

/-- The messages of `k` in the queue of `d`. -/
def queued (P : Post ι σ α) (k d : ι) : List α :=
  (P.queue d).filterMap fun e => if e.1 = k then some e.2 else none

/-- `k` joins the queue of `d`. -/
def enqueue (P : Post ι σ α) (k d : ι) (a : α) : Post ι σ α :=
  { P with
    queue := Function.update P.queue d (P.queue d ++ [(k, a)])
    inbox := Function.update P.inbox k none }

/-- `d` gets the message of `k` that it waits for. -/
def deliver (P : Post ι σ α) (k d : ι) (a : α) : Post ι σ α :=
  { P with
    waiting := Function.update P.waiting d none
    inbox := Function.update P.inbox d (some (k, a)) }

/-- `d` gets the message of `k` from its queue, of which `rest` is left. -/
def dequeue (P : Post ι σ α) (k d : ι) (a : α) (rest : List (ι × α)) : Post ι σ α :=
  { P with
    queue := Function.update P.queue d rest
    inbox := Function.update P.inbox d (some (k, a)) }

/-- `d` waits for a message that `src` accepts. -/
def await (P : Post ι σ α) (d : ι) (src : σ) : Post ι σ α :=
  { P with waiting := Function.update P.waiting d (some src) }

/-- The queue of `d` is `rest`. -/
def requeue (P : Post ι σ α) (d : ι) (rest : List (ι × α)) : Post ι σ α :=
  { P with queue := Function.update P.queue d rest }

/-- `d` waits for nothing. -/
def forget (P : Post ι σ α) (d : ι) : Post ι σ α :=
  { P with waiting := Function.update P.waiting d none }

/-- `d` has received nothing, and waits as `w` says. -/
def enter (P : Post ι σ α) (d : ι) (w : Option σ) : Post ι σ α :=
  { P with
    waiting := Function.update P.waiting d w
    inbox := Function.update P.inbox d none }

/-- The moves of the protocol. -/
inductive Step (accepts : σ → ι → Prop) (P : Post ι σ α) : Move ι α → Post ι σ α → Prop
  | post {k d : ι} {a : α} : ¬ P.Blocked k → (∀ src, P.waiting d = some src → ¬ accepts src k) →
      Step accepts P (.post k d a) (P.enqueue k d a)
  | hand {k d : ι} {a : α} {src : σ} : ¬ P.Blocked k → ¬ P.Blocked d → P.waiting d = some src → accepts src k →
      Step accepts P (.hand k d a) (P.deliver k d a)
  | take {k d : ι} {a : α} {src : σ} {before after : List (ι × α)} : ¬ P.Blocked d → P.waiting d = none →
      P.queue d = before ++ (k, a) :: after → accepts src k → (∀ e ∈ before, ¬ accepts src e.1) →
      Step accepts P (.take k d a) (P.dequeue k d a (before ++ after))
  | wait {d : ι} {src : σ} : P.waiting d = none → (∀ e ∈ P.queue d, ¬ accepts src e.1) →
      Step accepts P (.wait d) (P.await d src)
  | withdraw {k d : ι} {a : α} {before after : List (ι × α)} : P.queue d = before ++ (k, a) :: after →
      (∀ e ∈ before, e.1 ≠ k) → Step accepts P (.withdraw k d a) (P.requeue d (before ++ after))
  | forget {d : ι} : Step accepts P (.forget d) (P.forget d)
  | enter {d : ι} {w : Option σ} : ¬ P.Blocked d → P.queue d = [] → Step accepts P (.enter d) (P.enter d w)

theorem queued_of_not_blocked (free : ¬ P.Blocked k) (d : ι) : P.queued k d = [] := by
  unfold queued
  rw [List.filterMap_eq_nil_iff]
  intro e he
  exact if_neg fun same => free ⟨d, e, he, same⟩

/-- What is sent is received or queued or withdrawn, and what was queued goes first. -/
theorem Step.conserved (step : Step accepts P m P') (k d : ι) :
    P.queued k d ++ (m.sent k d).toList = (m.gone k d).toList ++ P'.queued k d := by
  cases step with
  | @post k' d' a free notWaiting =>
    dsimp only [Move.sent, Move.gone, queued, enqueue, dequeue]
    by_cases at_d : d' = d
    · subst at_d
      rw [Function.update_self, List.filterMap_append]
      by_cases by_k : k' = k
      · simp [by_k]
      · simp [by_k]
    · rw [Function.update_of_ne (Ne.symm at_d)]
      simp [at_d]
  | @hand k' d' a src free notBlocked waits ok =>
    dsimp only [Move.sent, Move.gone]
    by_cases same : k' = k ∧ d' = d
    · obtain ⟨rfl, rfl⟩ := same
      have none_queued : P.queued k' d' = [] := queued_of_not_blocked free d'
      have none_left : (P.deliver k' d' a).queued k' d' = [] := none_queued
      rw [none_queued, none_left]
      simp
    · simp only [if_neg same, Option.toList_none, List.append_nil, List.nil_append]
      rfl
  | @take k' d' a src before after notBlocked notWaiting split ok earlier =>
    dsimp only [Move.sent, Move.gone, queued, enqueue, dequeue]
    by_cases at_d : d' = d
    · subst at_d
      rw [split, Function.update_self, List.filterMap_append, List.filterMap_append]
      by_cases by_k : k' = k
      · subst by_k
        -- the messages before it are not from `k`, whom the receiver accepts
        have skipped : before.filterMap (fun e => if e.1 = k' then some e.2 else none) = [] := by
          rw [List.filterMap_eq_nil_iff]
          intro e he
          refine if_neg fun same => earlier e he ?_
          rw [same]
          exact ok
        simp [skipped]
      · simp [by_k]
    · rw [Function.update_of_ne (Ne.symm at_d)]
      simp [at_d]
  | wait notWaiting nothing =>
    simp [Move.sent, Move.gone, queued, await]
  | @withdraw k' d' a before after split earlier =>
    dsimp only [Move.sent, Move.gone, queued, requeue]
    by_cases at_d : d' = d
    · subst at_d
      rw [split, Function.update_self, List.filterMap_append, List.filterMap_append]
      by_cases by_k : k' = k
      · subst by_k
        have skipped : before.filterMap (fun e => if e.1 = k' then some e.2 else none) = [] := by
          rw [List.filterMap_eq_nil_iff]
          exact fun e he => if_neg (earlier e he)
        simp [skipped]
      · simp [by_k]
    · rw [Function.update_of_ne (Ne.symm at_d)]
      simp [at_d]
  | forget =>
    simp [Move.sent, Move.gone, queued, Post.forget]
  | enter notBlocked empty =>
    simp [Move.sent, Move.gone, queued, Post.enter]

/-- **Messages are neither lost nor duplicated nor reordered.** Over a run, what was queued from `k` to `d`
and what `k` has sent to `d` since is what `d` has received from `k` or `k` has withdrawn, followed by what is
queued now. -/
theorem conserved {ms : List (Move ι α)} (run : Run (Step accepts) P ms P') (k d : ι) :
    P.queued k d ++ ms.filterMap (Move.sent k d) = ms.filterMap (Move.gone k d) ++ P'.queued k d := by
  induction run with
  | nil => simp
  | @snoc _ _ ms m _ last ih =>
    have step := last.conserved k d
    have single {f : Move ι α → Option α} : [m].filterMap f = (f m).toList := by
      cases h : f m <;> simp [h]
    rw [List.filterMap_append, List.filterMap_append, single, single, ← List.append_assoc, ih, List.append_assoc,
      step, List.append_assoc]

/-- No party waits for a message that is in its queue. -/
def Attentive (accepts : σ → ι → Prop) (P : Post ι σ α) : Prop :=
  ∀ d src, P.waiting d = some src → ∀ e ∈ P.queue d, ¬ accepts src e.1

theorem Step.attentive (step : Step accepts P m P') (h : Attentive accepts P) : Attentive accepts P' := by
  cases step with
  | @post k d a free notWaiting =>
    intro d' src waits e he
    dsimp only [enqueue] at waits he
    by_cases at_d : d' = d
    · subst at_d
      rw [Function.update_self, List.mem_append, List.mem_singleton] at he
      rcases he with old | rfl
      · exact h d' src waits e old
      · exact notWaiting src waits
    · rw [Function.update_of_ne at_d] at he
      exact h d' src waits e he
  | @hand k d a src free notBlocked waits ok =>
    intro d' src' waits' e he
    dsimp only [deliver, dequeue, await] at waits' he
    by_cases at_d : d' = d
    · subst at_d
      rw [Function.update_self] at waits'
      cases waits'
    · rw [Function.update_of_ne at_d] at waits'
      exact h d' src' waits' e he
  | @take k d a src before after notBlocked notWaiting split ok earlier =>
    intro d' src' waits' e he
    dsimp only [deliver, dequeue, await] at waits' he
    by_cases at_d : d' = d
    · subst at_d
      rw [notWaiting] at waits'
      cases waits'
    · rw [Function.update_of_ne at_d] at he
      exact h d' src' waits' e he
  | @wait d src notWaiting nothing =>
    intro d' src' waits' e he
    dsimp only [deliver, dequeue, await] at waits' he
    by_cases at_d : d' = d
    · subst at_d
      rw [Function.update_self] at waits'
      obtain rfl := Option.some.inj waits'
      exact nothing e he
    · rw [Function.update_of_ne at_d] at waits'
      exact h d' src' waits' e he
  | @withdraw k d a before after split earlier =>
    intro d' src' waits' e he
    dsimp only [requeue] at waits' he
    by_cases at_d : d' = d
    · subst at_d
      rw [Function.update_self] at he
      refine h d' src' waits' e ?_
      rw [split]
      exact (List.mem_append.1 he).elim (List.mem_append_left _) fun later =>
        List.mem_append_right before (List.mem_cons_of_mem _ later)
    · rw [Function.update_of_ne at_d] at he
      exact h d' src' waits' e he
  | @forget d =>
    intro d' src' waits' e he
    dsimp only [Post.forget] at waits' he
    by_cases at_d : d' = d
    · subst at_d
      rw [Function.update_self] at waits'
      cases waits'
    · rw [Function.update_of_ne at_d] at waits'
      exact h d' src' waits' e he
  | @enter d w notBlocked empty =>
    intro d' src' waits' e he
    dsimp only [Post.enter] at waits' he
    by_cases at_d : d' = d
    · subst at_d
      rw [empty] at he
      cases he
    · rw [Function.update_of_ne at_d] at waits'
      exact h d' src' waits' e he

theorem Attentive.run {ms : List (Move ι α)} (h : Attentive accepts P) (run : Run (Step accepts) P ms P') :
    Attentive accepts P' :=
  run.invariant (fun h step => step.attentive h) h

/-- No party sends anything. -/
def nothing : ι → ι → List α := fun _ _ => []

/-- Only `k` sends a message, `a`, to `d`. -/
def only (k d : ι) (a : α) : ι → ι → List α := fun k' d' => if k = k' ∧ d = d' then [a] else []

/-- The protocol leads from `P` to `P'`, and the parties that `S` is about send what `sent` says. -/
def Passes (accepts : σ → ι → Prop) (S : ι → Prop) (P : Post ι σ α) (sent : ι → ι → List α) (P' : Post ι σ α) : Prop :=
  ∃ ms, Run (Step accepts) P ms P' ∧ ∀ k d, S k → ms.filterMap (Move.sent k d) = sent k d

namespace Passes

variable {S : ι → Prop} {P'' : Post ι σ α} {sent sent' : ι → ι → List α} {a : α}

theorem refl (P : Post ι σ α) : Passes accepts S P nothing P := ⟨[], .nil P, fun _ _ _ => rfl⟩

theorem trans (h : Passes accepts S P sent P') (h' : Passes accepts S P' sent' P'') :
    Passes accepts S P (fun k d => sent k d ++ sent' k d) P'' := by
  obtain ⟨ms, run, sends⟩ := h
  obtain ⟨ms', run', sends'⟩ := h'
  refine ⟨ms ++ ms', run.trans run', fun k d counts => ?_⟩
  rw [List.filterMap_append, sends k d counts, sends' k d counts]

/-- Nothing is sent first. -/
theorem silently (h : Passes accepts S P nothing P') (h' : Passes accepts S P' sent P'') : Passes accepts S P sent P'' :=
  h.trans h'

/-- Nothing is sent after that. -/
theorem rest (h : Passes accepts S P sent P') (h' : Passes accepts S P' nothing P'') : Passes accepts S P sent P'' := by
  obtain ⟨ms, run, sends⟩ := h.trans h'
  refine ⟨ms, run, fun k d counts => ?_⟩
  rw [sends k d counts]
  exact List.append_nil _

theorem post (step : Step accepts P (.post k d a) P') : Passes accepts S P (only k d a) P' := by
  refine ⟨[.post k d a], .single step, fun k' d' _ => ?_⟩
  unfold only
  by_cases same : k = k' ∧ d = d'
  · simp [Move.sent, same]
  · simp [Move.sent, same]

theorem hand (step : Step accepts P (.hand k d a) P') : Passes accepts S P (only k d a) P' := by
  refine ⟨[.hand k d a], .single step, fun k' d' _ => ?_⟩
  unfold only
  by_cases same : k = k' ∧ d = d'
  · simp [Move.sent, same]
  · simp [Move.sent, same]

/-- A message of a party that `S` is not about. -/
theorem of_other (h : Passes accepts S P (only k d a) P') (other : ¬ S k) : Passes accepts S P nothing P' := by
  obtain ⟨ms, run, sends⟩ := h
  refine ⟨ms, run, fun k' d' counts => ?_⟩
  have ne : ¬ (k = k' ∧ d = d') := by
    rintro ⟨rfl, -⟩
    exact other counts
  rw [sends k' d' counts]
  exact if_neg ne

theorem hand_of_other (step : Step accepts P (.hand k d a) P') (other : ¬ S k) : Passes accepts S P nothing P' :=
  (hand step).of_other other

theorem take (step : Step accepts P (.take k d a) P') : Passes accepts S P nothing P' :=
  ⟨[.take k d a], .single step, fun _ _ _ => rfl⟩

theorem wait (step : Step accepts P (.wait d) P') : Passes accepts S P nothing P' :=
  ⟨[.wait d], .single step, fun _ _ _ => rfl⟩

theorem withdraw (step : Step accepts P (.withdraw k d a) P') : Passes accepts S P nothing P' :=
  ⟨[.withdraw k d a], .single step, fun _ _ _ => rfl⟩

theorem forget (step : Step accepts P (.forget d) P') : Passes accepts S P nothing P' :=
  ⟨[.forget d], .single step, fun _ _ _ => rfl⟩

theorem enter (step : Step accepts P (.enter d) P') : Passes accepts S P nothing P' :=
  ⟨[.enter d], .single step, fun _ _ _ => rfl⟩

theorem attentive (h : Passes accepts S P sent P') (init : Attentive accepts P) : Attentive accepts P' := by
  obtain ⟨ms, run, -⟩ := h
  exact init.run run

end Passes

end Post

end SoiExercises.Lib
