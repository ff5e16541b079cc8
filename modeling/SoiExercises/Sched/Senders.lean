import SoiExercises.Lib.Ending
import SoiExercises.Lib.Rendezvous
import SoiExercises.Sched.Consistent

/-!
# The queues of senders

`p_callerq` and `p_sendlink` are one list of processes for each receiver: those that are blocked in a send
to it, in the order in which they came. `Queued s L` says so for the lists `L`, and for each function that
walks or edits the links a lemma says what it does to the lists. `p_sendto` makes the blocked senders a
graph; the loop in `mini_send` walks along it (`deadlocked_listed`) and ends when the graph has no cycle.
-/

namespace SoiExercises.Sched

open SoiExercises.Lib

/-- What the functions on the queues of senders write. -/
structure SenderLinks where
  callerq : Nat → Option Nat
  sendlink : Nat → Option Nat

namespace Kernel

/-- The `p_sendlink` links. -/
def sendlinks (s : Kernel) (k : Nat) : Option Nat := (s.proc k).sendlink

/-- Overwrite the queues of senders. -/
def relink (s : Kernel) (r : SenderLinks) : Kernel :=
  { s with proc := fun k => { s.proc k with callerq := r.callerq k, sendlink := r.sendlink k } }

/-- Only the queues of senders differ. -/
def Relinked (s t : Kernel) : Prop := ∃ r, t = s.relink r

/-- Whom a process is blocked in a send to. -/
def awaits (cfg : Config) (s : Kernel) (k : Nat) : Option Nat :=
  if .sending ∈ (s.proc k).flags then some (cfg.procAddr (s.proc k).sendto) else none

/-- The queue of senders of each process `d` is the list `L d`, and no process is in two of them. -/
structure Queued (s : Kernel) (L : Nat → List Nat) : Prop where
  listed : ∀ d, Listed s.sendlinks (s.proc d).callerq (L d)
  once : ∀ {k d d'}, k ∈ L d → k ∈ L d' → d = d'

variable {cfg : Config} {s t u : Kernel} {L : Nat → List Nat} {k d rp caller dest sender next : Nat} {l : List Nat}
  {v : Option Nat} {f : Proc → Proc} {src : Int}

theorem sendlinks_setSendlink : (s.update k fun p => { p with sendlink := v }).sendlinks =
    Function.update s.sendlinks k v := by
  funext j
  unfold sendlinks
  by_cases hj : j = k
  · subst hj
    rw [update_proc_self, Function.update_self]
  · rw [update_proc_ne hj, Function.update_of_ne hj]

theorem sendlinks_setCallerq : (s.update k fun p => { p with callerq := v }).sendlinks = s.sendlinks := by
  funext j
  exact update_field Proc.sendlink (by rfl) j

theorem awaits_of_sending (h : .sending ∈ (s.proc k).flags) : s.awaits cfg k = some (cfg.procAddr (s.proc k).sendto) :=
  if_pos h

theorem awaits_of_not_sending (h : .sending ∉ (s.proc k).flags) : s.awaits cfg k = none := if_neg h

namespace Relinked

theorem refl (s : Kernel) : Relinked s s := ⟨⟨fun k => (s.proc k).callerq, fun k => (s.proc k).sendlink⟩, rfl⟩

theorem trans (h : Relinked s t) (h' : Relinked t u) : Relinked s u := by
  obtain ⟨r, rfl⟩ := h
  obtain ⟨r', rfl⟩ := h'
  exact ⟨r', rfl⟩

theorem update (h : Relinked s t) (hf : f (t.proc k) = { t.proc k with
    callerq := (f (t.proc k)).callerq, sendlink := (f (t.proc k)).sendlink }) : Relinked s (t.update k f) := by
  refine h.trans ⟨⟨fun j => ((t.update k f).proc j).callerq, fun j => ((t.update k f).proc j).sendlink⟩, ?_⟩
  have proc : (t.update k f).proc = fun j =>
      { t.proc j with callerq := ((t.update k f).proc j).callerq, sendlink := ((t.update k f).proc j).sendlink } := by
    funext j
    by_cases hj : j = k
    · subst hj
      rw [update_proc_self]
      exact hf
    · rw [update_proc_ne hj]
  show { t with proc := (t.update k f).proc } = _
  rw [proc]
  rfl

theorem setCallerq (h : Relinked s t) : Relinked s (t.update k fun p => { p with callerq := v }) := h.update rfl

theorem setSendlink (h : Relinked s t) : Relinked s (t.update k fun p => { p with sendlink := v }) := h.update rfl

end Relinked

namespace Queued

/-- One queue is rewritten with processes that were in it or in none. -/
theorem rewrite (h : Queued s L) (listed : Listed t.sendlinks (t.proc d).callerq l)
    (callerq : ∀ j, j ≠ d → (t.proc j).callerq = (s.proc j).callerq)
    (others : ∀ j, j ≠ d → ∀ k ∈ L j, t.sendlinks k = s.sendlinks k)
    (source : ∀ k ∈ l, k ∈ L d ∨ ∀ j, k ∉ L j) : Queued t (Function.update L d l) where
  listed j := by
    by_cases hj : j = d
    · subst hj
      rw [Function.update_self]
      exact listed
    · rw [Function.update_of_ne hj, callerq j hj]
      exact (h.listed j).congr (others j hj)
  once {k i j} hi hj := by
    have place {j : Nat} (hj : k ∈ Function.update L d l j) : j = d ∨ k ∈ L j := by
      by_cases same : j = d
      · exact .inl same
      · rw [Function.update_of_ne same] at hj
        exact .inr hj
    have old {i : Nat} (hd : k ∈ Function.update L d l d) (hi : k ∈ L i) : d = i := by
      rw [Function.update_self] at hd
      rcases source k hd with before | fresh
      · exact h.once before hi
      · exact absurd hi (fresh i)
    rcases place hi with rfl | hi'
    · rcases place hj with rfl | hj'
      · rfl
      · exact old hi hj'
    · rcases place hj with rfl | hj'
      · exact (old hj hi').symm
      · exact h.once hi' hj'

theorem head (h : Queued s L) (d : Nat) : (s.proc d).callerq = (L d).head? := (h.listed d).head?

end Queued

/-- The search for the end of a queue. -/
theorem lastSender_listed {fuel np : Nat} (h : Listed s.sendlinks (some np) (np :: l)) (enough : (np :: l).length ≤ fuel) :
    ∃ before last, np :: l = before ++ [last] ∧ s.lastSender fuel np = .ok last := by
  induction fuel generalizing np l with
  | zero => exact absurd enough (by simp)
  | succ fuel ih =>
    obtain ⟨-, rest⟩ := h
    have link : (s.proc np).sendlink = l.head? := rest.head?
    unfold lastSender
    rw [link]
    cases l with
    | nil => exact ⟨[], np, rfl, rfl⟩
    | cons next l =>
      rw [List.head?_cons]
      obtain ⟨first, -⟩ := id rest
      rw [first] at rest
      obtain ⟨before, last, split, found⟩ := ih rest (Nat.le_of_succ_le_succ enough)
      exact ⟨np :: before, last, by rw [split, List.cons_append], found⟩

/-- A sender joins the end of the queue of `dest`. -/
theorem Queued.enqueueSender (h : Queued s L) (fresh : ∀ j, caller ∉ L j) (short : (L dest).length ≤ cfg.endProcAddr) :
    Returns (fun t => Queued t (Function.update L dest (L dest ++ [caller])) ∧ Relinked s t)
      (s.enqueueSender cfg caller dest) := by
  have source : ∀ k ∈ L dest ++ [caller], k ∈ L dest ∨ ∀ j, k ∉ L j := by
    intro k hk
    refine (List.mem_append.1 hk).imp_right fun new => ?_
    obtain rfl := List.mem_singleton.1 new
    exact fresh
  unfold Kernel.enqueueSender
  have head := h.head dest
  rw [head]
  cases queue : L dest with
  | nil =>
    refine Ends.pure ⟨?_, (Relinked.refl s).setCallerq.setSendlink⟩
    rw [queue] at source
    refine h.rewrite ?_ (fun j hj => ?_) (fun j _ k hk => ?_) (by simpa [queue] using source)
    · rw [update_field Proc.callerq (by rfl), update_proc_self, sendlinks_setSendlink]
      exact ⟨rfl, seg_nil.2 (Function.update_self ..)⟩
    · rw [update_field Proc.callerq (by rfl), update_proc_ne hj]
    · rw [sendlinks_setSendlink, sendlinks_setCallerq, Function.update_of_ne]
      rintro rfl
      exact fresh j hk
  | cons np l =>
    have listed := h.listed dest
    rw [head, queue] at listed
    rw [queue] at short
    obtain ⟨before, last, split, found⟩ := lastSender_listed listed short
    dsimp only [List.head?_cons]
    rw [found]
    refine Ends.pure ⟨?_, (Relinked.refl s).setSendlink.setSendlink⟩
    rw [split] at listed
    have apart : caller ∉ before ++ [last] := by
      rw [← split, ← queue]
      exact fresh dest
    have lastQueued : last ∈ L dest := by
      rw [queue, split]
      exact List.mem_append_right before (List.mem_singleton_self last)
    rw [queue] at source
    refine h.rewrite ?_ (fun j _ => ?_) (fun j hj k hk => ?_) (by simpa [queue] using source)
    · rw [update_field Proc.callerq (by rfl), update_field Proc.callerq (by rfl), sendlinks_setSendlink,
        sendlinks_setSendlink, head, queue, split]
      exact listed.snoc apart
    · rw [update_field Proc.callerq (by rfl), update_field Proc.callerq (by rfl)]
    · rw [sendlinks_setSendlink, sendlinks_setSendlink, Function.update_of_ne, Function.update_of_ne]
      · rintro rfl
        exact hj (h.once hk lastQueued)
      · rintro rfl
        exact fresh j hk

/-- The search for a sender that `src` accepts, along a queue that ends. -/
theorem findSender_listed {fuel : Nat} {first : Option Nat} (src : Int) (previous : Option Nat) (h : Listed s.sendlinks first l)
    (enough : l.length < fuel) :
    (∃ before sender after, l = before ++ sender :: after ∧ (src = ANY ∨ src = (s.proc sender).nr) ∧
      (∀ k ∈ before, ¬ (src = ANY ∨ src = (s.proc k).nr)) ∧
      s.findSender src fuel previous first = .ok (some (before.getLast?.or previous, sender))) ∨
    ((∀ k ∈ l, ¬ (src = ANY ∨ src = (s.proc k).nr)) ∧ s.findSender src fuel previous first = .ok none) := by
  induction fuel generalizing first previous l with
  | zero => exact absurd enough (Nat.not_lt_zero _)
  | succ fuel ih =>
    cases l with
    | nil =>
      obtain rfl := seg_nil.1 h
      exact .inr ⟨fun k hk => absurd hk List.not_mem_nil, rfl⟩
    | cons x l =>
      obtain ⟨rfl, rest⟩ := h
      unfold findSender
      by_cases accepted : src = ANY ∨ src = (s.proc x).nr
      · rw [if_pos accepted]
        exact .inl ⟨[], x, l, rfl, accepted, fun k hk => absurd hk List.not_mem_nil, rfl⟩
      · rw [if_neg accepted]
        have skip {k : Nat} {l' : List Nat} (tail : k ∈ l' → ¬ (src = ANY ∨ src = (s.proc k).nr)) (hk : k ∈ x :: l') :
            ¬ (src = ANY ∨ src = (s.proc k).nr) := by
          rcases List.mem_cons.1 hk with rfl | later
          · exact accepted
          · exact tail later
        rcases ih (some x) rest (Nat.lt_of_succ_lt_succ enough) with
          ⟨before, sender, after, split, ok, earlier, found⟩ | ⟨nobody, found⟩
        · refine .inl ⟨x :: before, sender, after, by rw [split, List.cons_append], ok, ?_, ?_⟩
          · exact fun k hk => skip (earlier k) hk
          · rw [show s.findSender src fuel (some x) (s.proc x).sendlink = _ from found]
            cases before with
            | nil => rfl
            | cons y before => rw [List.getLast?_cons_cons, List.getLast?_eq_some_getLast (List.cons_ne_nil y before)]; rfl
        · exact .inr ⟨fun k hk => skip (nobody k) hk, found⟩

/-- A sender is taken out of the queue of `caller`. -/
theorem Queued.dequeueSender {before after : List Nat} (h : Queued s L) (split : L caller = before ++ sender :: after) :
    Returns (fun t => Queued t (Function.update L caller (before ++ after)) ∧ Relinked s t)
      (s.dequeueSender caller before.getLast? sender) := by
  have listed := h.listed caller
  rw [split] at listed
  have rest : Listed s.sendlinks (s.proc sender).sendlink after := listed.rest
  have source : ∀ k ∈ before ++ after, k ∈ L caller ∨ ∀ j, k ∉ L j := by
    intro k hk
    left
    rw [split]
    exact (List.mem_append.1 hk).elim (List.mem_append_left _) fun later =>
      List.mem_append_right before (List.mem_cons_of_mem sender later)
  unfold Kernel.dequeueSender
  rcases List.eq_nil_or_concat before with rfl | ⟨before, last, rfl⟩
  · rw [if_pos listed.1]
    refine Ends.ok ⟨?_, (Relinked.refl s).setCallerq⟩
    refine h.rewrite ?_ (fun j hj => by rw [update_proc_ne hj]) (fun j _ k _ => by rw [sendlinks_setCallerq]) source
    rw [update_proc_self, sendlinks_setCallerq]
    exact rest
  · rw [List.concat_eq_append] at split listed source ⊢
    rw [List.append_assoc, List.singleton_append] at listed split
    have distinct := listed.nodup
    have notFirst : (s.proc caller).callerq ≠ some sender := by
      intro first
      rw [h.head, split] at first
      have again : sender ∈ before ++ [last] := by
        cases before with
        | nil => exact Option.some.inj first ▸ List.mem_singleton_self last
        | cons y before => exact Option.some.inj first ▸ List.mem_cons_self
      have apart : (before ++ [last] ++ sender :: after).Nodup := by
        rw [List.append_assoc, List.singleton_append]
        exact distinct
      exact (List.nodup_append.1 apart).2.2 sender again sender List.mem_cons_self rfl
    rw [if_neg notFirst, List.getLast?_concat]
    refine Ends.ok ⟨?_, (Relinked.refl s).setSendlink⟩
    have lastQueued : last ∈ L caller := by
      rw [split]
      exact List.mem_append_right before List.mem_cons_self
    refine h.rewrite ?_ (fun j _ => update_field Proc.callerq (by rfl) j) (fun j hj k hk => ?_) source
    · rw [sendlinks_setSendlink, update_field Proc.callerq (by rfl), List.append_assoc, List.singleton_append]
      exact listed.remove
    · rw [sendlinks_setSendlink, Function.update_of_ne]
      rintro rfl
      exact hj (h.once hk lastQueued)

/-- The loop over `p_sendto`, along a path that ends. -/
theorem sendsTo_listed {fuel : Nat} (h : Listed (s.awaits cfg) (some next) (next :: l)) (enough : (next :: l).length ≤ fuel) :
    s.sendsTo cfg caller fuel next = .ok (decide (caller ∈ next :: l)) := by
  induction fuel generalizing next l with
  | zero => exact absurd enough (by simp)
  | succ fuel ih =>
    obtain ⟨-, rest⟩ := h
    unfold sendsTo
    by_cases same : next = caller
    · rw [if_pos same, same]
      simp
    · rw [if_neg same]
      have ahead : decide (caller ∈ next :: l) = decide (caller ∈ l) := by simp [Ne.symm same]
      split
      · rename_i sending
        rw [awaits_of_sending sending] at rest
        cases l with
        | nil => cases rest
        | cons y l =>
          obtain ⟨first, -⟩ := id rest
          rw [Option.some.inj first, ahead]
          rw [first] at rest
          exact ih rest (Nat.le_of_succ_le_succ enough)
      · rename_i running
        rw [awaits_of_not_sending running] at rest
        rw [ahead, listed_none.1 rest]
        rfl

/-- `mini_send` refuses a message to a process from which the sends lead back to the caller. -/
theorem deadlocked_listed (h : Listed (s.awaits cfg) (some dest) (dest :: l)) (enough : l.length ≤ cfg.endProcAddr) :
    s.deadlocked cfg caller dest = .ok (decide (caller ∈ l)) := by
  obtain ⟨-, rest⟩ := h
  unfold deadlocked
  split
  · rename_i sending
    rw [awaits_of_sending sending] at rest
    cases l with
    | nil => cases rest
    | cons y l =>
      obtain ⟨first, -⟩ := id rest
      rw [first] at rest
      rw [Option.some.inj first]
      exact sendsTo_listed rest enough
  · rename_i running
    rw [awaits_of_not_sending running] at rest
    rw [listed_none.1 rest]
    rfl

/-- The search does not end at a process that is blocked in a send to itself. -/
theorem sendsTo_self {fuel : Nat} (sending : .sending ∈ (s.proc dest).flags)
    (self : cfg.procAddr (s.proc dest).sendto = dest) (other : dest ≠ caller) :
    s.sendsTo cfg caller fuel dest = .error .endless := by
  induction fuel with
  | zero => rfl
  | succ fuel ih =>
    unfold sendsTo
    rw [if_neg other, if_pos sending, self]
    exact ih

theorem deadlocked_self (sending : .sending ∈ (s.proc dest).flags) (self : cfg.procAddr (s.proc dest).sendto = dest)
    (other : dest ≠ caller) : s.deadlocked cfg caller dest = .error .endless := by
  unfold deadlocked
  rw [if_pos sending, self]
  exact sendsTo_self sending self other

/-- The search for `rc` behind the first sender of a queue that ends, and its removal. -/
theorem unlinkSender_listed {fuel np rc : Nat} (h : Listed s.sendlinks (some np) (np :: l)) (ne : np ≠ rc)
    (enough : (np :: l).length ≤ fuel) :
    (rc ∉ np :: l ∧ s.unlinkSender rc fuel np = .ok s) ∨
      ∃ before x after, np :: l = before ++ x :: rc :: after ∧
        s.unlinkSender rc fuel np = .ok (s.update x fun p => { p with sendlink := (s.proc rc).sendlink }) := by
  induction fuel generalizing np l with
  | zero => exact absurd enough (by simp)
  | succ fuel ih =>
    obtain ⟨-, rest⟩ := h
    have link : (s.proc np).sendlink = l.head? := rest.head?
    unfold unlinkSender
    rw [link]
    cases l with
    | nil => exact .inl ⟨by simpa using ne.symm, rfl⟩
    | cons y l =>
      rw [List.head?_cons]
      dsimp only
      by_cases hit : y = rc
      · subst hit
        rw [if_pos rfl]
        exact .inr ⟨[], np, l, rfl, rfl⟩
      · rw [if_neg hit]
        obtain ⟨first, -⟩ := id rest
        rw [first] at rest
        rcases ih rest hit (Nat.le_of_succ_le_succ enough) with ⟨absent, done⟩ | ⟨before, x, after, split, done⟩
        · refine .inl ⟨fun again => ?_, done⟩
          rcases List.mem_cons.1 again with same | later
          · exact ne same.symm
          · exact absent later
        · exact .inr ⟨np :: before, x, after, by rw [split, List.cons_append], done⟩

/-- A process that exits is taken out of the queues of the slots that are searched. -/
theorem Queued.unlinkCaller {rc : Nat} {rps : List Nat} (h : Queued s L) (short : ∀ d, (L d).length ≤ cfg.endProcAddr) :
    Returns (fun t => Queued t (fun d => if d ∈ rps then (L d).erase rc else L d) ∧ Relinked s t)
      (unlinkCaller cfg rc s rps) := by
  induction rps generalizing s L with
  | nil =>
    refine Ends.ok ⟨?_, .refl s⟩
    simpa using h
  | cons rp rps ih =>
    have distinct : (L rp).Nodup := (h.listed rp).nodup
    -- when the queue of `rp` is done, the rest of the search goes over the other queues
    have rest {s₁ : Kernel} (h₁ : Queued s₁ (Function.update L rp ((L rp).erase rc))) (same : Relinked s s₁) :
        Returns (fun t => Queued t (fun d => if d ∈ rp :: rps then (L d).erase rc else L d) ∧ Relinked s t)
          (Kernel.unlinkCaller cfg rc s₁ rps) := by
      have short₁ (d : Nat) : (Function.update L rp ((L rp).erase rc) d).length ≤ cfg.endProcAddr := by
        by_cases hd : d = rp
        · subst hd
          rw [Function.update_self]
          exact List.length_erase_le.trans (short d)
        · rw [Function.update_of_ne hd]
          exact short d
      refine (ih h₁ short₁).imp fun t ⟨queued, relinked⟩ => ⟨?_, same.trans relinked⟩
      have lists : (fun d => if d ∈ rps then (Function.update L rp ((L rp).erase rc) d).erase rc
          else Function.update L rp ((L rp).erase rc) d) =
          fun d => if d ∈ rp :: rps then (L d).erase rc else L d := by
        funext d
        by_cases hd : d = rp
        · subst hd
          rw [Function.update_self, if_pos List.mem_cons_self]
          have gone : rc ∉ (L d).erase rc := distinct.not_mem_erase
          rw [List.erase_of_not_mem gone, ite_self]
        · rw [Function.update_of_ne hd]
          simp [hd]
      rw [← lists]
      exact queued
    unfold Kernel.unlinkCaller
    rw [h.head]
    cases queue : L rp with
    | nil =>
      apply rest _ (.refl s)
      rw [queue, List.erase_nil, ← queue, Function.update_eq_self]
      exact h
    | cons np l =>
      have listed := h.listed rp
      rw [h.head, queue] at listed
      rw [List.head?_cons]
      dsimp only
      by_cases first : np = rc
      · subst first
        rw [if_pos rfl]
        have link : Listed s.sendlinks (s.proc np).sendlink l := listed.2
        refine Ends.ok ⟨?_, (Relinked.refl s).setCallerq⟩
        have lists : (fun d => if d ∈ rp :: rps then (L d).erase np else L d) = Function.update L rp l := by
          funext d
          by_cases hd : d = rp
          · subst hd
            rw [Function.update_self, if_pos List.mem_cons_self, queue, List.erase_cons_head]
          · have absent : np ∉ L d := fun again => hd (h.once again (queue ▸ List.mem_cons_self))
            rw [Function.update_of_ne hd, List.erase_of_not_mem absent, ite_self]
        rw [lists]
        refine h.rewrite ?_ (fun j hj => by rw [update_proc_ne hj]) (fun j _ k _ => by rw [sendlinks_setCallerq])
          fun k hk => .inl (queue ▸ List.mem_cons_of_mem np hk)
        rw [update_proc_self, sendlinks_setCallerq]
        exact link
      · rw [if_neg first]
        have enough : (np :: l).length ≤ cfg.endProcAddr := queue ▸ short rp
        rcases unlinkSender_listed listed first enough with ⟨absent, done⟩ | ⟨before, x, after, split, done⟩
        · rw [done, ok_bind]
          apply rest _ (.refl s)
          rw [queue, List.erase_of_not_mem absent, ← queue, Function.update_eq_self]
          exact h
        · rw [done, ok_bind]
          apply rest _ (Relinked.refl s).setSendlink
          rw [queue] at distinct
          rw [split] at listed distinct
          have notBefore : rc ∉ before := fun again =>
            (List.nodup_append.1 distinct).2.2 rc again rc (List.mem_cons_of_mem x List.mem_cons_self) rfl
          have ne : x ≠ rc := fun same =>
            (List.nodup_cons.1 (List.nodup_append.1 distinct).2.1).1 (same ▸ List.mem_cons_self)
          have erased : (L rp).erase rc = before ++ x :: after := by
            rw [queue, split, List.erase_append_right _ notBefore, List.erase_cons_tail (by simpa using ne),
              List.erase_cons_head]
          have xQueued : x ∈ L rp := by
            rw [queue, split]
            exact List.mem_append_right before List.mem_cons_self
          rw [erased]
          refine h.rewrite ?_ (fun j _ => update_field Proc.callerq (by rfl) j) (fun j hj k hk => ?_) fun k hk => .inl ?_
          · rw [sendlinks_setSendlink, update_field Proc.callerq (by rfl), h.head, queue, split]
            exact listed.remove
          · rw [sendlinks_setSendlink, Function.update_of_ne]
            rintro rfl
            exact hj (h.once hk xQueued)
          · rw [← erased] at hk
            exact List.mem_of_mem_erase hk

end Kernel

end SoiExercises.Sched
