import SoiExercises.Sched.Senders

/-!
# The kernel's messages are the rendezvous protocol

`Posted s P` says that the flags, links and buffers of the kernel are a state `P` of the protocol of
`SoiExercises.Lib.Rendezvous`: the queues of senders with their messages, who waits for whom, and what
each process received last. It also says what `mini_send` and `mini_rec` rely on: no cycle of senders, and a
process that waits to receive has no message that it could take, from a sender or from the hardware. There
is one lemma for each thing that the kernel does to messages.
-/

namespace SoiExercises.Sched

open SoiExercises.Lib

/-- A receive from `src` takes a message of the process in slot `k`. -/
def Config.accepts (cfg : Config) (src : Int) (k : Nat) : Prop := src = ANY ∨ src = k - cfg.NR_TASKS

/-- The state of the protocol: parties are slots, and a message is its type. -/
abbrev Mail := Post Nat Int Int

/-- What a process sends is what `sys_call` accepts from it, if it is not the hardware or the clock task. -/
def Config.Counts (cfg : Config) (k : Nat) : Prop := k ≠ cfg.procAddr HARDWARE ∧ k ≠ cfg.procAddr CLOCK

/-- The protocol leads from `P` to `P'`, and the processes send what `sent` says. -/
abbrev Passes (cfg : Config) (P : Mail) (sent : Nat → Nat → List Int) (P' : Mail) : Prop :=
  Post.Passes cfg.accepts cfg.Counts P sent P'

/-- The slot has the same part in the exchange of messages, its queue and its place in one apart. -/
structure SameText (p p' : Proc) : Prop where
  nr : p'.nr = p.nr
  sendto : p'.sendto = p.sendto
  getfrom : p'.getfrom = p.getfrom
  messbuf : p'.messbuf = p.messbuf
  intBlocked : p'.intBlocked = p.intBlocked
  sending : .sending ∈ p'.flags ↔ .sending ∈ p.flags
  receiving : .receiving ∈ p'.flags ↔ .receiving ∈ p.flags

theorem SameText.refl (p : Proc) : SameText p p := ⟨rfl, rfl, rfl, rfl, rfl, Iff.rfl, Iff.rfl⟩

theorem SameText.trans {p p' p'' : Proc} (h : SameText p p') (h' : SameText p' p'') : SameText p p'' where
  nr := h'.nr.trans h.nr
  sendto := h'.sendto.trans h.sendto
  getfrom := h'.getfrom.trans h.getfrom
  messbuf := h'.messbuf.trans h.messbuf
  intBlocked := h'.intBlocked.trans h.intBlocked
  sending := h'.sending.trans h.sending
  receiving := h'.receiving.trans h.receiving

namespace Kernel

/-- The messages of the kernel are in the state `P`. -/
structure Posted (cfg : Config) (s : Kernel) (P : Mail) : Prop where
  number : ∀ k, (s.proc k).nr = k - cfg.NR_TASKS
  queued : Queued s fun d => (P.queue d).map Prod.fst
  sends : ∀ {d k}, k ∈ (P.queue d).map Prod.fst ↔ s.awaits cfg k = some d
  text : ∀ {d e}, e ∈ P.queue d → (s.proc e.1).messbuf.mType = e.2
  ending : Ending (s.awaits cfg)
  inside : ∀ {k}, .sending ∈ (s.proc k).flags → k < cfg.endProcAddr
  target : ∀ {k}, .sending ∈ (s.proc k).flags →
    0 ≤ (s.proc k).sendto + cfg.NR_TASKS ∧ cfg.procAddr (s.proc k).sendto < cfg.endProcAddr
  waiting : ∀ d, P.waiting d = if .receiving ∈ (s.proc d).flags then some (s.proc d).getfrom else none
  inbox : ∀ {d e}, P.inbox d = some e → (s.proc d).messbuf = ⟨e.1 - cfg.NR_TASKS, e.2⟩
  attentive : P.Attentive cfg.accepts
  both : ∀ {d}, .receiving ∈ (s.proc d).flags → .sending ∈ (s.proc d).flags → (s.proc d).getfrom = (s.proc d).sendto
  alert : ∀ {d}, .receiving ∈ (s.proc d).flags → .sending ∉ (s.proc d).flags → isRxHardware (s.proc d).getfrom →
    (s.proc d).intBlocked = false

variable {cfg : Config} {s t : Kernel} {P : Mail} {k d j : Nat} {f : Proc → Proc} {src a : Int} {m : Message}
  {l : List Nat}

theorem awaits_iff : s.awaits cfg k = some d ↔ .sending ∈ (s.proc k).flags ∧ cfg.procAddr (s.proc k).sendto = d := by
  by_cases sending : .sending ∈ (s.proc k).flags
  · rw [awaits_of_sending sending, Option.some.injEq]
    exact ⟨fun h => ⟨sending, h⟩, fun h => h.2⟩
  · rw [awaits_of_not_sending sending]
    exact ⟨fun h => absurd h.symm (Option.some_ne_none d), fun h => absurd h.1 sending⟩

theorem awaits_congr (same : SameText (s.proc k) (t.proc k)) : t.awaits cfg k = s.awaits cfg k := by
  unfold awaits
  rw [same.sendto]
  by_cases sending : .sending ∈ (s.proc k).flags
  · rw [if_pos sending, if_pos (same.sending.2 sending)]
  · rw [if_neg sending, if_neg (mt same.sending.1 sending)]

namespace Posted

theorem blocked_iff (h : Posted cfg s P) : P.Blocked k ↔ .sending ∈ (s.proc k).flags := by
  constructor
  · rintro ⟨d, e, he, rfl⟩
    exact (awaits_iff.1 (h.sends.1 (List.mem_map_of_mem he))).1
  · intro sending
    obtain ⟨e, he, same⟩ := List.mem_map.1 (h.sends.2 (show s.awaits cfg k = _ from awaits_of_sending sending))
    exact ⟨_, e, he, same⟩

theorem waiting_some (h : Posted cfg s P) : P.waiting d = some src ↔ .receiving ∈ (s.proc d).flags ∧ (s.proc d).getfrom = src := by
  rw [h.waiting]
  split
  · rename_i receiving
    simp [receiving]
  · rename_i notReceiving
    simp [notReceiving]

theorem waiting_none (h : Posted cfg s P) : P.waiting d = none ↔ .receiving ∉ (s.proc d).flags := by
  rw [h.waiting]
  simp

/-- A queue of senders is not longer than the process table. -/
theorem queue_short (h : Posted cfg s P) (d : Nat) : ((P.queue d).map Prod.fst).length ≤ cfg.endProcAddr := by
  have distinct : ((P.queue d).map Prod.fst).Nodup := (h.queued.listed d).nodup
  have inside : (P.queue d).map Prod.fst ⊆ List.range cfg.endProcAddr := by
    intro k hk
    rw [List.mem_range]
    exact h.inside (awaits_iff.1 (h.sends.1 hk)).1
  simpa using (distinct.subperm inside).length_le

/-- The path of senders from a process. -/
theorem path (h : Posted cfg s P) (d : Nat) : ∃ l, Listed (s.awaits cfg) (some d) (d :: l) ∧ l.length ≤ cfg.endProcAddr := by
  obtain ⟨l, hl⟩ := h.ending d
  cases l with
  | nil => cases hl
  | cons x l =>
    obtain rfl := Option.some.inj hl.1
    refine ⟨l, hl, Nat.le_of_succ_le_succ (hl.length_le fun k _ sends => ?_)⟩
    by_contra outside
    apply sends
    exact awaits_of_not_sending fun sending => outside (h.inside sending)

/-- Nothing that the exchange of messages reads has changed. -/
theorem congr (h : Posted cfg s P) (same : ∀ k, SameText (s.proc k) (t.proc k))
    (callerq : ∀ k, (t.proc k).callerq = (s.proc k).callerq) (sendlink : ∀ k, (t.proc k).sendlink = (s.proc k).sendlink) :
    Posted cfg t P where
  number k := (same k).nr.trans (h.number k)
  queued := by
    have links : t.sendlinks = s.sendlinks := funext sendlink
    refine ⟨fun d => ?_, h.queued.once⟩
    rw [links, callerq]
    exact h.queued.listed d
  sends := by
    intro d k
    rw [awaits_congr (same k)]
    exact h.sends
  text he := by
    rw [(same _).messbuf]
    exact h.text he
  ending := by
    rw [show t.awaits cfg = s.awaits cfg from funext fun k => awaits_congr (same k)]
    exact h.ending
  inside sending := h.inside ((same _).sending.1 sending)
  target {k} sending := by
    rw [(same k).sendto]
    exact h.target ((same k).sending.1 sending)
  waiting d := by
    rw [h.waiting, (same d).getfrom]
    by_cases receiving : .receiving ∈ (s.proc d).flags
    · rw [if_pos receiving, if_pos ((same d).receiving.2 receiving)]
    · rw [if_neg receiving, if_neg (mt (same d).receiving.1 receiving)]
  inbox he := by
    rw [(same _).messbuf]
    exact h.inbox he
  attentive := h.attentive
  both {d} receiving sending := by
    rw [(same d).getfrom, (same d).sendto]
    exact h.both ((same d).receiving.1 receiving) ((same d).sending.1 sending)
  alert {d} receiving running hardware := by
    rw [(same d).getfrom] at hardware
    rw [(same d).intBlocked]
    exact h.alert ((same d).receiving.1 receiving) (mt (same d).sending.2 running) hardware

theorem update (h : Posted cfg s P) (same : SameText (s.proc k) (f (s.proc k)))
    (callerq : (f (s.proc k)).callerq = (s.proc k).callerq) (sendlink : (f (s.proc k)).sendlink = (s.proc k).sendlink) :
    Posted cfg (s.update k f) P := by
  refine h.congr (fun j => ?_) (update_field Proc.callerq callerq) (update_field Proc.sendlink sendlink)
  by_cases hj : j = k
  · subst hj
    rw [update_proc_self]
    exact same
  · rw [update_proc_ne hj]
    exact .refl _

/-- **The queues of senders are the same**, with the messages in them; what else the protocol is about may have
changed. -/
theorem reposted {P' : Mail} (h : Posted cfg s P) (queue : P'.queue = P.queue) (nr : ∀ j, (t.proc j).nr = (s.proc j).nr)
    (callerq : ∀ j, (t.proc j).callerq = (s.proc j).callerq)
    (sending : ∀ j, .sending ∈ (t.proc j).flags ↔ .sending ∈ (s.proc j).flags)
    (sendlink : ∀ j, .sending ∈ (s.proc j).flags → (t.proc j).sendlink = (s.proc j).sendlink)
    (sendto : ∀ j, .sending ∈ (s.proc j).flags → (t.proc j).sendto = (s.proc j).sendto)
    (messbuf : ∀ j, .sending ∈ (s.proc j).flags → (t.proc j).messbuf = (s.proc j).messbuf)
    (waiting : ∀ d, P'.waiting d = if .receiving ∈ (t.proc d).flags then some (t.proc d).getfrom else none)
    (inbox : ∀ d e, P'.inbox d = some e → (t.proc d).messbuf = ⟨e.1 - cfg.NR_TASKS, e.2⟩)
    (attentive : P'.Attentive cfg.accepts)
    (both : ∀ d, .receiving ∈ (t.proc d).flags → .sending ∈ (s.proc d).flags → (t.proc d).getfrom = (s.proc d).sendto)
    (alert : ∀ d, .receiving ∈ (t.proc d).flags → .sending ∉ (s.proc d).flags → isRxHardware (t.proc d).getfrom →
      (t.proc d).intBlocked = false) : Posted cfg t P' := by
  have awaits : t.awaits cfg = s.awaits cfg := by
    funext j
    by_cases hj : .sending ∈ (s.proc j).flags
    · rw [awaits_of_sending hj, awaits_of_sending ((sending j).2 hj), sendto j hj]
    · rw [awaits_of_not_sending hj, awaits_of_not_sending (mt (sending j).1 hj)]
  constructor
  case number => exact fun j => (nr j).trans (h.number j)
  case queued =>
    rw [queue]
    refine ⟨fun d => ?_, h.queued.once⟩
    rw [callerq]
    exact (h.queued.listed d).congr fun k hk => sendlink k (awaits_iff.1 (h.sends.1 hk)).1
  case sends =>
    rw [queue, awaits]
    exact h.sends
  case text =>
    intro d e he
    rw [queue] at he
    rw [messbuf e.1 (h.blocked_iff.1 ⟨d, e, he, rfl⟩)]
    exact h.text he
  case ending =>
    rw [awaits]
    exact h.ending
  case inside => exact fun hj => h.inside ((sending _).1 hj)
  case target =>
    intro j hj
    have hj := (sending j).1 hj
    rw [sendto j hj]
    exact h.target hj
  case waiting => exact waiting
  case inbox => exact fun he => inbox _ _ he
  case attentive => exact attentive
  case both =>
    intro d hr hs
    have hs := (sending d).1 hs
    rw [sendto d hs]
    exact both d hr hs
  case alert => exact fun hr hs hardware => alert _ hr (fun old => hs ((sending _).2 old)) hardware

/-- **A message is handed over** to `d`, which waits for it. -/
theorem hand (h : Posted cfg s P) (free : .sending ∉ (s.proc k).flags) (open_ : .sending ∉ (s.proc d).flags)
    (waits : .receiving ∈ (s.proc d).flags) (ok : cfg.accepts (s.proc d).getfrom k)
    (others : ∀ j, j ≠ d → t.proc j = s.proc j) (nr : (t.proc d).nr = (s.proc d).nr)
    (callerq : (t.proc d).callerq = (s.proc d).callerq) (sendlink : (t.proc d).sendlink = (s.proc d).sendlink)
    (flags : (t.proc d).flags = (s.proc d).flags.erase .receiving) (messbuf : (t.proc d).messbuf = ⟨k - cfg.NR_TASKS, a⟩) :
    P.Step cfg.accepts (.hand k d a) (P.deliver k d a) ∧ Posted cfg t (P.deliver k d a) := by
  have step : P.Step cfg.accepts (.hand k d a) (P.deliver k d a) :=
    .hand (mt h.blocked_iff.1 free) (mt h.blocked_iff.1 open_) (h.waiting_some.2 ⟨waits, rfl⟩) ok
  have field {β : Type} (g : Proc → β) (here : g (t.proc d) = g (s.proc d)) (j : Nat) : g (t.proc j) = g (s.proc j) := by
    by_cases hj : j = d
    · rw [hj, here]
    · rw [others j hj]
  have apart {j : Nat} (sending : .sending ∈ (s.proc j).flags) : t.proc j = s.proc j := by
    refine others j ?_
    rintro rfl
    exact open_ sending
  have still {j : Nat} (receiving : .receiving ∈ (t.proc j).flags) : t.proc j = s.proc j := by
    refine others j ?_
    rintro rfl
    rw [flags] at receiving
    exact Finset.notMem_erase _ _ receiving
  refine ⟨step, h.reposted rfl (field Proc.nr nr) (field Proc.callerq callerq) (fun j => ?_) (fun j _ => field Proc.sendlink sendlink j)
    (fun j hj => by rw [apart hj]) (fun j hj => by rw [apart hj]) (fun j => ?_) (fun j e he => ?_) (step.attentive h.attentive)
    (fun j hr hs => ?_) fun j hr hs hardware => ?_⟩
  · by_cases hj : j = d
    · subst hj
      rw [flags]
      simp
    · rw [others j hj]
  · dsimp only [Post.deliver]
    by_cases hj : j = d
    · subst hj
      rw [Function.update_self, flags, if_neg (Finset.notMem_erase _ _)]
    · rw [Function.update_of_ne hj, others j hj]
      exact h.waiting j
  · dsimp only [Post.deliver] at he
    by_cases hj : j = d
    · subst hj
      rw [Function.update_self] at he
      obtain rfl := Option.some.inj he
      exact messbuf
    · rw [Function.update_of_ne hj] at he
      rw [others j hj]
      exact h.inbox he
  · have same := still hr
    rw [same] at hr ⊢
    exact h.both hr hs
  · have same := still hr
    rw [same] at hr hardware ⊢
    exact h.alert hr hs hardware

/-- **A sender is blocked** and joins the queue of `d`. -/
theorem post (h : Posted cfg s P) (free : .sending ∉ (s.proc k).flags) (awake : .receiving ∉ (s.proc k).flags)
    (inside : k < cfg.endProcAddr) (notWaits : ∀ src, P.waiting d = some src → ¬ cfg.accepts src k)
    (path : Listed (s.awaits cfg) (some d) l) (apart : k ∉ l)
    (queued : Queued t (Function.update (fun d => (P.queue d).map Prod.fst) d ((P.queue d).map Prod.fst ++ [k])))
    (others : ∀ j, j ≠ k → SameText (s.proc j) (t.proc j)) (nr : (t.proc k).nr = (s.proc k).nr)
    (flags : (t.proc k).flags = insert .sending (s.proc k).flags) (messbuf : (t.proc k).messbuf = m)
    (sendto : 0 ≤ (t.proc k).sendto + cfg.NR_TASKS) (slot : cfg.procAddr (t.proc k).sendto = d)
    (there : d < cfg.endProcAddr) :
    P.Step cfg.accepts (.post k d m.mType) (P.enqueue k d m.mType) ∧ Posted cfg t (P.enqueue k d m.mType) := by
  have step : P.Step cfg.accepts (.post k d m.mType) (P.enqueue k d m.mType) := .post (mt h.blocked_iff.1 free) notWaits
  have sends : .sending ∈ (t.proc k).flags := by
    rw [flags]
    exact Finset.mem_insert_self ..
  have notReceiving : .receiving ∉ (t.proc k).flags := by
    rw [flags]
    simp [awake]
  have awaits : t.awaits cfg = Function.update (s.awaits cfg) k (some d) := by
    funext j
    by_cases hj : j = k
    · subst hj
      rw [Function.update_self, awaits_of_sending sends, slot]
    · rw [Function.update_of_ne hj]
      exact awaits_congr (others j hj)
  have lists : (fun d' => ((P.enqueue k d m.mType).queue d').map Prod.fst) =
      Function.update (fun d => (P.queue d).map Prod.fst) d ((P.queue d).map Prod.fst ++ [k]) := by
    funext d'
    dsimp only [Post.enqueue]
    by_cases hd : d' = d
    · subst hd
      rw [Function.update_self, Function.update_self, List.map_append]
      rfl
    · rw [Function.update_of_ne hd, Function.update_of_ne hd]
  refine ⟨step, ?_⟩
  constructor
  case number =>
    intro j
    by_cases hj : j = k
    · rw [hj, nr]
      exact h.number k
    · exact (others j hj).nr.trans (h.number j)
  case queued =>
    rw [lists]
    exact queued
  case sends =>
    intro d' j
    rw [show ((P.enqueue k d m.mType).queue d').map Prod.fst = _ from congrFun lists d', awaits]
    by_cases hj : j = k
    · subst hj
      have absent (d' : Nat) : j ∉ (P.queue d').map Prod.fst := fun again => free (awaits_iff.1 (h.sends.1 again)).1
      rw [Function.update_self, Option.some.injEq]
      by_cases hd : d' = d
      · subst hd
        simp
      · rw [Function.update_of_ne hd]
        exact ⟨fun again => absurd again (absent d'), fun same => absurd same.symm hd⟩
    · rw [Function.update_of_ne hj, ← h.sends]
      by_cases hd : d' = d
      · subst hd
        rw [Function.update_self, List.mem_append, List.mem_singleton]
        exact ⟨fun both => both.resolve_right hj, .inl⟩
      · rw [Function.update_of_ne hd]
  case text =>
    intro d' e he
    dsimp only [Post.enqueue] at he
    have old {i : Nat} (mem : e ∈ P.queue i) : (t.proc e.1).messbuf.mType = e.2 := by
      have ne : e.1 ≠ k := fun same => free (h.blocked_iff.1 ⟨i, e, mem, same⟩)
      rw [(others e.1 ne).messbuf]
      exact h.text mem
    by_cases hd : d' = d
    · subst hd
      rw [Function.update_self, List.mem_append, List.mem_singleton] at he
      rcases he with he | rfl
      · exact old he
      · exact congrArg Message.mType messbuf
    · rw [Function.update_of_ne hd] at he
      exact old he
  case ending =>
    rw [awaits]
    exact h.ending.link (awaits_of_not_sending free) path apart
  case inside =>
    intro j hj
    by_cases same : j = k
    · exact same ▸ inside
    · exact h.inside ((others j same).sending.1 hj)
  case target =>
    intro j hj
    by_cases same : j = k
    · subst same
      exact ⟨sendto, slot ▸ there⟩
    · rw [(others j same).sendto]
      exact h.target ((others j same).sending.1 hj)
  case waiting =>
    intro j
    show P.waiting j = _
    rw [h.waiting]
    by_cases hj : j = k
    · subst hj
      rw [if_neg awake, if_neg notReceiving]
    · rw [(others j hj).getfrom]
      by_cases receiving : .receiving ∈ (s.proc j).flags
      · rw [if_pos receiving, if_pos ((others j hj).receiving.2 receiving)]
      · rw [if_neg receiving, if_neg (mt (others j hj).receiving.1 receiving)]
  case inbox =>
    intro j e he
    dsimp only [Post.enqueue] at he
    by_cases hj : j = k
    · subst hj
      rw [Function.update_self] at he
      cases he
    · rw [Function.update_of_ne hj] at he
      rw [(others j hj).messbuf]
      exact h.inbox he
  case attentive => exact step.attentive h.attentive
  case both =>
    intro j receiving hj
    have ne : j ≠ k := by
      rintro rfl
      exact notReceiving receiving
    rw [(others j ne).getfrom, (others j ne).sendto]
    exact h.both ((others j ne).receiving.1 receiving) ((others j ne).sending.1 hj)
  case alert =>
    intro j receiving running hardware
    have ne : j ≠ k := by
      rintro rfl
      exact notReceiving receiving
    rw [(others j ne).getfrom] at hardware
    rw [(others j ne).intBlocked]
    exact h.alert ((others j ne).receiving.1 receiving) (mt (others j ne).sending.2 running) hardware

/-- **A sender leaves** the queue of `d`. -/
theorem release {before after : List (Nat × Int)} {P' : Mail} (h : Posted cfg s P) (split : P.queue d = before ++ (k, a) :: after)
    (queue : P'.queue = Function.update P.queue d (before ++ after))
    (queued : Queued t (Function.update (fun d => (P.queue d).map Prod.fst) d ((before ++ after).map Prod.fst)))
    (nr : ∀ j, (t.proc j).nr = (s.proc j).nr)
    (sending : ∀ j, .sending ∈ (t.proc j).flags ↔ .sending ∈ (s.proc j).flags ∧ j ≠ k)
    (sendto : ∀ j, .sending ∈ (s.proc j).flags → j ≠ k → (t.proc j).sendto = (s.proc j).sendto)
    (messbuf : ∀ j, .sending ∈ (s.proc j).flags → j ≠ k → (t.proc j).messbuf = (s.proc j).messbuf)
    (waiting : ∀ d, P'.waiting d = if .receiving ∈ (t.proc d).flags then some (t.proc d).getfrom else none)
    (inbox : ∀ d e, P'.inbox d = some e → (t.proc d).messbuf = ⟨e.1 - cfg.NR_TASKS, e.2⟩)
    (attentive : P'.Attentive cfg.accepts)
    (both : ∀ d, .receiving ∈ (t.proc d).flags → .sending ∈ (s.proc d).flags → d ≠ k → (t.proc d).getfrom = (s.proc d).sendto)
    (alert : ∀ d, .receiving ∈ (t.proc d).flags → .sending ∉ (t.proc d).flags → isRxHardware (t.proc d).getfrom →
      (t.proc d).intBlocked = false) : Posted cfg t P' := by
  have here : k ∈ (P.queue d).map Prod.fst := by
    rw [split]
    simp
  have distinct : ((P.queue d).map Prod.fst).Nodup := (h.queued.listed d).nodup
  have gone {x : Nat} : x ∈ (before ++ after).map Prod.fst ↔ x ∈ (P.queue d).map Prod.fst ∧ x ≠ k := by
    rw [split, List.map_append, List.map_cons, List.nodup_append, List.nodup_cons] at distinct
    obtain ⟨-, ⟨notAfter, -⟩, apart⟩ := distinct
    rw [split, List.map_append, List.map_append, List.map_cons, List.mem_append, List.mem_append, List.mem_cons]
    constructor
    · rintro (early | late)
      · exact ⟨.inl early, apart x early k List.mem_cons_self⟩
      · refine ⟨.inr (.inr late), ?_⟩
        rintro rfl
        exact notAfter late
    · rintro ⟨early | same | late, other⟩
      · exact .inl early
      · exact absurd same other
      · exact .inr late
  have awaits : t.awaits cfg = Function.update (s.awaits cfg) k none := by
    funext j
    by_cases hk : j = k
    · subst hk
      rw [Function.update_self, awaits_of_not_sending (mt (sending j).1 fun both => both.2 rfl)]
    · rw [Function.update_of_ne hk]
      by_cases hj : .sending ∈ (s.proc j).flags
      · rw [awaits_of_sending hj, awaits_of_sending ((sending j).2 ⟨hj, hk⟩), sendto j hj hk]
      · rw [awaits_of_not_sending hj, awaits_of_not_sending (mt (sending j).1 fun both => hj both.1)]
  have lists : (fun d' => (P'.queue d').map Prod.fst) =
      Function.update (fun d => (P.queue d).map Prod.fst) d ((before ++ after).map Prod.fst) := by
    rw [queue]
    funext d'
    by_cases hd : d' = d
    · subst hd
      rw [Function.update_self, Function.update_self]
    · rw [Function.update_of_ne hd, Function.update_of_ne hd]
  have member (d' j : Nat) : j ∈ (P'.queue d').map Prod.fst ↔ t.awaits cfg j = some d' := by
    rw [show (P'.queue d').map Prod.fst = _ from congrFun lists d', awaits]
    by_cases hd : d' = d
    · subst hd
      rw [Function.update_self, gone, h.sends]
      by_cases hk : j = k
      · subst hk
        simp
      · rw [Function.update_of_ne hk]
        simp [hk]
    · rw [Function.update_of_ne hd, h.sends]
      by_cases hk : j = k
      · subst hk
        rw [Function.update_self, h.sends.1 here]
        simp [Ne.symm hd]
      · rw [Function.update_of_ne hk]
  constructor
  case number => exact fun j => (nr j).trans (h.number j)
  case queued =>
    rw [lists]
    exact queued
  case sends => exact fun {d' j} => member d' j
  case text =>
    intro d' e he
    obtain ⟨old, hk⟩ := (sending e.1).1 (awaits_iff.1 ((member d' e.1).1 (List.mem_map_of_mem he))).1
    rw [messbuf e.1 old hk]
    rw [queue] at he
    by_cases hd : d' = d
    · subst hd
      rw [Function.update_self, List.mem_append] at he
      apply h.text (d := d')
      rw [split, List.mem_append, List.mem_cons]
      exact he.imp_right .inr
    · rw [Function.update_of_ne hd] at he
      exact h.text he
  case ending =>
    rw [awaits]
    exact h.ending.unlink k
  case inside => exact fun hj => h.inside ((sending _).1 hj).1
  case target =>
    intro j hj
    obtain ⟨old, hk⟩ := (sending j).1 hj
    rw [sendto j old hk]
    exact h.target old
  case waiting => exact waiting
  case inbox => exact fun he => inbox _ _ he
  case attentive => exact attentive
  case both =>
    intro j hr hs
    obtain ⟨old, hk⟩ := (sending j).1 hs
    rw [sendto j old hk]
    exact both j hr old hk
  case alert => exact fun hr hs hardware => alert _ hr hs hardware

/-- **A message is taken** from the queue of `d`, and its sender is deblocked. -/
theorem take {before after : List (Nat × Int)} (h : Posted cfg s P) (open_ : .sending ∉ (s.proc d).flags)
    (awake : .receiving ∉ (s.proc d).flags) (split : P.queue d = before ++ (k, a) :: after) (ok : cfg.accepts src k)
    (earlier : ∀ e ∈ before, ¬ cfg.accepts src e.1) (notHardware : isRxHardware (d - cfg.NR_TASKS) = false)
    (queued : Queued t (Function.update (fun d => (P.queue d).map Prod.fst) d ((before ++ after).map Prod.fst)))
    (others : ∀ j, j ≠ d → j ≠ k → SameText (s.proc j) (t.proc j)) (nr : ∀ j, (t.proc j).nr = (s.proc j).nr)
    (flags : (t.proc d).flags = (s.proc d).flags) (messbuf : (t.proc d).messbuf = ⟨k - cfg.NR_TASKS, a⟩)
    (released : (t.proc k).flags = (s.proc k).flags.erase .sending) (getfrom : (t.proc k).getfrom = (s.proc k).getfrom)
    (intBlocked : (t.proc k).intBlocked = (s.proc k).intBlocked) (kept : (t.proc k).messbuf = (s.proc k).messbuf) :
    P.Step cfg.accepts (.take k d a) (P.dequeue k d a (before ++ after)) ∧
      Posted cfg t (P.dequeue k d a (before ++ after)) := by
  have here : k ∈ (P.queue d).map Prod.fst := by
    rw [split]
    simp
  obtain ⟨sends, slot⟩ := awaits_iff.1 (h.sends.1 here)
  have step : P.Step cfg.accepts (.take k d a) (P.dequeue k d a (before ++ after)) :=
    .take (mt h.blocked_iff.1 open_) (h.waiting_none.2 awake) split ok earlier
  have apart {j : Nat} (hj : .sending ∈ (s.proc j).flags) : j ≠ d := by
    rintro rfl
    exact open_ hj
  have busy {j : Nat} (hj : .receiving ∈ (s.proc j).flags) : j ≠ d := by
    rintro rfl
    exact awake hj
  have sending (j : Nat) : .sending ∈ (t.proc j).flags ↔ .sending ∈ (s.proc j).flags ∧ j ≠ k := by
    by_cases hk : j = k
    · subst hk
      rw [released]
      simp
    · by_cases hd : j = d
      · subst hd
        rw [flags]
        simp [hk]
      · rw [(others j hd hk).sending]
        simp [hk]
  have receiving (j : Nat) : .receiving ∈ (t.proc j).flags ↔ .receiving ∈ (s.proc j).flags := by
    by_cases hk : j = k
    · subst hk
      rw [released]
      simp
    · by_cases hd : j = d
      · rw [hd, flags]
      · exact (others j hd hk).receiving
  have fetched {j : Nat} (hj : .receiving ∈ (s.proc j).flags) : (t.proc j).getfrom = (s.proc j).getfrom := by
    by_cases hk : j = k
    · rw [hk, getfrom]
    · exact (others j (busy hj) hk).getfrom
  refine ⟨step, h.release split rfl queued nr sending (fun j hj hk => (others j (apart hj) hk).sendto)
    (fun j hj hk => (others j (apart hj) hk).messbuf) (fun j => ?_) (fun j e he => ?_) (step.attentive h.attentive)
    (fun j hr hs hk => ?_) fun j hr hs hardware => ?_⟩
  · show P.waiting j = _
    rw [h.waiting]
    by_cases hj : .receiving ∈ (s.proc j).flags
    · rw [if_pos hj, if_pos ((receiving j).2 hj), fetched hj]
    · rw [if_neg hj, if_neg (mt (receiving j).1 hj)]
  · dsimp only [Post.dequeue] at he
    by_cases hd : j = d
    · subst hd
      rw [Function.update_self] at he
      obtain rfl := Option.some.inj he
      exact messbuf
    · rw [Function.update_of_ne hd] at he
      by_cases hk : j = k
      · rw [hk] at he ⊢
        rw [kept]
        exact h.inbox he
      · rw [(others j hd hk).messbuf]
        exact h.inbox he
  · have hr := (receiving j).1 hr
    rw [fetched hr]
    exact h.both hr hs
  · have hr := (receiving j).1 hr
    rw [fetched hr] at hardware
    by_cases hk : j = k
    · -- the sender waited for an answer of `d`, which is not the hardware
      rw [hk] at hr hardware
      rw [h.both hr sends] at hardware
      have number : (s.proc k).sendto = d - cfg.NR_TASKS := by
        have := (h.target sends).1
        unfold Config.procAddr at slot
        omega
      rw [number, notHardware] at hardware
      cases hardware
    · rw [(others j (busy hr) hk).intBlocked]
      exact h.alert hr (fun old => hs ((sending j).2 ⟨old, hk⟩)) hardware

/-- **A blocked sender goes away**, and its message with it. -/
theorem leave {before after : List (Nat × Int)} (h : Posted cfg s P) (split : P.queue d = before ++ (k, a) :: after)
    (queued : Queued t (Function.update (fun d => (P.queue d).map Prod.fst) d ((before ++ after).map Prod.fst)))
    (others : ∀ j, j ≠ k → SameText (s.proc j) (t.proc j)) (nr : (t.proc k).nr = (s.proc k).nr)
    (messbuf : (t.proc k).messbuf = (s.proc k).messbuf) (flags : (t.proc k).flags = ∅) :
    Passes cfg P Post.nothing ((P.requeue d (before ++ after)).forget k) ∧
      Posted cfg t ((P.requeue d (before ++ after)).forget k) := by
  have first : ∀ e ∈ before, e.1 ≠ k := by
    intro e he same
    have distinct : ((P.queue d).map Prod.fst).Nodup := (h.queued.listed d).nodup
    rw [split, List.map_append, List.map_cons, List.nodup_append] at distinct
    exact distinct.2.2 e.1 (List.mem_map_of_mem he) k List.mem_cons_self same
  have passes : Passes cfg P Post.nothing ((P.requeue d (before ++ after)).forget k) :=
    (Post.Passes.withdraw (.withdraw split first)).silently (.forget .forget)
  have away {x : Flag} : x ∉ (t.proc k).flags := by
    rw [flags]
    exact Finset.notMem_empty x
  have other {j : Nat} (hr : .receiving ∈ (t.proc j).flags) : SameText (s.proc j) (t.proc j) := by
    refine others j ?_
    rintro rfl
    exact away hr
  have buffers (j : Nat) : (t.proc j).messbuf = (s.proc j).messbuf := by
    by_cases hk : j = k
    · rw [hk, messbuf]
    · exact (others j hk).messbuf
  refine ⟨passes, h.release split rfl queued (fun j => ?_) (fun j => ?_) (fun j _ hk => (others j hk).sendto)
    (fun j _ _ => buffers j) (fun j => ?_) (fun j e he => by rw [buffers]; exact h.inbox he) (passes.attentive h.attentive)
    (fun j hr hs hk => ?_) fun j hr hs hardware => ?_⟩
  · by_cases hk : j = k
    · rw [hk, nr]
    · exact (others j hk).nr
  · by_cases hk : j = k
    · rw [hk]
      exact iff_of_false away fun both => both.2 rfl
    · rw [(others j hk).sending]
      simp [hk]
  · dsimp only [Post.forget, Post.requeue]
    by_cases hk : j = k
    · subst hk
      rw [Function.update_self, if_neg away]
    · rw [Function.update_of_ne hk, h.waiting, (others j hk).getfrom]
      simp only [(others j hk).receiving]
  · have same := other hr
    rw [same.getfrom]
    exact h.both (same.receiving.1 hr) hs
  · have same := other hr
    rw [same.getfrom] at hardware
    rw [same.intBlocked]
    exact h.alert (same.receiving.1 hr) (mt same.sending.2 hs) hardware

/-- **A process waits** for a message that is not in its queue. -/
theorem wait (h : Posted cfg s P) (awake : .receiving ∉ (s.proc d).flags)
    (nobody : ∀ k ∈ (P.queue d).map Prod.fst, ¬ cfg.accepts src k)
    (answer : .sending ∈ (s.proc d).flags → src = (s.proc d).sendto)
    (calm : .sending ∉ (s.proc d).flags → isRxHardware src → (s.proc d).intBlocked = false)
    (others : ∀ j, j ≠ d → SameText (s.proc j) (t.proc j)) (callerq : ∀ j, (t.proc j).callerq = (s.proc j).callerq)
    (sendlink : ∀ j, (t.proc j).sendlink = (s.proc j).sendlink) (nr : (t.proc d).nr = (s.proc d).nr)
    (sendto : (t.proc d).sendto = (s.proc d).sendto) (messbuf : (t.proc d).messbuf = (s.proc d).messbuf)
    (intBlocked : (t.proc d).intBlocked = (s.proc d).intBlocked) (getfrom : (t.proc d).getfrom = src)
    (flags : (t.proc d).flags = insert .receiving (s.proc d).flags) :
    P.Step cfg.accepts (.wait d) (P.await d src) ∧ Posted cfg t (P.await d src) := by
  have step : P.Step cfg.accepts (.wait d) (P.await d src) :=
    .wait (h.waiting_none.2 awake) fun e he => nobody e.1 (List.mem_map_of_mem he)
  have waits : .receiving ∈ (t.proc d).flags := by
    rw [flags]
    exact Finset.mem_insert_self ..
  have field {β : Type} (g : Proc → β) (here : g (t.proc d) = g (s.proc d)) (apart : ∀ j, j ≠ d → g (t.proc j) = g (s.proc j))
      (j : Nat) : g (t.proc j) = g (s.proc j) := by
    by_cases hj : j = d
    · rw [hj, here]
    · exact apart j hj
  have buffers := field Proc.messbuf messbuf fun j hj => (others j hj).messbuf
  refine ⟨step, h.reposted rfl (field Proc.nr nr fun j hj => (others j hj).nr) callerq (fun j => ?_) (fun j _ => sendlink j)
    (fun j _ => field Proc.sendto sendto (fun j hj => (others j hj).sendto) j) (fun j _ => buffers j) (fun j => ?_)
    (fun j e he => by rw [buffers]; exact h.inbox he) (step.attentive h.attentive) (fun j hr hs => ?_) fun j hr hs hardware => ?_⟩
  · by_cases hd : j = d
    · subst hd
      rw [flags]
      simp
    · exact (others j hd).sending
  · dsimp only [Post.await]
    by_cases hd : j = d
    · subst hd
      rw [Function.update_self, if_pos waits, getfrom]
    · rw [Function.update_of_ne hd, h.waiting, (others j hd).getfrom]
      simp only [(others j hd).receiving]
  · by_cases hd : j = d
    · subst hd
      rw [getfrom]
      exact answer hs
    · rw [(others j hd).getfrom]
      exact h.both ((others j hd).receiving.1 hr) hs
  · by_cases hd : j = d
    · subst hd
      rw [getfrom] at hardware
      rw [intBlocked]
      exact calm hs hardware
    · rw [(others j hd).getfrom] at hardware
      rw [(others j hd).intBlocked]
      exact h.alert ((others j hd).receiving.1 hr) hs hardware

/-- The buffer of `d` and its mark of a held interrupt are overwritten. -/
theorem rebuffer {b : Message} {c : Bool} {i : Option (Nat × Int)} (h : Posted cfg s P)
    (kept : b = (s.proc d).messbuf ∨ .sending ∉ (s.proc d).flags)
    (received : ∀ e, i = some e → b = ⟨e.1 - cfg.NR_TASKS, e.2⟩)
    (calm : .receiving ∈ (s.proc d).flags → .sending ∉ (s.proc d).flags → isRxHardware (s.proc d).getfrom → c = false) :
    Posted cfg (s.update d fun p => { p with messbuf := b, intBlocked := c })
      { P with inbox := Function.update P.inbox d i } := by
  have same {β : Type} (g : Proc → β) (kept : ∀ p, g { p with messbuf := b, intBlocked := c } = g p) (j : Nat) :
      g ((s.update d fun p => { p with messbuf := b, intBlocked := c }).proc j) = g (s.proc j) :=
    update_field g (kept _) j
  have flags := same Proc.flags fun _ => rfl
  have getfrom := same Proc.getfrom fun _ => rfl
  refine h.reposted rfl (same Proc.nr fun _ => rfl) (same Proc.callerq fun _ => rfl) (fun j => by rw [flags])
    (fun j _ => same Proc.sendlink (fun _ => rfl) j) (fun j _ => same Proc.sendto (fun _ => rfl) j) (fun j hj => ?_)
    (fun j => by rw [flags, getfrom]; exact h.waiting j) (fun j e he => ?_) h.attentive (fun j hr hs => ?_)
    fun j hr hs hardware => ?_
  · by_cases hd : j = d
    · subst hd
      rw [update_proc_self]
      exact kept.resolve_right (not_not.2 hj)
    · rw [update_proc_ne hd]
  · dsimp only at he
    by_cases hd : j = d
    · subst hd
      rw [Function.update_self] at he
      rw [update_proc_self]
      exact received e he
    · rw [Function.update_of_ne hd] at he
      rw [update_proc_ne hd]
      exact h.inbox he
  · rw [flags] at hr
    rw [getfrom]
    exact h.both hr hs
  · rw [flags] at hr
    rw [getfrom] at hardware
    by_cases hd : j = d
    · subst hd
      rw [update_proc_self]
      exact calm hr hs hardware
    · rw [update_proc_ne hd]
      exact h.alert hr hs hardware

/-- **A process no longer waits**, and gets nothing. -/
theorem forget (h : Posted cfg s P) (others : ∀ j, j ≠ d → SameText (s.proc j) (t.proc j))
    (callerq : ∀ j, (t.proc j).callerq = (s.proc j).callerq) (sendlink : ∀ j, (t.proc j).sendlink = (s.proc j).sendlink)
    (nr : (t.proc d).nr = (s.proc d).nr) (sendto : (t.proc d).sendto = (s.proc d).sendto)
    (messbuf : (t.proc d).messbuf = (s.proc d).messbuf)
    (sending : .sending ∈ (t.proc d).flags ↔ .sending ∈ (s.proc d).flags) (awake : .receiving ∉ (t.proc d).flags) :
    Posted cfg t (P.forget d) := by
  have step : P.Step cfg.accepts (.forget d) (P.forget d) := .forget
  have field {β : Type} (g : Proc → β) (here : g (t.proc d) = g (s.proc d)) (apart : ∀ j, j ≠ d → g (t.proc j) = g (s.proc j))
      (j : Nat) : g (t.proc j) = g (s.proc j) := by
    by_cases hj : j = d
    · rw [hj, here]
    · exact apart j hj
  have buffers := field Proc.messbuf messbuf fun j hj => (others j hj).messbuf
  have other {j : Nat} (hr : .receiving ∈ (t.proc j).flags) : SameText (s.proc j) (t.proc j) := by
    refine others j ?_
    rintro rfl
    exact awake hr
  refine h.reposted rfl (field Proc.nr nr fun j hj => (others j hj).nr) callerq (fun j => ?_) (fun j _ => sendlink j)
    (fun j _ => field Proc.sendto sendto (fun j hj => (others j hj).sendto) j) (fun j _ => buffers j) (fun j => ?_)
    (fun j e he => by rw [buffers]; exact h.inbox he) (step.attentive h.attentive) (fun j hr hs => ?_) fun j hr hs hardware => ?_
  · by_cases hd : j = d
    · rw [hd]
      exact sending
    · exact (others j hd).sending
  · dsimp only [Post.forget]
    by_cases hd : j = d
    · subst hd
      rw [Function.update_self, if_neg awake]
    · rw [Function.update_of_ne hd, h.waiting, (others j hd).getfrom]
      simp only [(others j hd).receiving]
  · have same := other hr
    rw [same.getfrom]
    exact h.both (same.receiving.1 hr) hs
  · have same := other hr
    rw [same.getfrom] at hardware
    rw [same.intBlocked]
    exact h.alert (same.receiving.1 hr) hs hardware

/-- **A process is new** in slot `d`: nobody sends to it yet, and it waits as `p`, which it is a copy of. -/
theorem enter {p : Nat} (h : Posted cfg s P) (free : .sending ∉ (s.proc d).flags) (nobody : (s.proc d).callerq = none)
    (others : ∀ j, j ≠ d → t.proc j = s.proc j) (nr : (t.proc d).nr = (s.proc d).nr) (callerq : (t.proc d).callerq = none)
    (sending : .sending ∉ (t.proc d).flags) (open_ : .sending ∉ (s.proc p).flags)
    (receiving : .receiving ∈ (t.proc d).flags → .receiving ∈ (s.proc p).flags)
    (getfrom : (t.proc d).getfrom = (s.proc p).getfrom) (intBlocked : (t.proc d).intBlocked = (s.proc p).intBlocked) :
    Passes cfg P Post.nothing (P.enter d (if .receiving ∈ (t.proc d).flags then some (t.proc d).getfrom else none)) ∧
      Posted cfg t (P.enter d (if .receiving ∈ (t.proc d).flags then some (t.proc d).getfrom else none)) := by
  have empty : P.queue d = [] := by
    have head := h.queued.head d
    rw [nobody] at head
    exact List.map_eq_nil_iff.1 (List.head?_eq_none_iff.1 head.symm)
  have step : P.Step cfg.accepts (.enter d)
      (P.enter d (if .receiving ∈ (t.proc d).flags then some (t.proc d).getfrom else none)) :=
    .enter (mt h.blocked_iff.1 free) empty
  have apart {j : Nat} (hj : .sending ∈ (s.proc j).flags) : t.proc j = s.proc j := by
    refine others j ?_
    rintro rfl
    exact free hj
  have field {β : Type} (g : Proc → β) (here : g (t.proc d) = g (s.proc d)) (j : Nat) : g (t.proc j) = g (s.proc j) := by
    by_cases hj : j = d
    · rw [hj, here]
    · rw [others j hj]
  refine ⟨.enter step, h.reposted rfl (field Proc.nr nr) (field Proc.callerq (callerq.trans nobody.symm)) (fun j => ?_)
    (fun j hj => by rw [apart hj]) (fun j hj => by rw [apart hj]) (fun j hj => by rw [apart hj]) (fun j => ?_) (fun j e he => ?_)
    (step.attentive h.attentive) (fun j hr hs => ?_) fun j hr hs hardware => ?_⟩
  · by_cases hd : j = d
    · rw [hd]
      exact iff_of_false sending free
    · rw [others j hd]
  · dsimp only [Post.enter]
    by_cases hd : j = d
    · subst hd
      rw [Function.update_self]
    · rw [Function.update_of_ne hd, others j hd]
      exact h.waiting j
  · dsimp only [Post.enter] at he
    by_cases hd : j = d
    · subst hd
      rw [Function.update_self] at he
      cases he
    · rw [Function.update_of_ne hd] at he
      rw [others j hd]
      exact h.inbox he
  · have same := apart hs
    rw [same] at hr ⊢
    exact h.both hr hs
  · by_cases hd : j = d
    · rw [hd] at hr hardware ⊢
      rw [getfrom] at hardware
      rw [intBlocked]
      exact h.alert (receiving hr) open_ hardware
    · rw [others j hd] at hr hardware ⊢
      exact h.alert hr hs hardware

/-- **An interrupt that was held back** is received: `d` waits for it and gets it at once. -/
theorem fetchInterrupt (h : Posted cfg s P) (open_ : .sending ∉ (s.proc d).flags)
    (awake : .receiving ∉ (s.proc d).flags) (nobody : ∀ k ∈ (P.queue d).map Prod.fst, ¬ cfg.accepts src k)
    (free : .sending ∉ (s.proc k).flags) (ok : cfg.accepts src k) (other : ¬ cfg.Counts k) :
    Passes cfg P Post.nothing ((P.await d src).deliver k d a) ∧
      Posted cfg (s.update d fun p => { p with messbuf := ⟨k - cfg.NR_TASKS, a⟩, intBlocked := false })
        ((P.await d src).deliver k d a) := by
  constructor
  · have first : Passes cfg P Post.nothing (P.await d src) :=
      .wait (.wait (h.waiting_none.2 awake) fun e he => nobody e.1 (List.mem_map_of_mem he))
    have waits : (P.await d src).waiting d = some src := Function.update_self ..
    exact first.silently (.hand_of_other (.hand (mt h.blocked_iff.1 free) (mt h.blocked_iff.1 open_) waits ok) other)
  · have state : (P.await d src).deliver k d a = { P with inbox := Function.update P.inbox d (some (k, a)) } := by
      unfold Post.deliver Post.await
      rw [Function.update_idem, ← h.waiting_none.2 awake, Function.update_eq_self]
    rw [state]
    refine h.rebuffer (.inr open_) (fun e he => ?_) fun hr => absurd hr awake
    obtain rfl := Option.some.inj he
    rfl

/-- An interrupt is held back while the process does not wait for it. -/
theorem blockInterrupt (h : Posted cfg s P) (busy : ¬ (.receiving ∈ (s.proc d).flags ∧ .sending ∉ (s.proc d).flags) ∨
    isRxHardware (s.proc d).getfrom = false) : Posted cfg (s.update d fun p => { p with intBlocked := true }) P := by
  have kept := h.rebuffer (d := d) (b := (s.proc d).messbuf) (c := true) (i := P.inbox d) (.inl rfl) (fun e => h.inbox)
    fun hr hs hardware => absurd hardware (by simp [busy.resolve_left (not_not.2 ⟨hr, hs⟩)])
  rw [Function.update_eq_self] at kept
  exact kept

end Posted

end Kernel

end SoiExercises.Sched
