import SoiExercises.Sched.Consistent

/-!
# Traps and clock events keep the kernel consistent

A user process is readied only by a message of a task or server, and then a task or server is ready: the
running one, unless it has just blocked in its own send. On this, every trap, every interrupt and
every run of the clock task takes a consistent kernel to a consistent one.
-/

namespace SoiExercises.Sched

open SoiExercises.Lib

namespace Kernel

variable {cfg : Config} {prio : Nat → Ppri} {w : Option Watch} {s t : Kernel} {caller dest sender : Nat}
  {m : Message} {mapped : Bool} {src : Int} {a : Agenda}

theorem Busy.of_head (h : s.Busy) (head : t.rdyHead = s.rdyHead) : t.Busy := by
  unfold Busy
  rw [head]
  exact h

namespace Consistent

theorem deliver (h : Consistent cfg prio w s) (may : MayReady prio w s dest) :
    Completes (Consistent cfg prio w) (s.deliver caller dest m) := by
  have copied : Consistent cfg prio w (s.update dest fun p => { p with
      messbuf := ⟨(s.proc caller).nr, m.mType⟩
      flags := p.flags.erase .receiving }) := h.update ⟨rfl, rfl, rfl, .inr rfl⟩
  exact .ite (copied.ready may) (.ok copied)

theorem enqueueSender (h : Consistent cfg prio w s) :
    Completes (Consistent cfg prio w) (s.enqueueSender cfg caller dest) := by
  have last {s₁ : Kernel} (h₁ : Consistent cfg prio w s₁) :
      Consistent cfg prio w (s₁.update caller fun p => { p with sendlink := none }) :=
    h₁.update ⟨rfl, rfl, rfl, .inr rfl⟩
  unfold Kernel.enqueueSender
  dsimp only
  split
  · exact .bind (.ok (h.update ⟨rfl, rfl, rfl, .inr rfl⟩)) fun _ h₁ => .pure (last h₁)
  · refine .bind_any fun _ => ?_
    exact .bind (.pure (h.update ⟨rfl, rfl, rfl, .inr rfl⟩)) fun _ h₁ => .pure (last h₁)

theorem blockSender {dest : Int} (h : Consistent cfg prio w s) (may : MayBlock prio w caller) :
    Completes (Consistent cfg prio w) (s.blockSender cfg caller dest m) := by
  have stored : Consistent cfg prio w (s.update caller fun p => { p with messbuf := m }) :=
    h.update ⟨rfl, rfl, rfl, .inr rfl⟩
  have queued {s₁ : Kernel} (h₁ : Consistent cfg prio w s₁) : Completes (Consistent cfg prio w)
      ((s₁.update caller fun p => { p with flags := insert .sending p.flags, sendto := dest }).enqueueSender
        cfg caller (cfg.procAddr dest)) :=
    (h₁.update ⟨rfl, rfl, rfl, .inr rfl⟩).enqueueSender
  unfold Kernel.blockSender
  dsimp only
  split
  · exact .bind (stored.unready may) fun _ h₁ => queued h₁
  · exact .bind (.ok stored) fun _ h₁ => queued h₁

theorem miniSend {dest : Int} (h : Consistent cfg prio w s) (ready : MayReady prio w s (cfg.procAddr dest))
    (block : (s.proc (cfg.procAddr dest)).waitsFor (s.proc caller).nr = false → MayBlock prio w caller) :
    Completes (fun r => Consistent cfg prio w r.2) (s.miniSend cfg caller dest m mapped) := by
  unfold Kernel.miniSend
  refine .ite (.ok h) (.ite (.ok h) (.ite (.ok h) ?_))
  refine .bind_any fun locked => .ite (.pure h) ?_
  split
  · exact .bind (h.deliver ready) fun _ h₁ => .pure h₁
  · rename_i waits
    exact .bind (h.blockSender (block (by simpa using waits))) fun _ h₁ => .pure h₁

theorem inform (h : Consistent cfg prio w s) (other : ∀ x, w = some x → x.head ≠ some (some (cfg.procAddr HARDWARE))) :
    Completes (Consistent cfg prio w) (s.inform cfg) := by
  have server : prio (cfg.procAddr MM_PROC_NR) = .server := h.typed.roles.servers MM_PROC_NR rfl
  unfold Kernel.inform
  split
  · exact .ok h
  · rename_i rp _
    have counted : Consistent cfg prio w { s with sigProcs := s.sigProcs - 1 } :=
      h.of_eq rfl rfl rfl rfl rfl rfl rfl rfl
    refine .bind (Q := fun r => Consistent cfg prio w r.2) ?_ fun r h₁ => .ite .error (.pure ?_)
    · refine .bind (Q := fun r => Consistent cfg prio w r.2) ?_ fun r h₁ => .pure (h₁.setSwitching false)
      refine (counted.setSwitching true).miniSend (.inl ?_) fun _ x hx => ⟨?_, other x hx⟩
      · rw [server]
        decide
      · rw [h.typed.roles.hardware]
        decide
    · have told : Consistent cfg prio w (r.2.update rp fun p => { p with flags := p.flags.erase .pending }) :=
        h₁.update ⟨rfl, rfl, rfl, .inr rfl⟩
      have locked := told.setSwitching true
      exact (locked.typed.pickProc locked.watched).setSwitching false

theorem causeSig {proc_nr : Int} {known : Bool} (h : Consistent cfg prio w s)
    (may : MayBlock prio w (cfg.procAddr proc_nr))
    (other : ∀ x, w = some x → x.head ≠ some (some (cfg.procAddr HARDWARE))) :
    Completes (Consistent cfg prio w) (s.causeSig cfg proc_nr known) := by
  have signalled {s₁ : Kernel} (h₁ : Consistent cfg prio w s₁) : Consistent cfg prio w
      { s₁.update (cfg.procAddr proc_nr) fun p => { p with flags := insert .pending (insert .sigPending p.flags) } with
        sigProcs := s₁.sigProcs + 1 } := by
    have marked : Consistent cfg prio w (s₁.update (cfg.procAddr proc_nr) fun p => { p with
        flags := insert .pending (insert .sigPending p.flags) }) := h₁.update ⟨rfl, rfl, rfl, .inr rfl⟩
    exact marked.of_eq rfl rfl rfl rfl rfl rfl rfl rfl
  unfold Kernel.causeSig
  refine .ite (.ok h) (.ite (.ok h) ?_)
  dsimp only
  split
  · refine .bind (h.lockUnready may) fun _ h₁ => ?_
    exact .ite (.pure (signalled h₁)) ((signalled h₁).inform other)
  · refine .bind (.ok h) fun _ h₁ => ?_
    exact .ite (.pure (signalled h₁)) ((signalled h₁).inform other)

theorem dequeueSender {previous : Option Nat} (h : Consistent cfg prio w s) :
    Completes (fun t => Consistent cfg prio w t ∧ t.rdyHead = s.rdyHead) (s.dequeueSender caller previous sender) := by
  unfold Kernel.dequeueSender
  refine .ite (.ok ⟨h.update ⟨rfl, rfl, rfl, .inr rfl⟩, rfl⟩) ?_
  split
  · exact .ok ⟨h.update ⟨rfl, rfl, rfl, .inr rfl⟩, rfl⟩
  · exact .error

theorem acceptFrom {previous : Option Nat} (h : Consistent cfg prio w s) (may : MayReady prio w s sender) :
    Completes (Consistent cfg prio w) (s.acceptFrom caller previous sender) := by
  have copied : Consistent cfg prio w (s.update caller fun p => { p with
      messbuf := ⟨(s.proc sender).nr, (s.proc sender).messbuf.mType⟩ }) := h.update ⟨rfl, rfl, rfl, .inr rfl⟩
  refine .bind copied.dequeueSender fun s₁ ⟨h₁, head⟩ => ?_
  have deblocked : Consistent cfg prio w (s₁.update sender fun p => { p with flags := p.flags.erase .sending }) :=
    h₁.update ⟨rfl, rfl, rfl, .inr rfl⟩
  refine .ite (deblocked.ready ?_) (.pure deblocked)
  exact may.imp_right fun ⟨unwatched, busy⟩ => ⟨unwatched, busy.of_head head⟩

theorem blockReceiver (h : Consistent cfg prio none s) :
    Completes (Consistent cfg prio none) (s.blockReceiver cfg (a.handlers cfg) caller src) := by
  have from_src : Consistent cfg prio none (s.update caller fun p => { p with getfrom := src }) :=
    h.update ⟨rfl, rfl, rfl, .inr rfl⟩
  have receiving {s₁ : Kernel} (h₁ : Consistent cfg prio none s₁) : Consistent cfg prio none
      (s₁.update caller fun p => { p with flags := insert .receiving p.flags }) := h₁.update ⟨rfl, rfl, rfl, .inr rfl⟩
  unfold Kernel.blockReceiver
  dsimp only
  split
  · refine .bind (from_src.unready nofun) fun _ h₁ => ?_
    exact .ite ((receiving h₁).inform nofun) (.pure (receiving h₁))
  · refine .bind (.ok from_src) fun _ h₁ => ?_
    exact .ite ((receiving h₁).inform nofun) (.pure (receiving h₁))

theorem findSender_spec {fuel : Nat} {previous first before : Option Nat}
    (found : s.findSender src fuel previous first = .ok (some (before, sender))) :
    src = ANY ∨ src = (s.proc sender).nr := by
  induction fuel generalizing previous first with
  | zero => cases found
  | succ fuel ih =>
    cases first with
    | none => cases found
    | some next =>
      unfold findSender at found
      split at found
      · rename_i accepted
        cases found
        exact accepted
      · exact ih found

/-- A process receives. A user process takes messages of FS and MM only, and any other process that is
still running is on its queue. -/
theorem miniRec (h : Consistent cfg prio none s) (user : (prio caller).queue = .userQ → isSysentn src)
    (busy : (prio caller).queue ≠ .userQ → s.Busy ∨ .sending ∈ (s.proc caller).flags) :
    Completes (Consistent cfg prio none) (s.miniRec cfg (a.handlers cfg) caller src) := by
  unfold Kernel.miniRec
  split
  · exact h.blockReceiver
  · rename_i notSending
    intro t done
    obtain ⟨found, hfound, rest⟩ := bind_eq_ok.1 done
    cases found with
    | some pair =>
      obtain ⟨before, sender⟩ := pair
      refine h.acceptFrom ?_ t rest
      by_cases kind : (prio caller).queue = .userQ
      · -- the sender has the number of a server
        have system := user kind
        have number : src = (s.proc sender).nr := by
          refine (findSender_spec hfound).resolve_left fun any => ?_
          rw [any] at system
          exact absurd system (by decide)
        have slot : cfg.procAddr src = sender := by
          unfold Config.procAddr
          rw [number, h.typed.number]
          omega
        left
        rw [← slot, h.typed.roles.servers src system]
        decide
      · exact .inr ⟨rfl, (busy kind).resolve_right notSending⟩
    | none =>
      refine Completes.ite (.pure ?_) h.blockReceiver t rest
      exact h.update ⟨rfl, rfl, rfl, .inr rfl⟩

end Consistent

/-- Adding to the queues keeps a task or server ready. -/
theorem Busy.append {q : Queue} {rp : Nat} (h : s.Busy) : Completes Busy (s.append q rp) := by
  have nonempty {q' : Queue} (h : s.rdyHead q' ≠ none) : Completes (fun t => t.rdyHead q' ≠ none) (s.append q rp) := by
    refine Completes.bind (Q := fun t => t.rdyHead q' ≠ none) ?_ fun _ h₁ => .pure h₁
    unfold linkLast
    split
    · unfold setTailNextready
      split
      · exact .ok h
      · exact .error
    · apply Completes.ok
      show (s.setHead q (some rp)).rdyHead q' ≠ none
      by_cases same : q' = q
      · subst same
        rw [setHead_rdyHead_self]
        exact Option.some_ne_none rp
      · rw [setHead_rdyHead_ne same]
        exact h
  rcases h with task | server
  · exact fun t done => .inl (nonempty task t done)
  · exact fun t done => .inr (nonempty server t done)

theorem Busy.ready {rp : Nat} (h : s.Busy) : Completes Busy (s.ready rp) := by
  unfold Kernel.ready
  refine .ite h.append (.ite h.append (.ok ?_))
  have front {s : Kernel} (h : s.Busy) : (s.setHead .userQ (some rp)).Busy := by
    unfold Busy
    rw [setHead_rdyHead_ne (by decide), setHead_rdyHead_ne (by decide)]
    exact h
  split
  · exact front h
  · exact front h

/-- A queue of senders consists of links. -/
theorem enqueueSender_field {β : Type} (g : Proc → β) (callerq : ∀ p v, g { p with callerq := v } = g p)
    (sendlink : ∀ p v, g { p with sendlink := v } = g p) :
    Completes (fun t => ∀ k, g (t.proc k) = g (s.proc k)) (s.enqueueSender cfg caller dest) := by
  have last {s₁ : Kernel} (h₁ : ∀ k, g (s₁.proc k) = g (s.proc k)) (k : Nat) :
      g ((s₁.update caller fun p => { p with sendlink := none }).proc k) = g (s.proc k) :=
    (update_field g (sendlink _ _) k).trans (h₁ k)
  unfold enqueueSender
  dsimp only
  split
  · exact .bind (.ok (update_field g (callerq _ _))) fun _ h₁ => .pure (last h₁)
  · refine .bind_any fun _ => ?_
    exact .bind (.pure (update_field g (sendlink _ _))) fun _ h₁ => .pure (last h₁)

/-- A sender that blocks is marked. -/
theorem blockSender_sending {dest : Int} :
    Completes (fun t => .sending ∈ (t.proc caller).flags ∧ (t.proc caller).sendto = dest) (s.blockSender cfg caller dest m) := by
  have marked {s₁ : Kernel} : Completes (fun t => .sending ∈ (t.proc caller).flags ∧ (t.proc caller).sendto = dest)
      ((s₁.update caller fun p => { p with flags := insert .sending p.flags, sendto := dest }).enqueueSender
        cfg caller (cfg.procAddr dest)) := by
    intro t done
    constructor
    · rw [enqueueSender_field Proc.flags (fun _ _ => rfl) (fun _ _ => rfl) t done, update_proc_self]
      exact Finset.mem_insert_self ..
    · rw [enqueueSender_field Proc.sendto (fun _ _ => rfl) (fun _ _ => rfl) t done, update_proc_self]
  unfold blockSender
  dsimp only
  split
  · exact .bind_any fun _ => marked
  · exact .bind_any fun _ => marked

/-- After a send, a task or server is still ready, unless the sender has blocked in it. -/
theorem Busy.miniSend {dest : Int} (h : s.Busy) :
    Completes (fun r => r.2.Busy ∨ .sending ∈ (r.2.proc caller).flags) (s.miniSend cfg caller dest m mapped) := by
  unfold Kernel.miniSend
  refine .ite (.ok (.inl h)) (.ite (.ok (.inl h)) (.ite (.ok (.inl h)) ?_))
  refine .bind_any fun locked => .ite (.pure (.inl h)) (.ite ?_ ?_)
  · refine .bind (Q := Busy) ?_ fun _ h₁ => .pure (.inl h₁)
    exact .ite (Busy.ready h) (.ok h)
  · exact .bind blockSender_sending fun _ h₁ => .pure (.inr h₁.1)

namespace Consistent

/-- The send of a trap. A user process sends to FS and MM only. -/
theorem callSend {dest : Int} (h : Consistent cfg prio none s)
    (calls : (s.proc s.procPtr).isTaskp ∨ (s.proc s.procPtr).isServp ∨ (s.proc s.procPtr).isUserp) :
    Completes (fun r => Consistent cfg prio none r.2 ∧
      (r.1 = .OK → (prio s.procPtr).queue = .userQ → isSysentn dest) ∧
      ((prio s.procPtr).queue ≠ .userQ → r.2.Busy ∨ .sending ∈ (r.2.proc s.procPtr).flags))
      (s.miniSend cfg s.procPtr dest m mapped) := by
  by_cases kind : (prio s.procPtr).queue = .userQ
  · by_cases system : isSysentn dest
    · have server : prio (cfg.procAddr dest) = .server := h.typed.roles.servers dest system
      have ready : MayReady prio none s (cfg.procAddr dest) := by
        left
        rw [server]
        decide
      exact fun r done => ⟨h.miniSend ready (fun _ => nofun) r done, fun _ _ => system, fun other => absurd kind other⟩
    · have user : (s.proc s.procPtr).isUserp := by
        rw [isTaskp_iff h.typed, isServp_iff h.typed, kind] at calls
        simpa using calls
      unfold Kernel.miniSend
      dsimp only
      rw [if_pos (by simp [user, system])]
      exact .ok ⟨h, nofun, fun other => absurd kind other⟩
  · have busy := h.busy kind
    exact fun r done => ⟨h.miniSend (.inr ⟨rfl, busy⟩) (fun _ => nofun) r done, fun _ user => absurd user kind,
      fun _ => busy.miniSend r done⟩

/-- **A trap** keeps the kernel consistent. -/
theorem sysCall {function : SysFunction} {srcDest : Int} (h : Consistent cfg prio none s)
    (calls : (s.proc s.procPtr).isTaskp ∨ (s.proc s.procPtr).isServp ∨ (s.proc s.procPtr).isUserp) :
    Completes (fun r => Consistent cfg prio none r.2)
      (s.sysCall cfg (a.handlers cfg) function srcDest m mapped) := by
  unfold Kernel.sysCall
  refine .ite (.ok h) ?_
  split
  · exact .ok h
  · rename_i permitted
    cases function with
    | send => exact fun r done => (h.callSend calls r done).1
    | receive =>
      have notUser : (prio s.procPtr).queue ≠ .userQ := by
        intro kind
        rw [isTaskp_iff h.typed, isServp_iff h.typed, kind] at calls
        simp at calls
        simp [calls] at permitted
      have received : Completes (Consistent cfg prio none) (s.miniRec cfg (a.handlers cfg) s.procPtr srcDest) :=
        h.miniRec (fun kind => absurd kind notUser) fun kind => .inl (h.busy kind)
      exact .bind received fun _ h₁ => .pure h₁
    | both =>
      refine .bind (h.callSend calls) fun (n, s₁) ⟨h₁, system, busy⟩ => ?_
      dsimp only
      split
      · exact .pure h₁
      · rename_i sent
        exact .bind (h₁.miniRec (system (not_not.1 sent)) busy) fun _ h₂ => .pure h₂

theorem wakes {task : Int} (h : Consistent cfg prio w s) (step : Wakes cfg s task t) : Consistent cfg prio w t := by
  cases step with
  | interrupt isTask done => exact h.interrupt ((isTaskp_iff h.typed).1 isTask) t done
  | send isTask waits done =>
    have kind := (isTaskp_iff h.typed).1 isTask
    refine h.miniSend (.inl ?_) (fun other => ?_) (_, t) done
    · rw [kind]
      decide
    · rw [waits] at other
      cases other

end Consistent

/-- The priorities of the processes say which of them are tasks. -/
theorem Typed.sound (h : Typed cfg prio s) (h' : Typed cfg prio t) (sound : a.Sound cfg s) : a.Sound cfg t where
  watched proc_nr none := by
    have watched := sound.watched proc_nr none
    unfold Proc.isTaskp at watched ⊢
    rw [h'.priority, ← h.priority]
    exact watched
  wakes := sound.wakes

namespace Consistent

/-- The alarm of a process goes off: it is signalled, or its watch dog wakes tasks. -/
theorem alarm {proc_nr : Int} (h : Consistent cfg prio w s) (sound : a.Sound cfg s)
    (head : ∀ x, w = some x → x.head ≠ some (some (cfg.procAddr proc_nr)))
    (other : ∀ x, w = some x → x.head ≠ some (some (cfg.procAddr HARDWARE))) :
    Completes (Consistent cfg prio w) ((a.handlers cfg).alarm proc_nr s) := by
  unfold Agenda.handlers
  dsimp only
  split
  · rename_i watchDog known
    intro t done
    obtain ⟨tasks, run⟩ := sound.wakes proc_nr watchDog known s t done
    have woken : Consistent cfg prio w t := run.invariant wakes h
    exact woken
  · rename_i none
    refine h.causeSig (fun x hx => ⟨fun task => ?_, head x hx⟩) other
    have notTask := sound.watched proc_nr none
    rw [(isTaskp_iff h.typed).2 task] at notTask
    cases notTask

theorem checkAlarm {rp : Nat} (h : Consistent cfg prio w s) (sound : a.Sound cfg s)
    (other : ∀ x, w = some x → x.head ≠ some (some (cfg.procAddr HARDWARE))) :
    Completes (Consistent cfg prio w) (checkAlarm (a.handlers cfg) s rp) := by
  have next {s₁ : Kernel} (h₁ : Consistent cfg prio w s₁) : Consistent cfg prio w
      (if (s₁.proc rp).alarm ≠ 0 ∧ (s₁.proc rp).alarm < s₁.nextAlarm then { s₁ with nextAlarm := (s₁.proc rp).alarm }
        else s₁) := by
    split
    · exact h₁.of_eq rfl rfl rfl rfl rfl rfl rfl rfl
    · exact h₁
  unfold Kernel.checkAlarm
  split
  · exact .ok h
  · rename_i set
    split
    · rename_i due
      have slot : cfg.procAddr (s.proc rp).nr = rp := by
        unfold Config.procAddr
        rw [h.typed.number]
        omega
      refine .bind (h.alarm sound (fun x hx pinned => ?_) other) fun _ h₁ => .pure ?_
      · -- the alarm of the head that stays is not due
        rw [slot] at pinned
        have later := (h.watched x hx).notDue rp pinned set
        rw [(h.watched x hx).realtime] at due
        omega
      · exact h₁.update ⟨rfl, rfl, rfl, .inl rfl⟩
    · exact .bind (.ok h) fun _ h₁ => .pure (next h₁)

end Consistent

/-- The part of `do_clocktick` before the quantum. -/
def checkAlarms (cfg : Config) (hs : Handlers) (s : Kernel) : Result Kernel :=
  if s.nextAlarm ≤ s.realtime then
    (List.range cfg.endProcAddr).foldlM (checkAlarm hs) { s with nextAlarm := LONG_MAX }
  else .ok s

/-- The part of `do_clocktick` after the alarms. -/
def endTick (cfg : Config) (s : Kernel) : Result Kernel := do
  let s := { s with schedTicks := s.schedTicks - 1 }
  if s.schedTicks = 0 then
    let s ← if s.prevPtr = some s.billPtr then s.lockSched cfg else .ok s
    return { s with schedTicks := cfg.SCHED_RATE, prevPtr := some s.billPtr }
  else return s

theorem doClocktick_eq (cfg : Config) (hs : Handlers) (s : Kernel) :
    s.doClocktick cfg hs = s.checkAlarms cfg hs >>= endTick cfg := by
  unfold doClocktick checkAlarms
  split
  · rfl
  · rfl

/-- The numbers of the quantum, to be watched. -/
def watch (s : Kernel) (head : Option (Option Nat)) : Watch :=
  ⟨s.billPtr, s.schedTicks, s.prevPtr, s.realtime, head⟩

namespace Consistent

/-- Watching can begin when a task is ready. -/
theorem watch {head : Option (Option Nat)} (h : Consistent cfg prio none s) (tasks : s.rdyHead .taskQ ≠ none)
    (first : ∀ b, head = some b → s.rdyHead .userQ = b)
    (notDue : ∀ b, head = some (some b) → (s.proc b).alarm ≠ 0 → s.realtime < (s.proc b).alarm) :
    Consistent cfg prio (some (s.watch head)) s where
  typed := h.typed
  running := h.running
  resting := h.resting
  settled := h.settled
  watched x hx := by
    obtain rfl := Option.some.inj hx
    exact ⟨tasks, rfl, rfl, rfl, rfl, first, notDue⟩

theorem checkAlarms (h : Consistent cfg prio w s) (sound : a.Sound cfg s)
    (other : ∀ x, w = some x → x.head ≠ some (some (cfg.procAddr HARDWARE))) :
    Completes (Consistent cfg prio w) (s.checkAlarms cfg (a.handlers cfg)) := by
  unfold Kernel.checkAlarms
  refine .ite (.foldlM ?_ fun s₁ rp _ h₁ => ?_) (.ok h)
  · exact h.of_eq rfl rfl rfl rfl rfl rfl rfl rfl
  · exact h₁.checkAlarm (h.typed.sound h₁.typed sound) other

end Consistent

theorem sched_taskQ : Completes (fun t => t.rdyHead .taskQ = s.rdyHead .taskQ) (s.sched cfg) := by
  have kept {q : Queue} {v : Option Nat} {s₁ : Kernel} :
      Completes (fun t => t.rdyHead = s₁.rdyHead) (s₁.setTailNextready q v) := by
    unfold setTailNextready
    split
    · exact .ok rfl
    · exact .error
  unfold sched
  split
  · exact .ok rfl
  · refine .ite (.ok rfl) ?_
    refine .bind kept fun s₁ h₁ => .bind kept fun s₂ h₂ => .pure ?_
    rw [pickProc_rdyHead, h₂, setHead_rdyHead_ne (by decide)]
    exact congrFun h₁ Queue.taskQ

namespace Consistent

theorem endTick (h : Consistent cfg prio none s) (tasks : s.rdyHead .taskQ ≠ none) :
    Completes (fun t => Consistent cfg prio none t ∧ t.rdyHead .taskQ ≠ none) (s.endTick cfg) := by
  have counted : Consistent cfg prio none { s with schedTicks := s.schedTicks - 1 } :=
    h.renumber (h.typed.of_proc rfl h.typed.head h.typed.tail) rfl rfl rfl
  have locked : Completes (fun t => Consistent cfg prio none t ∧ t.rdyHead .taskQ ≠ none)
      (Kernel.lockSched cfg { s with schedTicks := s.schedTicks - 1 }) := by
    refine .bind (Q := fun t => Consistent cfg prio none t ∧ t.rdyHead .taskQ ≠ none) (fun t done => ?_)
      fun t ⟨h₁, tasks⟩ => .pure ⟨h₁.setSwitching false, tasks⟩
    refine ⟨(counted.setSwitching true).sched t done, ?_⟩
    rw [sched_taskQ t done]
    exact tasks
  have last {t : Kernel} (h₁ : Consistent cfg prio none t ∧ t.rdyHead .taskQ ≠ none) :
      Consistent cfg prio none { t with schedTicks := cfg.SCHED_RATE, prevPtr := some t.billPtr } ∧
        t.rdyHead .taskQ ≠ none :=
    ⟨h₁.1.renumber (h₁.1.typed.of_proc rfl h₁.1.typed.head h₁.1.typed.tail) rfl rfl rfl, h₁.2⟩
  unfold Kernel.endTick
  dsimp only
  split
  · split
    · exact .bind locked fun _ h₁ => .pure (last h₁)
    · exact .bind (.ok ⟨counted, tasks⟩) fun _ h₁ => .pure (last h₁)
  · exact .pure ⟨counted, tasks⟩

theorem doClocktick (h : Consistent cfg prio none s) (tasks : s.rdyHead .taskQ ≠ none) (sound : a.Sound cfg s) :
    Completes (fun t => Consistent cfg prio none t ∧ t.rdyHead .taskQ ≠ none)
      (s.doClocktick cfg (a.handlers cfg)) := by
  rw [doClocktick_eq]
  have watched : Consistent cfg prio (some (s.watch none)) s := h.watch tasks nofun nofun
  refine .bind (watched.checkAlarms sound ?_) fun s₁ h₁ => h₁.unwatch.endTick (h₁.watched _ rfl).tasks
  rintro x hx pinned
  obtain rfl := Option.some.inj hx
  cases pinned

theorem serveRequest {request : Request} (h : Consistent cfg prio none s) (tasks : s.rdyHead .taskQ ≠ none) :
    Completes (fun t => Consistent cfg prio none t ∧ (t.Busy ∨ .sending ∈ (t.proc (cfg.procAddr CLOCK)).flags))
      (s.serveRequest cfg request) := by
  have set (proc_nr delta_ticks : Int) : Consistent cfg prio none (s.commonSetalarm cfg proc_nr delta_ticks) := by
    have typed : Typed cfg prio (s.update (cfg.procAddr proc_nr) fun p => { p with
        alarm := if delta_ticks = 0 then 0 else s.realtime + delta_ticks }) :=
      h.typed.update rfl rfl fun j hj => h.typed.link hj
    exact h.renumber (typed.of_proc rfl typed.head typed.tail) rfl rfl rfl
  -- the reply finds the clock task ready
  have reply {s₁ : Kernel} (h₁ : Consistent cfg prio none s₁) (tasks : s₁.rdyHead .taskQ ≠ none) :
      Completes (fun t => Consistent cfg prio none t ∧ (t.Busy ∨ .sending ∈ (t.proc (cfg.procAddr CLOCK)).flags))
        (do
          let mc := (s₁.proc (cfg.procAddr CLOCK)).messbuf
          let r ← s₁.miniSend cfg (cfg.procAddr CLOCK) mc.mSource ⟨mc.mSource, 0⟩ true
          return r.2) := by
    have busy : s₁.Busy := .inl tasks
    refine .bind (fun r done => ?_) fun r h₂ => .pure h₂
    exact ⟨h₁.miniSend (.inr ⟨rfl, busy⟩) (fun _ => nofun) r done, busy.miniSend r done⟩
  unfold Kernel.serveRequest
  cases request with
  | getUptime => exact reply h tasks
  | getTime => exact reply h tasks
  | setTime => exact reply h tasks
  | setAlarm proc_nr delta_ticks => exact reply (set proc_nr delta_ticks) tasks
  | setSyncAl proc_nr delta_ticks => exact reply (set proc_nr delta_ticks) tasks
  | other => exact .error

/-- The clock task is ready while it runs. -/
theorem clockReady (h : Consistent cfg prio w s) (runs : s.procPtr = cfg.procAddr CLOCK) : s.rdyHead .taskQ ≠ none := by
  intro noTask
  apply h.resting noTask
  rw [runs, h.typed.roles.clock]
  rfl

/-- **One turn of the clock task** keeps the kernel consistent. -/
theorem clockTask (h : Consistent cfg prio none s) (runs : s.procPtr = cfg.procAddr CLOCK) (sound : a.Sound cfg s) :
    Completes (Consistent cfg prio none) (s.clockTask cfg (a.handlers cfg)) := by
  have advanced : Consistent cfg prio none { s with realtime := s.realtime + s.pendingTicks, pendingTicks := 0 } :=
    h.renumber (h.typed.of_proc rfl h.typed.head h.typed.tail) rfl rfl rfl
  have tasks := h.clockReady runs
  have clock : (prio (cfg.procAddr CLOCK)).queue = .taskQ := by
    rw [h.typed.roles.clock]
    rfl
  have receives {t : Kernel} (h₁ : Consistent cfg prio none t)
      (busy : t.Busy ∨ .sending ∈ (t.proc (cfg.procAddr CLOCK)).flags) :
      Completes (Consistent cfg prio none) (t.miniRec cfg (a.handlers cfg) (cfg.procAddr CLOCK) ANY) := by
    refine h₁.miniRec (fun user => ?_) fun _ => busy
    rw [clock] at user
    cases user
  unfold Kernel.clockTask
  dsimp only
  split
  · refine .bind (advanced.doClocktick tasks (h.typed.sound advanced.typed sound)) fun t ⟨h₁, ready⟩ => ?_
    exact receives h₁ (.inl (.inl ready))
  · refine .bind (advanced.serveRequest tasks) fun t ⟨h₁, busy⟩ => ?_
    -- an answer that is not taken keeps the clock task from receiving
    exact .ite (.ok h₁) (receives h₁ busy)

theorem charge (h : Consistent cfg prio none s) : Consistent cfg prio none (s.charge cfg) := by
  have lost : Consistent cfg prio none { s with lostTicks := 0 } := h.of_eq rfl rfl rfl rfl rfl rfl rfl rfl
  have billed (rp : Nat) (ticks : Int) : Consistent cfg prio none (Kernel.bill cfg { s with lostTicks := 0 } rp ticks) := by
    have user : Consistent cfg prio none
        (Kernel.update { s with lostTicks := 0 } rp fun p => { p with userTime := p.userTime + ticks }) :=
      lost.update ⟨rfl, rfl, rfl, .inr rfl⟩
    unfold Kernel.bill
    dsimp only
    split
    · exact user.update ⟨rfl, rfl, rfl, .inr rfl⟩
    · exact user
  exact (billed _ _).of_eq rfl rfl rfl rfl rfl rfl rfl rfl

theorem clockHandler (h : Consistent cfg prio none s) : Completes (Consistent cfg prio none) (s.clockHandler cfg) := by
  have charged := h.charge
  unfold Kernel.clockHandler
  dsimp only
  split
  · apply charged.interrupt
    rw [h.typed.roles.clock]
    rfl
  · apply Completes.ok
    split
    · exact charged.renumber (charged.typed.of_proc rfl charged.typed.head charged.typed.tail) rfl rfl rfl
    · exact charged.renumber (charged.typed.of_proc rfl charged.typed.head charged.typed.tail) rfl rfl rfl

/-- **One event** keeps the kernel consistent. -/
theorem step {e : Event} (h : Consistent cfg prio none s) (step : EventStep cfg s e t) : Consistent cfg prio none t := by
  cases e with
  | sysCall function srcDest m mapped =>
    obtain ⟨calls, n, done⟩ := step
    exact h.sysCall calls _ done
  | interrupt task =>
    obtain ⟨isTask, done⟩ := step
    exact h.interrupt ((isTaskp_iff h.typed).1 isTask) t done
  | tick a =>
    obtain ⟨sound, done⟩ := step
    unfold clockTick tick at done
    split at done
    · exact h.clockHandler t done
    · obtain ⟨s₁, handled, rest⟩ := bind_eq_ok.1 done
      have h₁ := h.clockHandler s₁ handled
      split at rest
      · rename_i runs
        exact h₁.clockTask runs (h.typed.sound h₁.typed sound) t rest
      · obtain rfl := pure_eq_ok.1 rest
        exact h₁
  | clock a =>
    obtain ⟨sound, runs, -, done⟩ := step
    exact h.clockTask runs sound t done

end Consistent

end Kernel

end SoiExercises.Sched
