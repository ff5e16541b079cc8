import SoiExercises.Sched.ClockTask

/-!
# Events

Traps, interrupts and clock ticks keep the kernel intact. `perform` is the code that an event runs; it
completes or panics in one of the documented ways when the event is `Proper`.
-/

namespace SoiExercises.Sched

open SoiExercises.Lib

/-- What may happen in a state. A process does not send to itself. -/
def Event.Proper (cfg : Config) (s : Kernel) : Event → Prop
  | .sysCall function srcDest _ _ =>
      ((s.proc s.procPtr).isTaskp ∨ (s.proc s.procPtr).isServp ∨ (s.proc s.procPtr).isUserp) ∧
      (function ≠ .receive → cfg.procAddr srcDest ≠ s.procPtr)
  | .interrupt task => (s.proc (cfg.procAddr task)).isTaskp
  | .tick a => a.Sound cfg s ∧ a.Complete cfg
  | .clock a => s.procPtr = cfg.procAddr CLOCK ∧ s.Unserved cfg ∧ Kernel.ClockDuty cfg a s

/-- The message that the event sends when process `caller` runs, from one process to another. -/
def Event.sent (cfg : Config) (caller : Nat) (n : Reply) : Event → Nat → Nat → List Int
  | .sysCall function srcDest m _ => Kernel.accepted cfg function caller srcDest m n
  | _ => Post.nothing

namespace Kernel

variable {cfg : Config} {s t u : Kernel} {A B : Scheduler} {P P' : Mail} {H : List Nat} {k rp : Nat} {a : Agenda} {e : Event}

/-- The code that an event runs, with the reply to the caller of a trap. -/
def perform (cfg : Config) (s : Kernel) : Event → Result (Reply × Kernel)
  | .sysCall function srcDest m mapped => s.sysCall cfg (Agenda.quiet.handlers cfg) function srcDest m mapped
  | .interrupt task => do
    let s ← s.interrupt cfg task
    return (.OK, s)
  | .tick a => do
    let s ← s.clockTick cfg (a.handlers cfg)
    return (.OK, s)
  | .clock a => do
    let s ← s.clockTask cfg (a.handlers cfg)
    return (.OK, s)

/-- What a clock interrupt leads to: the clock task, which the handler has woken, has seen to the alarms, or it has
not had the turn yet. -/
def Ticked (cfg : Config) (s t : Kernel) : Prop :=
  ∃ v, s.clockHandler cfg = .ok v ∧
    if s.procPtr ≠ cfg.procAddr CLOCK ∧ v.procPtr = cfg.procAddr CLOCK then AlarmsOff v.getUptime v t else t = v

section Self

variable {hs : Handlers} {m : Message} {mapped : Bool} {dest : Int}

theorem blockSender_nr : Completes (fun t => ∀ k, (t.proc k).nr = (s.proc k).nr) (s.blockSender cfg k dest m) := by
  have frame : Frame fun p p' => p'.nr = p.nr :=
    ⟨fun _ => rfl, fun h h' => h'.trans h, fun _ _ => rfl, fun _ _ => rfl, fun _ _ => rfl, fun _ _ => rfl, fun _ _ => rfl, fun _ _ => rfl⟩
  have buffered : Framed (fun p p' => p'.nr = p.nr) s (s.update k fun p => { p with messbuf := m }) :=
    .update frame (.refl frame) fun _ => rfl
  have queued {t : Kernel} (same : Framed (fun p p' => p'.nr = p.nr) s t) : Completes (fun t => ∀ k, (t.proc k).nr = (s.proc k).nr)
      ((t.update k fun p => { p with flags := insert .sending p.flags, sendto := dest }).enqueueSender cfg k (cfg.procAddr dest)) := by
    intro u done j
    rw [enqueueSender_field Proc.nr (fun _ _ => rfl) (fun _ _ => rfl) u done, update_field Proc.nr (by rfl)]
    exact same j
  unfold Kernel.blockSender
  refine .ite_bind ?_ (.ok buffered) fun t same => queued same
  exact fun t done => buffered.trans frame (unready_framed frame t done)

/-- A process that has sent to itself is blocked in a send to itself. -/
structure SendsToSelf (cfg : Config) (k : Nat) (t : Kernel) : Prop where
  nr : (t.proc k).nr = k - cfg.NR_TASKS
  sending : .sending ∈ (t.proc k).flags
  sendto : (t.proc k).sendto = k - cfg.NR_TASKS

theorem SendsToSelf.endless {caller : Nat} (h : SendsToSelf cfg k t) (other : caller ≠ k) :
    t.deadlocked cfg caller k = .error .endless := by
  refine deadlocked_self h.sending ?_ (Ne.symm other)
  rw [h.sendto]
  unfold Config.procAddr
  omega

/-- Nothing keeps a process from sending to itself, and it blocks. -/
theorem Sound.miniSend_self (h : Sound cfg s A P) : Completes (fun r => r.1 = .OK → SendsToSelf cfg s.procPtr r.2)
    (s.miniSend cfg s.procPtr (s.proc s.procPtr).nr m mapped) := by
  have number := h.posted.number s.procPtr
  have slot : cfg.procAddr (s.proc s.procPtr).nr = s.procPtr := by
    rw [number]
    unfold Config.procAddr
    omega
  have idle : (s.proc s.procPtr).flags = ∅ := by
    by_contra blocked
    obtain ⟨x, hx⟩ := Finset.nonempty_iff_ne_empty.2 blocked
    exact blocked (h.running (h.table.live hx))
  have awake : ¬ (s.proc (cfg.procAddr (s.proc s.procPtr).nr)).waitsFor (s.proc s.procPtr).nr := by
    rw [slot]
    simp [Proc.waitsFor, idle]
  unfold Kernel.miniSend
  refine .ite (.ok nofun) (.ite (.ok nofun) (.ite (.ok nofun) ?_))
  refine .bind_any fun _ => .ite (.pure nofun) ?_
  rw [if_neg awake]
  intro r done _
  obtain ⟨t, blocked, same⟩ := bind_eq_ok.1 done
  obtain rfl := pure_eq_ok.1 same
  obtain ⟨sending, sendto⟩ := blockSender_sending t blocked
  exact ⟨(blockSender_nr t blocked _).trans number, sending, sendto.trans number⟩

/-- It goes on waiting for itself. -/
theorem SendsToSelf.miniRec (self : SendsToSelf cfg k t) :
    Completes (SendsToSelf cfg k) (t.miniRec cfg hs k (k - cfg.NR_TASKS)) := by
  have blocked : ((t.update k fun p => { p with getfrom := (k - cfg.NR_TASKS : Int) }).proc k).flags ≠ ∅ := by
    rw [update_proc_self]
    exact Finset.ne_empty_of_mem self.sending
  unfold Kernel.miniRec
  rw [if_pos self.sending]
  unfold Kernel.blockReceiver
  dsimp only
  rw [if_neg blocked, ok_bind, if_neg]
  · refine .pure ⟨?_, ?_, ?_⟩
    · rw [update_proc_self, update_proc_self]
      exact self.nr
    · rw [update_proc_self, update_proc_self]
      exact Finset.mem_insert_of_mem self.sending
    · rw [update_proc_self, update_proc_self]
      exact self.sendto
  -- MM waits for any message when it is told of a signal
  · rintro ⟨-, manager, any⟩
    rw [update_proc_self, update_proc_self] at manager
    have same : (k - cfg.NR_TASKS : Int) = MM_PROC_NR := self.nr.symm.trans manager
    rw [same] at any
    cases any

/-- **A process sends to itself** by a trap. -/
theorem Sound.sysCall_self {function : SysFunction} (h : Sound cfg s A P) (sends : function ≠ .receive) :
    Completes (fun r => r.1 = .OK → SendsToSelf cfg s.procPtr r.2)
      (s.sysCall cfg hs function (s.proc s.procPtr).nr m mapped) := by
  refine .ite (.ok nofun) (.ite (.ok nofun) ?_)
  cases function with
  | send => exact h.miniSend_self
  | receive => exact absurd rfl sends
  | both =>
    refine .bind h.miniSend_self ?_
    rintro ⟨n, t⟩ self
    dsimp only
    split
    · rename_i refused
      exact .pure fun ok => absurd ok refused
    · rename_i ok
      rw [h.posted.number]
      exact .bind (self (not_not.1 ok)).miniRec fun u self => .pure fun _ => self

end Self

namespace Intact

theorem charge (h : Intact cfg s A P H) : Intact cfg (s.charge cfg) A P H ∧ Settled s (s.charge cfg) := by
  have timed (t : Kernel) (ht : Intact cfg t A P H ∧ Settled s t) (rp : Nat) (ticks : Int) :
      Intact cfg (t.bill cfg rp ticks) A P H ∧ Settled s (t.bill cfg rp ticks) := by
    have user : Intact cfg (t.update rp fun p => { p with userTime := p.userTime + ticks }) A P H :=
      ht.1.update ⟨⟨rfl, rfl, rfl, rfl, rfl, Iff.rfl, Iff.rfl⟩, rfl, rfl, rfl, rfl, rfl⟩ rfl rfl
    have settled : Settled s (t.update rp fun p => { p with userTime := p.userTime + ticks }) := ht.2.trans (.update rfl rfl)
    unfold bill
    dsimp only
    split
    · exact ⟨user.update ⟨⟨rfl, rfl, rfl, rfl, rfl, Iff.rfl, Iff.rfl⟩, rfl, rfl, rfl, rfl, rfl⟩ rfl rfl,
        settled.trans (.update rfl rfl)⟩
    · exact ⟨user, settled⟩
  have lost : Intact cfg { s with lostTicks := 0 } A P H := h.of_eq rfl rfl rfl rfl rfl rfl rfl rfl
  obtain ⟨billed, settled⟩ := timed { s with lostTicks := 0 } ⟨lost, ⟨fun _ => rfl, fun _ => rfl, rfl, rfl⟩⟩
    (if s.kReenter ≠ 0 then cfg.procAddr HARDWARE else s.procPtr) (s.lostTicks + 1)
  exact ⟨billed.of_eq rfl rfl rfl rfl rfl rfl rfl rfl, settled.priority, settled.alarm, settled.realtime, settled.nextAlarm⟩

/-- **A clock interrupt** is charged, and wakes the clock task when there is something to do. -/
theorem clockHandler (h : Intact cfg s A P H) (alarms : Alarms s) :
    Returns (fun t => Advanced cfg P Post.nothing t ∧ Alarms t ∧ Settled s t ∧
      (t.procPtr = s.procPtr ∨ (t.proc (cfg.procAddr CLOCK)).messbuf.mType = HARD_INT)) (s.clockHandler cfg) := by
  obtain ⟨charged, settled⟩ := h.charge
  have procPtr : (s.charge cfg).procPtr = s.procPtr := by
    obtain ⟨proc, same⟩ := charge_eq cfg s
    rw [same]
  unfold Kernel.clockHandler
  dsimp only
  generalize s.charge cfg = u at *
  refine .ite (fun _ => ?_) fun _ => ?_
  · have task : (u.proc (cfg.procAddr CLOCK)).isTaskp := by simp [Proc.isTaskp, charged.table.clock]
    refine (charged.interrupt task).imp ?_
    rintro t ⟨advanced, settled', -, turn⟩
    rw [procPtr] at turn
    exact ⟨advanced, alarms.settled (settled.trans settled'), settled.trans settled', turn⟩
  · refine Ends.ok ⟨⟨A, P, H, ?_, .refl P⟩, ?_⟩
    · split
      · exact charged.of_eq rfl rfl rfl rfl rfl rfl rfl rfl
      · exact charged.of_eq rfl rfl rfl rfl rfl rfl rfl rfl
    · have counted (t : Kernel) (proc : t.proc = u.proc) (realtime : t.realtime = u.realtime) (nextAlarm : t.nextAlarm = u.nextAlarm) :
          Settled s t := by
        refine ⟨fun k => ?_, fun k => ?_, realtime.trans settled.realtime, nextAlarm.trans settled.nextAlarm⟩
        · rw [proc]
          exact settled.priority k
        · rw [proc]
          exact settled.alarm k
      split
      · have settled' := counted { u with schedTicks := cfg.SCHED_RATE, prevPtr := some u.billPtr } rfl rfl rfl
        exact ⟨alarms.settled settled', settled', .inl procPtr⟩
      · have settled' := counted { u with schedTicks := u.schedTicks - 1 } rfl rfl rfl
        exact ⟨alarms.settled settled', settled', .inl procPtr⟩

/-- A clock interrupt, and the clock task's turn if it was woken by it. -/
theorem clockTick (h : Intact cfg s A P H) (alarms : Alarms s) (sound : a.Sound cfg s) (complete : a.Complete cfg) :
    Ends Fault.Documented (fun t => Advanced cfg P Post.nothing t ∧ Alarms t ∧ Ticked cfg s t)
      (s.clockTick cfg (a.handlers cfg)) := by
  obtain ⟨t, handled, ⟨B, P', H', intact, run⟩, alarms', settled, turn⟩ := (h.clockHandler alarms).returns
  have unserved (still : s.procPtr = cfg.procAddr CLOCK ∨ t.procPtr ≠ cfg.procAddr CLOCK) : Ticked cfg s t := by
    refine ⟨t, handled, ?_⟩
    rw [if_neg fun both => still.elim both.1 fun no => no both.2]
  unfold Kernel.clockTick
  refine .ite (fun before => ?_) fun before => ?_
  · rw [handled]
    exact Ends.ok ⟨⟨B, P', H', intact, run⟩, alarms', unserved (.inl before)⟩
  · unfold Kernel.tick
    rw [handled, ok_bind]
    refine .ite (fun runs => ?_) fun other => Ends.pure ⟨⟨B, P', H', intact, run⟩, alarms', unserved (.inr other)⟩
    -- it did not run before, so it has the message of the interrupt
    have woken : (t.proc (cfg.procAddr CLOCK)).messbuf.mType = HARD_INT :=
      turn.resolve_left fun same => before (same ▸ runs)
    have duty : ClockDuty cfg a t := by
      refine ⟨⟨fun n none => ?_, sound.wakes⟩, complete, fun other => absurd woken other⟩
      unfold Proc.isTaskp
      rw [settled.priority]
      exact sound.watched n none
    refine (intact.clockTask alarms' duty (intact.toSound.clockAwake runs)).imp ?_
    rintro u ⟨⟨C, P'', H'', intact', run'⟩, alarms'', off⟩
    refine ⟨⟨C, P'', H'', intact', run.silently run'⟩, alarms'', t, handled, ?_⟩
    rw [if_pos ⟨before, runs⟩]
    exact off woken

/-- **An event** that may happen keeps the kernel intact. -/
theorem perform (h : Intact cfg s A P H) (alarms : Alarms s) (proper : e.Proper cfg s) :
    Ends Fault.Documented (fun r => Advanced cfg P (e.sent cfg s.procPtr r.1) r.2 ∧ Alarms r.2) (s.perform cfg e) := by
  cases e with
  | sysCall function srcDest m mapped =>
    obtain ⟨caller, other⟩ := proper
    refine documented ((h.toValid.sysCall (fun _ => rfl) caller other).imp ?_)
    rintro ⟨n, t⟩ ⟨B, P', valid, run, stable⟩
    exact ⟨⟨B, P', H, ⟨valid, h.holds.stable stable⟩, run⟩, alarms.settled stable.settled⟩
  | interrupt task =>
    refine .of_returns ((h.interrupt proper).bind ?_)
    rintro t ⟨advanced, settled, -⟩
    exact Ends.pure ⟨advanced, alarms.settled settled⟩
  | tick a =>
    refine (h.clockTick alarms proper.1 proper.2).bind ?_
    rintro t ⟨advanced, alarms', -⟩
    exact Ends.pure ⟨advanced, alarms'⟩
  | clock a =>
    obtain ⟨runs, -, duty⟩ := proper
    refine (h.clockTask alarms duty (h.toSound.clockAwake runs)).bind ?_
    rintro t ⟨advanced, alarms', -⟩
    exact Ends.pure ⟨advanced, alarms'⟩

end Intact

end Kernel

end SoiExercises.Sched
