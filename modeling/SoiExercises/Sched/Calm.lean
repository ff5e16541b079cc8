import SoiExercises.Lib.Except
import SoiExercises.Sched.Events
import SoiExercises.Sched.Requests

/-!
# `switching`

`switching` is set while the `lock_` functions switch processes, and an interrupt that comes in then is held up.
Everything else leaves the variable as it is. So when it is off before a trap, an interrupt, a clock tick or a
request, it is off afterwards, and held-up interrupts may be flushed.
-/

namespace SoiExercises.Sched

open SoiExercises.Lib

namespace Kernel

/-- What `switching` is. -/
def Mode (b : Bool) (s : Kernel) : Prop := s.switching = b

variable {cfg : Config} {b : Bool} {s t u : Kernel} {rp rc caller dest sender : Nat} {n src : Int} {q : Queue}
  {v previous : Option Nat} {m : Message} {mapped : Bool} {hs : Handlers} {a : Agenda} {windows : List (List Int)}

theorem Mode.ite {p : Prop} [Decidable p] (h : Mode b s) (h' : Mode b t) : Mode b (if p then s else t) := by
  split
  · exact h
  · exact h'

section Queues

theorem setTailNextready_mode (h : Mode b s) : Completes (Mode b) (s.setTailNextready q v) := by
  unfold setTailNextready
  split
  · exact .ok h
  · exact .error

theorem append_mode (h : Mode b s) : Completes (Mode b) (s.append q rp) := by
  refine .bind (Q := Mode b) ?_ fun t h => .pure h
  unfold linkLast
  split
  · exact setTailNextready_mode h
  · exact .ok h

theorem ready_mode (h : Mode b s) : Completes (Mode b) (s.ready rp) := by
  exact .ite (append_mode h) (.ite (append_mode h) (.ok (.ite h h)))

theorem pickProc_mode (h : Mode b s) : Mode b (s.pickProc cfg) := by
  unfold pickProc
  repeat' split
  all_goals exact h

theorem unlink_mode {pick : Bool} (h : Mode b s) : Completes (Mode b) (s.unlink cfg q pick rp) := by
  unfold unlink
  split
  · exact .ok h
  · apply Completes.ite
    · exact .ok (.ite (pickProc_mode h) h)
    · refine .bind_any fun found => .pure ?_
      cases found with
      | none => exact h
      | some xp => exact Mode.ite h h

theorem unready_mode (h : Mode b s) : Completes (Mode b) (s.unready cfg rp) :=
  .ite (.ite (unlink_mode h) .error) (.ite (unlink_mode h) (unlink_mode h))

/-- The `lock_` functions leave it off. -/
theorem unlocked {x : Result Kernel} : Completes (Mode false) (x >>= fun t => return { t with switching := false }) :=
  .bind_any fun _ => .pure rfl

end Queues

section Messages

theorem deliver_mode (h : Mode b s) : Completes (Mode b) (s.deliver caller dest m) :=
  .ite (ready_mode h) (.ok h)

theorem enqueueSender_mode (h : Mode b s) : Completes (Mode b) (s.enqueueSender cfg caller dest) := by
  unfold enqueueSender
  dsimp only
  split
  · exact .bind (Q := Mode b) (.ok h) fun t h => .pure h
  · exact .bind_any fun _ => .bind (Q := Mode b) (.pure h) fun t h => .pure h

theorem blockSender_mode (h : Mode b s) : Completes (Mode b) (s.blockSender cfg caller n m) := by
  unfold blockSender
  exact .ite_bind (unready_mode h) (.ok h) fun t h => enqueueSender_mode h

theorem miniSend_mode (h : Mode b s) : Completes (fun r => Mode b r.2) (s.miniSend cfg caller n m mapped) := by
  refine .ite (.ok h) (.ite (.ok h) (.ite (.ok h) ?_))
  refine .bind_any fun _ => .ite (.pure h) (.ite ?_ ?_)
  · exact .bind (deliver_mode h) fun t h => .pure h
  · exact .bind (blockSender_mode h) fun t h => .pure h

theorem acceptFrom_mode (h : Mode b s) : Completes (Mode b) (s.acceptFrom caller previous sender) := by
  unfold acceptFrom
  refine .bind (Q := Mode b) ?_ fun t h => .ite (ready_mode h) (.pure h)
  refine .ite (.ok h) ?_
  split
  · exact .ok h
  · exact .error

theorem hold_mode (h : Mode b s) : Completes (Mode b) (s.hold rp) := by
  unfold hold
  refine .ite (.ok h) ?_
  dsimp only
  split
  · split
    · exact .bind (Q := Mode b) (.ok h) fun t h => .pure h
    · exact .error
  · exact .bind (Q := Mode b) (.ok h) fun t h => .pure h

theorem interrupt_mode (h : Mode b s) : Completes (Mode b) (s.interrupt cfg n) :=
  .ite (hold_mode h) (.ite (.ok h) (append_mode h))

/-- Telling MM of a signal ends with `lock_pick_proc`. -/
theorem inform_mode (h : Mode false s) : Completes (Mode false) (s.inform cfg) := by
  unfold inform
  split
  · exact .ok h
  · exact .bind_any fun _ => .ite .error (.pure rfl)

theorem causeSig_mode {known : Bool} (h : Mode false s) : Completes (Mode false) (s.causeSig cfg n known) := by
  unfold causeSig
  exact .ite (.ok h) (.ite (.ok h) (.ite_bind unlocked (.ok h) fun t h => .ite (.pure h) (inform_mode h)))

theorem blockReceiver_mode (h : Mode false s) (inform : hs.inform = Kernel.inform cfg) :
    Completes (Mode false) (s.blockReceiver cfg hs caller src) := by
  unfold blockReceiver
  refine .ite_bind (unready_mode h) (.ok h) fun t h => .ite ?_ (.pure h)
  rw [inform]
  exact inform_mode h

/-- **`mini_rec`** may tell MM of a signal. -/
theorem miniRec_mode (h : Mode false s) (inform : hs.inform = Kernel.inform cfg) :
    Completes (Mode false) (s.miniRec cfg hs caller src) := by
  refine .ite (blockReceiver_mode h inform) (.bind_any fun found => ?_)
  split
  · exact acceptFrom_mode h
  · exact .ite (.pure h) (blockReceiver_mode h inform)

/-- **A trap.** -/
theorem sysCall_mode {function : SysFunction} (h : Mode false s) (inform : hs.inform = Kernel.inform cfg) :
    Completes (fun r => Mode false r.2) (s.sysCall cfg hs function src m mapped) := by
  refine .ite (.ok h) (.ite (.ok h) ?_)
  cases function with
  | send => exact miniSend_mode h
  | receive => exact .bind (miniRec_mode h inform) fun t h => .pure h
  | both =>
    refine .bind (miniSend_mode h) ?_
    rintro ⟨n, t⟩ h
    exact .ite (.pure h) (.bind (miniRec_mode h inform) fun u h => .pure h)

end Messages

section Clock

theorem charge_mode (h : Mode b s) : Mode b (s.charge cfg) := by
  obtain ⟨proc, same⟩ := charge_eq cfg s
  rw [same]
  exact h

theorem clockHandler_mode (h : Mode b s) : Completes (Mode b) (s.clockHandler cfg) := by
  exact .ite (interrupt_mode (charge_mode h)) (.ok (.ite (charge_mode h) (charge_mode h)))

theorem wakes_mode (h : Mode b s) (step : Wakes cfg s n t) : Mode b t := by
  cases step with
  | interrupt _ done => exact interrupt_mode h t done
  | send _ _ done => exact miniSend_mode h _ done

theorem alarm_mode (sound : a.Sound cfg u) (h : Mode false s) : Completes (Mode false) ((a.handlers cfg).alarm n s) := by
  unfold Agenda.handlers
  dsimp only
  split
  · rename_i watchDog known
    intro t done
    obtain ⟨tasks, run⟩ := sound.wakes n watchDog known s t done
    exact run.invariant (fun h step => wakes_mode h step) h
  · exact causeSig_mode h

theorem checkAlarm_mode (sound : a.Sound cfg u) (h : Mode false s) : Completes (Mode false) (checkAlarm (a.handlers cfg) s rp) := by
  unfold checkAlarm
  apply Completes.ite
  · exact .ok h
  · apply Completes.ite
    · exact .bind (alarm_mode sound h) fun t h => .pure h
    · exact .bind (Q := Mode false) (.ok h) fun t h => .pure (.ite h h)

theorem doClocktick_mode (sound : a.Sound cfg u) (h : Mode false s) :
    Completes (Mode false) (s.doClocktick cfg (a.handlers cfg)) := by
  unfold doClocktick
  refine .ite_bind (.foldlM h fun _ _ _ h => checkAlarm_mode sound h) (.ok h) fun t h => ?_
  exact .ite (.ite_bind unlocked (.ok h) fun u h => .pure h) (.pure h)

theorem serveRequest_mode {request : Request} (h : Mode b s) : Completes (Mode b) (s.serveRequest cfg request) := by
  have answer {t : Kernel} (h : Mode b t) : Completes (Mode b)
      (let mc := (t.proc (cfg.procAddr CLOCK)).messbuf
      t.miniSend cfg (cfg.procAddr CLOCK) mc.mSource ⟨mc.mSource, 0⟩ true >>= fun r => return r.2) :=
    .bind (miniSend_mode h) fun r h => .pure h
  unfold serveRequest
  cases request with
  | other => exact .error
  | _ => exact answer h

/-- **The clock task.** -/
theorem clockTask_mode (sound : a.Sound cfg u) (h : Mode false s) : Completes (Mode false) (s.clockTask cfg (a.handlers cfg)) := by
  refine .ite (.bind (doClocktick_mode sound h) fun _ h => miniRec_mode h rfl) ?_
  exact .bind (serveRequest_mode h) fun t h => .ite (.ok h) (miniRec_mode h rfl)

theorem clockTick_mode (sound : a.Sound cfg u) (h : Mode false s) : Completes (Mode false) (s.clockTick cfg (a.handlers cfg)) :=
  .ite (clockHandler_mode h) (.bind (clockHandler_mode h) fun _ h => .ite (clockTask_mode sound h) (.pure h))

end Clock

section Requests

theorem stopRunning_mode (h : Mode false s) : Completes (Mode false) (s.stopRunning cfg rc) := .ite unlocked (.ok h)

theorem unlinkSender_mode {fuel np : Nat} (h : Mode b s) : Completes (Mode b) (s.unlinkSender rc fuel np) := by
  induction fuel generalizing np with
  | zero => exact .error
  | succ fuel ih =>
    unfold unlinkSender
    split
    · exact .ok h
    · exact .ite (.ok h) ih

theorem unlinkCaller_mode {rps : List Nat} (h : Mode b s) : Completes (Mode b) (unlinkCaller cfg rc s rps) := by
  induction rps generalizing s with
  | nil => exact .ok h
  | cons rp rps ih =>
    unfold unlinkCaller
    split
    · exact ih h
    · exact .ite (.ok h) (.bind (unlinkSender_mode h) fun t h => ih h)

theorem doXit_mode {proc1 proc2 : Int} (h : Mode false s) : Completes (Mode false) (s.doXit cfg proc1 proc2) := by
  refine .ite .error (.ite .error ?_)
  refine .bind (Q := Mode false) (stopRunning_mode h) fun t h => .bind (Q := Mode false) ?_ fun u h => .pure ?_
  · exact .ite (unlinkCaller_mode h) (.ok h)
  · exact Mode.ite h h

/-- **A request to the system task.** -/
theorem sysTask_mode {call : SysRequest} (h : Mode false s) : Completes (fun r => Mode false r.2) (s.sysTask cfg call) := by
  -- the end of the requests that make a process runnable
  have freed {s : Kernel} {rp : Nat} {c : Prop} [Decidable c] (h : Mode false s) : Completes (fun r => Mode false r.2)
      (if c then s.lockReady rp >>= fun t => return (SysReply.OK, t) else .ok s >>= fun t => return (SysReply.OK, t)) :=
    .ite_bind unlocked (.ok h) fun t h => .pure h
  cases call with
  | fork proc1 proc2 pid =>
    have forked : Completes (Mode false) (s.doFork cfg proc1 proc2 pid) := .ite .error (.ite .error (.ok h))
    exact .bind forked fun t h => .pure h
  | newmap proc1 mapped => exact .ite (.ok h) (.ite .error (freed h))
  | exec proc1 traced known => exact .ite .error (.ite_bind (causeSig_mode h) (.ok h) fun t h => freed h)
  | xit proc1 proc2 => exact .bind (doXit_mode h) fun t h => .pure h
  | kill pr known => exact .ite .error (.bind (causeSig_mode h) fun t h => .pure h)
  | endsig proc1 finished => exact .ite (.ok h) (.ite .error (.ite (.ok h) (freed h)))
  | trace procnr request =>
    refine .ite (.ok h) ?_
    cases request with
    | T_STOP => exact .bind (stopRunning_mode h) fun t h => .pure h
    | T_RESUME => exact freed h
    | T_STEP => exact freed h
  | signon proc_nr priv mapped => exact .ite (.ok h) (.ite (.ok h) (.ok h))
  | getpri pid => exact .ok h
  | setpri pid priority =>
    refine .ok ?_
    unfold doSetpri
    split
    · exact h
    · exact h

theorem nested_mode (h : Mode b s) : Completes (Mode b) (nested cfg s n) := by
  unfold nested
  exact .bind (interrupt_mode h) fun t h => .pure h

theorem flushHeld_mode {fuel : Nat} (h : Mode b s) : Completes (Mode b) (flushHeld cfg fuel s rp windows) := by
  induction fuel generalizing s rp windows with
  | zero => exact .error
  | succ fuel ih =>
    unfold flushHeld
    refine .bind (Q := Mode b) ?_ fun t h => ?_
    · unfold repeatFirst
      exact .bind (Q := Mode b) (.foldlM h fun _ _ _ h => nested_mode h) fun t h => interrupt_mode h
    · split
      · exact .pure h
      · exact ih h

/-- **The flush of held-up interrupts.** -/
theorem unhold_mode (h : Mode b s) : Completes (Mode b) (s.unhold cfg windows) := by
  refine .ite (.ok h) ?_
  split
  · exact .error
  · exact flushHeld_mode h

end Requests

end Kernel

end SoiExercises.Sched
