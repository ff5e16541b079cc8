import Mathlib.Data.Finset.Erase
import SoiExercises.Sched.Proc

/-!
# Interrupts and the clock (`proc.c`, `clock.c`)

`interrupt`, `mini_rec`, `clock_handler` and `do_clocktick`. The clock task waits in
`receive(ANY, &mc)`; a tick that its handler cannot deal with wakes it, and when it has served the
tick it receives again, which blocks it and lets `pick_proc` choose. A request is answered first, and
the clock task does not go on while its answer is not taken. Of the device calls of `clock_handler`, the
PS/2 acknowledgement touches no variable modelled here. The terminal timeout and the printer restart may
call `interrupt` for the terminal or the printer task: such a call is taken as an interrupt of its own just
before the tick, and only the times that are charged could tell the difference.
-/

namespace SoiExercises.Sched

/-- What the clock and message code calls that is modelled elsewhere or not at all. -/
structure Handlers where
  /-- An alarm of the process has gone off: its `watch_dog` function, or `cause_sig`. -/
  alarm (proc_nr : Int) : Kernel → Result Kernel
  /-- A message to the clock task other than `HARD_INT`, and the reply to it. -/
  request : Kernel → Result Kernel
  /-- Tell MM about pending kernel signals. -/
  inform : Kernel → Result Kernel

def MM_PROC_NR : Int := 0
def HARD_INT : Int := 2
def LONG_MAX : Int := 0x7fffffff

def MILLISEC : Nat := 100

/-- Ticks per call of the scheduler. -/
def Config.SCHED_RATE (cfg : Config) : Nat := MILLISEC * cfg.HZ / 1000

theorem Config.rate_pos (cfg : Config) : 0 < cfg.SCHED_RATE := by
  have rate := cfg.rate
  unfold SCHED_RATE MILLISEC
  omega

namespace Kernel

/-- Put `rp` on the queue of held-up interrupts. -/
def hold (s : Kernel) (rp : Nat) : Result Kernel :=
  if (s.proc rp).intHeld then .ok s
  else do
    let s := s.update rp fun p => { p with intHeld := true }
    let s ← match s.heldHead with
      | some _ => match s.heldTail with
        | some t => .ok (s.update t fun p => { p with nextheld := some rp })
        | none => .error .nilPointer
      | none => .ok { s with heldHead := some rp }
    return { s with heldTail := some rp }.update rp fun p => { p with nextheld := none }

/-- Schedule the task that handles an interrupt. The last lines of the source repeat `ready`. -/
def interrupt (cfg : Config) (s : Kernel) (task : Int) : Result Kernel :=
  let rp := cfg.procAddr task
  if s.kReenter ≠ 0 ∨ s.switching then s.hold rp
  else if ¬ (.receiving ∈ (s.proc rp).flags ∧ .sending ∉ (s.proc rp).flags) ∨
      !isRxHardware (s.proc rp).getfrom then
    .ok (s.update rp fun p => { p with intBlocked := true })
  else
    let s := s.update rp fun p => { p with
      messbuf := ⟨HARDWARE, HARD_INT⟩
      flags := p.flags.erase .receiving
      intBlocked := false }
    s.append .taskQ rp

/-- The first sender from `sender` on that `src` accepts, with the one before it on the queue. -/
def findSender (s : Kernel) (src : Int) : Nat → Option Nat → Option Nat → Result (Option (Option Nat × Nat))
  | 0, _, _ => .error .endless
  | _ + 1, _, none => .ok none
  | fuel + 1, previous, some sender =>
    if src = ANY ∨ src = (s.proc sender).nr then .ok (some (previous, sender))
    else s.findSender src fuel (some sender) (s.proc sender).sendlink

/-- Take `sender` off the caller's queue. -/
def dequeueSender (s : Kernel) (caller : Nat) (previous : Option Nat) (sender : Nat) : Result Kernel :=
  if (s.proc caller).callerq = some sender then
    .ok (s.update caller fun p => { p with callerq := (s.proc sender).sendlink })
  else match previous with
    | some previous => .ok (s.update previous fun p => { p with sendlink := (s.proc sender).sendlink })
    | none => .error .nilPointer

/-- Copy the sender's message and deblock it. -/
def acceptFrom (s : Kernel) (caller : Nat) (previous : Option Nat) (sender : Nat) : Result Kernel := do
  let s := s.update caller fun p => { p with messbuf := ⟨(s.proc sender).nr, (s.proc sender).messbuf.mType⟩ }
  let s ← s.dequeueSender caller previous sender
  let s := s.update sender fun p => { p with flags := p.flags.erase .sending }
  if (s.proc sender).flags = ∅ then s.ready sender else return s

/-- No suitable message is available. -/
def blockReceiver (cfg : Config) (hs : Handlers) (s : Kernel) (caller : Nat) (src : Int) :
    Result Kernel := do
  let s := s.update caller fun p => { p with getfrom := src }
  let s ← if (s.proc caller).flags = ∅ then s.unready cfg caller else .ok s
  let s := s.update caller fun p => { p with flags := insert .receiving p.flags }
  if 0 < s.sigProcs ∧ (s.proc caller).nr = MM_PROC_NR ∧ src = ANY then hs.inform s else return s

/-- The caller wants a message from `src` in its buffer. -/
def miniRec (cfg : Config) (hs : Handlers) (s : Kernel) (caller : Nat) (src : Int) : Result Kernel :=
  if .sending ∈ (s.proc caller).flags then s.blockReceiver cfg hs caller src
  else do
    match ← s.findSender src (cfg.endProcAddr + 1) none (s.proc caller).callerq with
    | some (previous, sender) => s.acceptFrom caller previous sender
    | none =>
      if (s.proc caller).intBlocked && isRxHardware src then
        return s.update caller fun p => { p with messbuf := ⟨HARDWARE, HARD_INT⟩, intBlocked := false }
      else s.blockReceiver cfg hs caller src

/-- Charge ticks to `rp`, and to the billable process as system time if that is another one. -/
def bill (cfg : Config) (s : Kernel) (rp : Nat) (ticks : Int) : Kernel :=
  let s := s.update rp fun p => { p with userTime := p.userTime + ticks }
  if rp ≠ s.billPtr ∧ rp ≠ cfg.procAddr IDLE then
    s.update s.billPtr fun p => { p with sysTime := p.sysTime + ticks }
  else s

/-- The accounting of `clock_handler`. -/
def charge (cfg : Config) (s : Kernel) : Kernel :=
  let rp := if s.kReenter ≠ 0 then cfg.procAddr HARDWARE else s.procPtr
  let ticks := s.lostTicks + 1
  { { s with lostTicks := 0 }.bill cfg rp ticks with pendingTicks := s.pendingTicks + ticks }

theorem bill_eq (cfg : Config) (s : Kernel) (rp : Nat) (ticks : Int) : ∃ proc, s.bill cfg rp ticks = { s with proc := proc } := by
  dsimp only [bill]
  split
  · exact ⟨_, rfl⟩
  · exact ⟨_, rfl⟩

/-- The accounting changes no field but the times. -/
theorem bill_field {β : Type} {cfg : Config} {s : Kernel} {rp : Nat} {ticks : Int} (g : Proc → β)
    (user : ∀ p v, g { p with userTime := v } = g p) (sys : ∀ p v, g { p with sysTime := v } = g p)
    (k : Nat) : g ((s.bill cfg rp ticks).proc k) = g (s.proc k) := by
  dsimp only [bill]
  split
  · exact (update_field g (sys _ _) k).trans (update_field g (user _ _) k)
  · exact update_field g (user _ _) k

theorem charge_eq (cfg : Config) (s : Kernel) : ∃ proc, s.charge cfg =
    { s with proc := proc, lostTicks := 0, pendingTicks := s.pendingTicks + (s.lostTicks + 1) } := by
  obtain ⟨proc, billed⟩ := bill_eq cfg { s with lostTicks := 0 }
    (if s.kReenter ≠ 0 then cfg.procAddr HARDWARE else s.procPtr) (s.lostTicks + 1)
  dsimp only [charge]
  rw [billed]
  exact ⟨proc, rfl⟩

/-- Every tick: wake the clock task if an alarm or a call of `sched` may be due, else count. -/
def clockHandler (cfg : Config) (s : Kernel) : Result Kernel :=
  let s := s.charge cfg
  let now := s.realtime + s.pendingTicks
  if s.nextAlarm ≤ now ∨
      s.schedTicks = 1 ∧ s.prevPtr = some s.billPtr ∧ s.rdyHead .userQ ≠ none then
    s.interrupt cfg CLOCK
  else
    let s := { s with schedTicks := s.schedTicks - 1 }
    .ok (if s.schedTicks = 0 then { s with schedTicks := cfg.SCHED_RATE, prevPtr := some s.billPtr }
      else s)

/-- The body of the loop over the alarms. -/
def checkAlarm (hs : Handlers) (s : Kernel) (rp : Nat) : Result Kernel :=
  if (s.proc rp).alarm = 0 then .ok s
  else do
    let s ← if (s.proc rp).alarm ≤ s.realtime then do
        let s ← hs.alarm (s.proc rp).nr s
        return s.update rp fun p => { p with alarm := 0 }
      else .ok s
    return if (s.proc rp).alarm ≠ 0 ∧ (s.proc rp).alarm < s.nextAlarm then
        { s with nextAlarm := (s.proc rp).alarm }
      else s

/-- The ticks on which a lot of work needs to be done. -/
def doClocktick (cfg : Config) (hs : Handlers) (s : Kernel) : Result Kernel := do
  let s ← if s.nextAlarm ≤ s.realtime then
      (List.range cfg.endProcAddr).foldlM (checkAlarm hs) { s with nextAlarm := LONG_MAX }
    else .ok s
  let s := { s with schedTicks := s.schedTicks - 1 }
  if s.schedTicks = 0 then
    let s ← if s.prevPtr = some s.billPtr then s.lockSched cfg else .ok s
    return { s with schedTicks := cfg.SCHED_RATE, prevPtr := some s.billPtr }
  else return s

/-- The clock task goes round its loop, unless it is blocked in `send`: then it calls `receive` by a trap of its
own, when its answer has been taken and it runs again. -/
def nextRound (cfg : Config) (hs : Handlers) (s : Kernel) : Result Kernel :=
  if .sending ∈ (s.proc (cfg.procAddr CLOCK)).flags then .ok s else s.miniRec cfg hs (cfg.procAddr CLOCK) ANY

/-- One iteration of the clock task, from the message it was woken with to the next `receive`. -/
def clockTask (cfg : Config) (hs : Handlers) (s : Kernel) : Result Kernel := do
  let s := { s with realtime := s.realtime + s.pendingTicks, pendingTicks := 0 }
  if (s.proc (cfg.procAddr CLOCK)).messbuf.mType = HARD_INT then do
    let s ← s.doClocktick cfg hs
    s.miniRec cfg hs (cfg.procAddr CLOCK) ANY
  else do
    let s ← hs.request s
    s.nextRound cfg hs

/-- A clock tick: the handler, and then the clock task if it is to run. -/
def tick (cfg : Config) (hs : Handlers) (s : Kernel) : Result Kernel := do
  let s ← s.clockHandler cfg
  if s.procPtr = cfg.procAddr CLOCK then s.clockTask cfg hs else return s

end Kernel

end SoiExercises.Sched
