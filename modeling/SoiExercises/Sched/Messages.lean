import SoiExercises.Lib.Run
import SoiExercises.Sched.Clock

/-!
# Messages, signals and requests to the clock (`proc.c`, `system.c`, `clock.c`)

`mini_send`, `sys_call`, `inform`, `cause_sig` and the clock task's other requests, which complete the
handlers of `SoiExercises.Sched.Clock`. A message is its header. What no modelled field determines is an
argument: whether a message lies in the caller's data segment, whether a signal is in `p_pending`, what
is in `watch_dog[]`, and the contents of a request.
-/

namespace SoiExercises.Sched

open SoiExercises.Lib

/-- What `sys_call` returns. -/
inductive Reply where
  | OK
  | E_BAD_SRC
  | E_NO_PERM
  | E_BAD_DEST
  | EFAULT
  | ELOCKED
  deriving DecidableEq

/-- The function that a trap asks for. -/
inductive SysFunction where
  | send
  | receive
  | both
  deriving DecidableEq

def FS_PROC_NR : Int := 1
def KSIG : Int := 64

/-- `issysentn(n)` -/
def isSysentn (n : Int) : Bool := n = FS_PROC_NR || n = MM_PROC_NR

/-- `isoksrc_dest(n)` -/
def Config.isOkSrcDest (cfg : Config) (n : Int) : Bool :=
  (0 ≤ n + cfg.NR_TASKS && n + cfg.NR_TASKS < cfg.NR_PROCS + cfg.NR_TASKS) || n = ANY

/-- The process waits for a message that it would take from process number `n`. -/
def Proc.waitsFor (p : Proc) (n : Int) : Bool :=
  .receiving ∈ p.flags && .sending ∉ p.flags && (p.getfrom = ANY || p.getfrom = n)

/-- A request to the clock task, with `CLOCK_PROC_NR` and `DELTA_TICKS`. -/
inductive Request where
  | getUptime
  | getTime
  | setTime
  | setAlarm (proc_nr delta_ticks : Int)
  | setSyncAl (proc_nr delta_ticks : Int)
  | other

/-- What the clock task reads that is not modelled. -/
structure Agenda where
  /-- `watch_dog[]`, by process number -/
  watchDog : Int → Option (Kernel → Result Kernel)
  /-- `SIGALRM` is in the process's `p_pending` already -/
  pending : Int → Bool
  request : Request

namespace Kernel

/-- The loop over `p_sendto`: whether the senders from `next_ptr` on lead to `caller`. -/
def sendsTo (cfg : Config) (s : Kernel) (caller : Nat) : Nat → Nat → Result Bool
  | 0, _ => .error .endless
  | fuel + 1, nextPtr =>
    if nextPtr = caller then .ok true
    else if .sending ∈ (s.proc nextPtr).flags then
      s.sendsTo cfg caller fuel (cfg.procAddr (s.proc nextPtr).sendto)
    else .ok false

/-- `caller` and `dest` would send to each other. -/
def deadlocked (cfg : Config) (s : Kernel) (caller dest : Nat) : Result Bool :=
  if .sending ∈ (s.proc dest).flags then
    s.sendsTo cfg caller cfg.endProcAddr (cfg.procAddr (s.proc dest).sendto)
  else .ok false

/-- The destination is waiting for this message: copy it and deblock the destination. -/
def deliver (s : Kernel) (caller dest : Nat) (m : Message) : Result Kernel :=
  let s := s.update dest fun p => { p with
    messbuf := ⟨(s.proc caller).nr, m.mType⟩
    flags := p.flags.erase .receiving }
  if (s.proc dest).flags = ∅ then s.ready dest else .ok s

/-- The last sender of the queue from `np` on. -/
def lastSender (s : Kernel) : Nat → Nat → Result Nat
  | 0, _ => .error .endless
  | fuel + 1, np =>
    match (s.proc np).sendlink with
    | none => .ok np
    | some np => s.lastSender fuel np

/-- Put `caller` at the end of the message queue of `dest`. -/
def enqueueSender (cfg : Config) (s : Kernel) (caller dest : Nat) : Result Kernel := do
  let s ← match (s.proc dest).callerq with
    | none => .ok (s.update dest fun p => { p with callerq := some caller })
    | some np => do
      let last ← s.lastSender cfg.endProcAddr np
      pure (s.update last fun p => { p with sendlink := some caller })
  return s.update caller fun p => { p with sendlink := none }

/-- The destination is not waiting: block and queue the caller. -/
def blockSender (cfg : Config) (s : Kernel) (caller : Nat) (dest : Int) (m : Message) : Result Kernel := do
  let s := s.update caller fun p => { p with messbuf := m }
  let s ← if (s.proc caller).flags = ∅ then s.unready cfg caller else .ok s
  let s := s.update caller fun p => { p with flags := insert .sending p.flags, sendto := dest }
  s.enqueueSender cfg caller (cfg.procAddr dest)

/-- Send `m` to process number `dest`; `mapped` says that the message lies in the caller's data. -/
def miniSend (cfg : Config) (s : Kernel) (caller : Nat) (dest : Int) (m : Message) (mapped : Bool) :
    Result (Reply × Kernel) :=
  let destPtr := cfg.procAddr dest
  if (s.proc caller).isUserp && !isSysentn dest then .ok (.E_BAD_DEST, s)
  else if (s.proc destPtr).isEmptyp then .ok (.E_BAD_DEST, s)
  else if !mapped then .ok (.EFAULT, s)
  else do
    if ← s.deadlocked cfg caller destPtr then return (.ELOCKED, s)
    else if (s.proc destPtr).waitsFor (s.proc caller).nr then
      let s ← s.deliver caller destPtr m
      return (.OK, s)
    else
      let s ← s.blockSender cfg caller dest m
      return (.OK, s)

/-- `lock_mini_send` -/
def lockMiniSend (cfg : Config) (s : Kernel) (caller : Nat) (dest : Int) (m : Message) (mapped : Bool) :
    Result (Reply × Kernel) := do
  let (result, s) ← { s with switching := true }.miniSend cfg caller dest m mapped
  return (result, { s with switching := false })

/-- `lock_pick_proc` -/
def lockPickProc (cfg : Config) (s : Kernel) : Kernel :=
  { { s with switching := true }.pickProc cfg with switching := false }

/-- A trap of the running process. -/
def sysCall (cfg : Config) (hs : Handlers) (s : Kernel) (function : SysFunction) (srcDest : Int) (m : Message)
    (mapped : Bool) : Result (Reply × Kernel) :=
  let rp := s.procPtr
  if !cfg.isOkSrcDest srcDest then .ok (.E_BAD_SRC, s)
  else if (s.proc rp).isUserp && function ≠ .both then .ok (.E_NO_PERM, s)
  else match function with
    | .send => s.miniSend cfg rp srcDest m mapped
    | .receive => do
      let s ← s.miniRec cfg hs rp srcDest
      return (.OK, s)
    | .both => do
      let (n, s) ← s.miniSend cfg rp srcDest m mapped
      if n ≠ .OK then return (n, s)
      else
        let s ← s.miniRec cfg hs rp srcDest
        return (.OK, s)

/-- The first process from the servers on with a signal that MM does not know. -/
def findPending (cfg : Config) (s : Kernel) : Option Nat :=
  (List.range' cfg.NR_TASKS cfg.NR_PROCS).find? fun rp => .pending ∈ (s.proc rp).flags

/-- MM is waiting for new input: send it a pending signal in the name of the hardware. -/
def inform (cfg : Config) (s : Kernel) : Result Kernel :=
  match s.findPending cfg with
  | none => .ok s
  | some rp => do
    let s := { s with sigProcs := s.sigProcs - 1 }
    let (result, s) ← s.lockMiniSend cfg (cfg.procAddr HARDWARE) MM_PROC_NR ⟨HARDWARE, KSIG⟩ true
    if result ≠ .OK then .error (.panic "can't inform MM")
    else return (s.update rp fun p => { p with flags := p.flags.erase .pending }).lockPickProc cfg

/-- A task signals process number `proc_nr`; `known` says that the signal is in its `p_pending`. -/
def causeSig (cfg : Config) (s : Kernel) (proc_nr : Int) (known : Bool) : Result Kernel :=
  let rp := cfg.procAddr proc_nr
  if known then .ok s
  else if .pending ∈ (s.proc rp).flags then .ok s
  else do
    let s ← if (s.proc rp).flags = ∅ then s.lockUnready cfg rp else .ok s
    let s := s.update rp fun p => { p with flags := insert .pending (insert .sigPending p.flags) }
    let s := { s with sigProcs := s.sigProcs + 1 }
    let mmp := s.proc (cfg.procAddr MM_PROC_NR)
    if .receiving ∉ mmp.flags ∨ mmp.getfrom ≠ ANY then return s else s.inform cfg

/-- Record an alarm request and compute the next alarm. -/
def commonSetalarm (cfg : Config) (s : Kernel) (proc_nr delta_ticks : Int) : Kernel :=
  let s := s.update (cfg.procAddr proc_nr) fun p => { p with
    alarm := if delta_ticks = 0 then 0 else s.realtime + delta_ticks }
  { s with nextAlarm := (List.range cfg.endProcAddr).foldl (fun next rp =>
      if (s.proc rp).alarm ≠ 0 ∧ (s.proc rp).alarm < next then (s.proc rp).alarm else next) LONG_MAX }

/-- Serve a request to the clock task, and send the reply. -/
def serveRequest (cfg : Config) (s : Kernel) (request : Request) : Result Kernel := do
  let s ← match request with
    | .getUptime | .getTime | .setTime => .ok s
    | .setAlarm proc_nr delta_ticks => .ok (s.commonSetalarm cfg proc_nr delta_ticks)
    | .setSyncAl proc_nr delta_ticks => .ok (s.commonSetalarm cfg proc_nr delta_ticks)
    | .other => .error (.panic "clock task got bad message")
  let mc := (s.proc (cfg.procAddr CLOCK)).messbuf
  let (_, s) ← s.miniSend cfg (cfg.procAddr CLOCK) mc.mSource ⟨mc.mSource, 0⟩ true
  return s

end Kernel

/-- The handlers, with what is not modelled as an agenda gives it. -/
def Agenda.handlers (cfg : Config) (a : Agenda) : Handlers where
  alarm proc_nr s := match a.watchDog proc_nr with
    | some watchDog => watchDog s
    | none => s.causeSig cfg proc_nr (a.pending proc_nr)
  request s := s.serveRequest cfg a.request
  inform s := s.inform cfg

/-- Watch dogs that do nothing. -/
def Agenda.quiet : Agenda := ⟨fun _ => some .ok, fun _ => false, .other⟩

/-- One thing a watch dog does: it wakes a task, by an interrupt or by a message that the task waits for. -/
inductive Wakes (cfg : Config) (s : Kernel) (task : Int) (t : Kernel) : Prop
  | interrupt : (s.proc (cfg.procAddr task)).isTaskp → s.interrupt cfg task = .ok t → Wakes cfg s task t
  | send {m : Message} : (s.proc (cfg.procAddr task)).isTaskp →
      (s.proc (cfg.procAddr task)).waitsFor (s.proc (cfg.procAddr CLOCK)).nr →
      s.miniSend cfg (cfg.procAddr CLOCK) task m true = .ok (.OK, t) → Wakes cfg s task t

/-- Tasks have watch dogs in place of signals, and a watch dog only wakes tasks. -/
structure Agenda.Sound (cfg : Config) (a : Agenda) (s : Kernel) : Prop where
  watched : ∀ proc_nr, a.watchDog proc_nr = none → (s.proc (cfg.procAddr proc_nr)).isTaskp = false
  wakes : ∀ proc_nr watchDog, a.watchDog proc_nr = some watchDog →
    ∀ s t, watchDog s = .ok t → ∃ tasks, Run (Wakes cfg) s tasks t

/-- The clock task has not served the message in its buffer yet. When it has, `m_type` is `OK`. -/
def Kernel.Unserved (cfg : Config) (s : Kernel) : Prop := (s.proc (cfg.procAddr CLOCK)).messbuf.mType ≠ 0

/-- What moves the kernel: a trap of the running process, the interrupt of a task's device, a clock
interrupt, and the clock task's turn when it has got a request or other tasks ran before it. A clock task
that was blocked in `send` goes on with the trap for its next `receive`. -/
inductive Event where
  | sysCall (function : SysFunction) (srcDest : Int) (m : Message) (mapped : Bool)
  | interrupt (task : Int)
  | tick (agenda : Agenda)
  | clock (agenda : Agenda)

/-- A clock interrupt that finds the clock task running leaves the rest to it. -/
def Kernel.clockTick (cfg : Config) (hs : Handlers) (s : Kernel) : Result Kernel :=
  if s.procPtr = cfg.procAddr CLOCK then s.clockHandler cfg else s.tick cfg hs

/-- One event. The idle process makes no calls. -/
def EventStep (cfg : Config) (s : Kernel) (e : Event) (t : Kernel) : Prop :=
  match e with
  | .sysCall function srcDest m mapped =>
      ((s.proc s.procPtr).isTaskp ∨ (s.proc s.procPtr).isServp ∨ (s.proc s.procPtr).isUserp) ∧
      ∃ n, s.sysCall cfg (Agenda.quiet.handlers cfg) function srcDest m mapped = .ok (n, t)
  | .interrupt task => (s.proc (cfg.procAddr task)).isTaskp ∧ s.interrupt cfg task = .ok t
  | .tick a => a.Sound cfg s ∧ s.clockTick cfg (a.handlers cfg) = .ok t
  | .clock a => a.Sound cfg s ∧ s.procPtr = cfg.procAddr CLOCK ∧ s.Unserved cfg ∧
      s.clockTask cfg (a.handlers cfg) = .ok t

end SoiExercises.Sched
