import SoiExercises.Sched.Messages
import SoiExercises.Sched.System

/-!
# The system task (`system.c`) and the held-up interrupts (`proc.c`)

The requests to `sys_task` that make a process runnable or stop it, and `unhold`. Of a request, the reply and
what it does to the process table are modelled. What no modelled field determines is an argument: whether a
piece of memory is mapped, whether a signal is in `p_pending`, whether the last signal of `p_pendcount` is
finished, and the interrupts that come in while `unhold` has them enabled.
-/

namespace SoiExercises.Sched

def SYSTASK : Int := -2

/-- What a request to the system task returns. -/
inductive SysReply where
  | OK
  | E_BAD_PROC
  /-- `EIO` -/
  | eio
  | EPERM
  | EFAULT
  | priority (priority : Int)
  deriving DecidableEq

/-- The requests of `ptrace` that stop a process or let it go on. -/
inductive TraceRequest where
  | T_STOP
  | T_RESUME
  | T_STEP
  deriving DecidableEq

/-- A message to the system task. -/
inductive SysRequest where
  | fork (proc1 proc2 pid : Int)
  | newmap (proc1 : Int) (mapped : Bool)
  | exec (proc1 : Int) (traced known : Bool)
  | xit (proc1 proc2 : Int)
  | kill (pr : Int) (known : Bool)
  | endsig (proc1 : Int) (finished : Bool)
  | trace (procnr : Int) (request : TraceRequest)
  | signon (proc_nr : Int) (priv mapped : Bool)
  | getpri (pid : Int)
  | setpri (pid priority : Int)

/-- `isokprocn(n)` -/
def Config.isOkProcn (cfg : Config) (n : Int) : Bool :=
  0 ≤ n + cfg.NR_TASKS && n + cfg.NR_TASKS < cfg.NR_PROCS + cfg.NR_TASKS

namespace Kernel

/-- MM has mapped the memory of a process. -/
def doNewmap (cfg : Config) (s : Kernel) (proc1 : Int) (mapped : Bool) : Result (SysReply × Kernel) :=
  if !cfg.isOkProcn proc1 then .ok (.E_BAD_PROC, s)
  else if !mapped then .error (.panic "assert(src_phys != 0)")
  else do
    let rp := cfg.procAddr proc1
    let old_flags := (s.proc rp).flags
    let s := s.update rp fun p => { p with flags := p.flags.erase .noMap }
    let s ← if old_flags ≠ ∅ ∧ (s.proc rp).flags = ∅ then s.lockReady rp else .ok s
    return (.OK, s)

/-- A process has done an `EXEC`, to which MM does not reply. -/
def doExec (cfg : Config) (s : Kernel) (proc1 : Int) (traced known : Bool) : Result (SysReply × Kernel) :=
  let rp := cfg.procAddr proc1
  if !(s.proc rp).isUserp then .error (.panic "assert(isuserp(rp))")
  else do
    let s ← if traced then s.causeSig cfg proc1 known else .ok s
    let s := s.update rp fun p => { p with flags := p.flags.erase .receiving }
    let s ← if (s.proc rp).flags = ∅ then s.lockReady rp else .ok s
    return (.OK, s)

def doKill (cfg : Config) (s : Kernel) (pr : Int) (known : Bool) : Result (SysReply × Kernel) :=
  if !(s.proc (cfg.procAddr pr)).isUserp then .error (.panic "assert(isuserp(proc_addr(m_ptr->PR)))")
  else do
    let s ← s.causeSig cfg pr known
    return (.OK, s)

/-- MM has finished one signal; `finished` says that it was the last of `p_pendcount`. -/
def doEndsig (cfg : Config) (s : Kernel) (proc1 : Int) (finished : Bool) : Result (SysReply × Kernel) :=
  let rp := cfg.procAddr proc1
  if (s.proc rp).isEmptyp then .ok (.E_BAD_PROC, s)
  else if !(s.proc rp).isUserp then .error (.panic "assert(isuserp(rp))")
  else if !finished then .ok (.OK, s)
  else do
    let s := s.update rp fun p => { p with flags := p.flags.erase .sigPending }
    let s ← if (s.proc rp).flags = ∅ then s.lockReady rp else .ok s
    return (.OK, s)

def doTrace (cfg : Config) (s : Kernel) (procnr : Int) (request : TraceRequest) : Result (SysReply × Kernel) :=
  let rp := cfg.procAddr procnr
  if (s.proc rp).isEmptyp then .ok (.eio, s)
  else match request with
    | .T_STOP => do
      let s ← s.stopRunning cfg rp
      return (.OK, s.update rp fun p => { p with flags := insert .pStop p.flags })
    | .T_RESUME | .T_STEP => do
      let s := s.update rp fun p => { p with flags := p.flags.erase .pStop }
      let s ← if (s.proc rp).flags = ∅ then s.lockReady rp else .ok s
      return (.OK, s)

/-- `do_sysctl` with `SYSSIGNON`: make this process a server. -/
def doSignon (cfg : Config) (s : Kernel) (proc_nr : Int) (priv mapped : Bool) : Result (SysReply × Kernel) :=
  let pp := cfg.procAddr proc_nr
  if !priv || !(s.proc pp).isUserp then .ok (.EPERM, s)
  else if !mapped then .ok (.EFAULT, s)
  else .ok (.OK, s.update pp fun p => { p with priority := .server, pid := 0 })

/-- The dispatch of `sys_task` on a message that it has received. -/
def sysTask (cfg : Config) (s : Kernel) : SysRequest → Result (SysReply × Kernel)
  | .fork proc1 proc2 pid => do
    let s ← s.doFork cfg proc1 proc2 pid
    return (.OK, s)
  | .newmap proc1 mapped => s.doNewmap cfg proc1 mapped
  | .exec proc1 traced known => s.doExec cfg proc1 traced known
  | .xit proc1 proc2 => do
    let s ← s.doXit cfg proc1 proc2
    return (.OK, s)
  | .kill pr known => s.doKill cfg pr known
  | .endsig proc1 finished => s.doEndsig cfg proc1 finished
  | .trace procnr request => s.doTrace cfg procnr request
  | .signon proc_nr priv mapped => s.doSignon cfg proc_nr priv mapped
  | .getpri pid => .ok (.priority (s.doGetpri cfg pid), s)
  | .setpri pid priority => .ok (.OK, s.doSetpri cfg pid priority)

/-- An interrupt that comes in while the kernel runs is nested. -/
def nested (cfg : Config) (s : Kernel) (task : Int) : Result Kernel := do
  let t ← { s with kReenter := s.kReenter + 1 }.interrupt cfg task
  return { t with kReenter := s.kReenter }

/-- The body of the loop in `unhold`: the interrupt of `rp`, the first of the queue, is repeated. The interrupts of
`arrivals` come in as soon as they are enabled. -/
def repeatFirst (cfg : Config) (s : Kernel) (rp : Nat) (arrivals : List Int) : Result Kernel := do
  let held_head := (s.proc rp).nextheld
  let s := { s with heldHead := held_head, heldTail := if held_head = none then none else s.heldTail }
  let s := s.update rp fun p => { p with intHeld := false }
  let s ← arrivals.foldlM (nested cfg) s
  s.interrupt cfg (s.proc rp).nr

/-- The loop in `unhold`; in each round the interrupts of one of the `windows` come in. -/
def flushHeld (cfg : Config) : Nat → Kernel → Nat → List (List Int) → Result Kernel
  | 0, _, _, _ => .error .endless
  | fuel + 1, s, rp, windows => do
    let s ← s.repeatFirst cfg rp (windows.headD [])
    match s.heldHead with
    | none => return s
    | some rp => flushHeld cfg fuel s rp windows.tail

/-- Flush any held-up interrupts. -/
def unhold (cfg : Config) (s : Kernel) (windows : List (List Int)) : Result Kernel :=
  if s.switching then .ok s
  else match s.heldHead with
    | none => .error .nilPointer
    | some rp => flushHeld cfg (windows.length + cfg.endProcAddr) s rp windows

end Kernel

end SoiExercises.Sched
