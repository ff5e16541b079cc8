import Mathlib.Data.Finset.SDiff
import SoiExercises.Sched.Proc

/-!
# The system task's calls on processes (`system.c`)

`do_fork`, `do_xit`, `do_getpri` and `do_setpri`. Message fields are arguments under the source's
names for them. A failed `assert` is a panic.
-/

namespace SoiExercises.Sched

namespace Kernel

/-- The child's slot is the parent's, with the identity, the accounting and the priority replaced;
priorities alternate between 10 and 50. -/
def doFork (cfg : Config) (s : Kernel) (proc1 proc2 pid : Int) : Result Kernel :=
  let rpp := cfg.procAddr proc1
  let rpc := cfg.procAddr proc2
  if !(s.proc rpp).isUserp then .error (.panic "assert(isuserp(rpp))")
  else if !(s.proc rpc).isEmptyp then .error (.panic "assert(isemptyp(rpc))")
  else
    let priority := if s.lastUserPriority = 50 then 10 else 50
    let parent := s.proc rpp
    .ok { s.update rpc (fun _ => { parent with
            nr := proc2
            flags := insert .noMap parent.flags \ {.pending, .sigPending, .pStop}
            pid := pid
            userTime := 0
            sysTime := 0
            childUtime := 0
            childStime := 0
            timeCounter := 0
            userPriority := priority }) with
          lastUserPriority := priority }

/-- Unlink `rc` from the senders after `np`. A queue that ends visits each slot at most once. -/
def unlinkSender (s : Kernel) (rc : Nat) : Nat → Nat → Result Kernel
  | 0, _ => .error .endless
  | fuel + 1, np =>
    match (s.proc np).sendlink with
    | none => .ok s
    | some xp =>
      if xp = rc then .ok (s.update np fun p => { p with sendlink := (s.proc xp).sendlink })
      else s.unlinkSender rc fuel xp

/-- Remove `rc` from the message queues of the slots listed; the search ends at a queue that it
heads. -/
def unlinkCaller (cfg : Config) (rc : Nat) : Kernel → List Nat → Result Kernel
  | s, [] => .ok s
  | s, rp :: rps =>
    match (s.proc rp).callerq with
    | none => unlinkCaller cfg rc s rps
    | some np =>
      if np = rc then .ok (s.update rp fun p => { p with callerq := (s.proc rc).sendlink })
      else do
        let s ← s.unlinkSender rc cfg.endProcAddr np
        unlinkCaller cfg rc s rps

/-- `rc`'s times go to its parent `rp`, and its alarm is off. -/
def chargeParent (s : Kernel) (rp rc : Nat) : Kernel :=
  let s := s.update rp fun p => { p with
    childUtime := p.childUtime + ((s.proc rc).userTime + (s.proc rc).childUtime) }
  let s := s.update rp fun p => { p with
    childStime := p.childStime + ((s.proc rc).sysTime + (s.proc rc).childStime) }
  s.update rc fun p => { p with alarm := 0 }

/-- `if (rc->p_flags == 0) lock_unready(rc)` -/
def stopRunning (cfg : Config) (s : Kernel) (rc : Nat) : Result Kernel :=
  if (s.proc rc).flags = ∅ then s.lockUnready cfg rc else .ok s

/-- A killed process that is queued to send leaves the message queues. -/
def stopSending (cfg : Config) (s : Kernel) (rc : Nat) : Result Kernel :=
  if .sending ∈ (s.proc rc).flags then unlinkCaller cfg rc s (List.range cfg.endProcAddr) else .ok s

/-- `rc`'s slot is free. -/
def vacate (s : Kernel) (rc : Nat) : Kernel :=
  let s := if .pending ∈ (s.proc rc).flags then { s with sigProcs := s.sigProcs - 1 } else s
  s.update rc fun p => { p with flags := ∅, priority := .none }

/-- `proc2` has exited; its parent is `proc1`. -/
def doXit (cfg : Config) (s : Kernel) (proc1 proc2 : Int) : Result Kernel :=
  let rp := cfg.procAddr proc1
  let rc := cfg.procAddr proc2
  if !(s.proc rp).isUserp then .error (.panic "assert(isuserp(rp))")
  else if !(s.proc rc).isUserp then .error (.panic "assert(isuserp(rc))")
  else do
    let s ← (s.chargeParent rp rc).stopRunning cfg rc
    let s ← s.stopSending cfg rc
    return s.vacate rc

/-- The first user slot with the pid `pid`, dead or alive. -/
def findPid (cfg : Config) (s : Kernel) (pid : Int) : Option Nat :=
  (List.range' cfg.begUserAddr (cfg.endProcAddr - cfg.begUserAddr)).find? fun tmp => (s.proc tmp).pid = pid

/-- The priority of the process `pid`, 0 when no slot has that pid. -/
def doGetpri (cfg : Config) (s : Kernel) (pid : Int) : Int :=
  match s.findPid cfg pid with
  | some tmp => (s.proc tmp).userPriority
  | none => 0

/-- The priority a request for `priority` sets. -/
def admittedPriority (priority : Int) : Int :=
  if priority ≤ 0 ∨ 100 < priority then 15 else priority

def doSetpri (cfg : Config) (s : Kernel) (pid priority : Int) : Kernel :=
  match s.findPid cfg pid with
  | some tmp => s.update tmp fun p => { p with userPriority := admittedPriority priority }
  | none => s

end Kernel

/-- The calls that touch priorities, counters or the ready queues. -/
inductive Call where
  | fork (proc1 proc2 pid : Int)
  | xit (proc1 proc2 : Int)
  | setpri (pid priority : Int)
  | sched
  | ready (rp : Nat)
  | unready (rp : Nat)
  deriving DecidableEq

def Kernel.call (cfg : Config) (s : Kernel) : Call → Result Kernel
  | .fork proc1 proc2 pid => s.doFork cfg proc1 proc2 pid
  | .xit proc1 proc2 => s.doXit cfg proc1 proc2
  | .setpri pid priority => .ok (s.doSetpri cfg pid priority)
  | .sched => s.sched cfg
  | .ready rp => s.ready rp
  | .unready rp => s.unready cfg rp

/-- A completed call. -/
def CallStep (cfg : Config) (s : Kernel) (c : Call) (t : Kernel) : Prop := s.call cfg c = .ok t

end SoiExercises.Sched
