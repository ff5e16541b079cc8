import Mathlib.Data.Finset.Insert
import Mathlib.Logic.Function.Basic

/-!
# The process table and the ready queues (`proc.h`, `proc.c`)

A slot of `proc[]` is its index, a `struct proc *` an optional index, and `NIL_PROC` is `none`.
`Proc` holds the fields the scheduler, the clock and the modelled system calls read. A panic, a
dereference of `NIL_PROC` and a walk along cyclic links are `Fault`s.
-/

namespace SoiExercises.Sched

/-- The sizes a Minix configuration fixes. Six kernel tasks have fixed negative numbers, and the
clock rate gives at least one tick in 100 ms. -/
structure Config where
  NR_TASKS : Nat
  NR_PROCS : Nat
  LOW_USER : Nat
  HZ : Nat
  tasks : 6 ≤ NR_TASKS
  low_user : LOW_USER ≤ NR_PROCS
  rate : 10 ≤ HZ

/-- Bits of `p_flags`; a process is runnable when none is set. -/
inductive Flag where
  | noMap
  | sending
  | receiving
  | pending
  | sigPending
  | pStop
  deriving DecidableEq

/-- Values of `p_priority`. -/
inductive Ppri where
  | none
  | task
  | server
  | user
  | idle
  deriving DecidableEq

/-- The ready queues. -/
inductive Queue where
  | taskQ
  | serverQ
  | userQ
  deriving DecidableEq

/-- The header of a message. -/
structure Message where
  mSource : Int
  mType : Int

structure Proc where
  /-- `*p_stguard == STACK_GUARD` -/
  stackOk : Bool
  nr : Int
  intBlocked : Bool
  intHeld : Bool
  nextheld : Option Nat
  flags : Finset Flag
  pid : Int
  priority : Ppri
  userPriority : Int
  timeCounter : Int
  userTime : Int
  sysTime : Int
  childUtime : Int
  childStime : Int
  alarm : Int
  callerq : Option Nat
  sendlink : Option Nat
  messbuf : Message
  getfrom : Int
  sendto : Int
  nextready : Option Nat

/-- The process table and the variables of `proc.c`, `clock.c` and `system.c`. -/
structure Kernel where
  proc : Nat → Proc
  procPtr : Nat
  billPtr : Nat
  rdyHead : Queue → Option Nat
  rdyTail : Queue → Option Nat
  heldHead : Option Nat
  heldTail : Option Nat
  kReenter : Int
  switching : Bool
  sigProcs : Int
  lastUserPriority : Int
  realtime : Int
  nextAlarm : Int
  pendingTicks : Int
  lostTicks : Int
  schedTicks : Int
  prevPtr : Option Nat

inductive Fault where
  | nilPointer
  | endless
  | panic (text : String)

abbrev Result := Except Fault

def IDLE : Int := -6
def CLOCK : Int := -3
def HARDWARE : Int := -1
def ANY : Int := 0x7ace

/-- `proc_addr(n)`, the slot of process number `n`. -/
def Config.procAddr (cfg : Config) (n : Int) : Nat := (n + cfg.NR_TASKS).toNat

/-- `END_PROC_ADDR` -/
def Config.endProcAddr (cfg : Config) : Nat := cfg.NR_TASKS + cfg.NR_PROCS

/-- `BEG_USER_ADDR` -/
def Config.begUserAddr (cfg : Config) : Nat := cfg.NR_TASKS + cfg.LOW_USER

def Proc.isEmptyp (p : Proc) : Bool := p.priority = .none
def Proc.isTaskp (p : Proc) : Bool := p.priority = .task
def Proc.isServp (p : Proc) : Bool := p.priority = .server
def Proc.isUserp (p : Proc) : Bool := p.priority = .user

/-- A slot of the table that no process uses. -/
def Proc.unused : Proc where
  stackOk := true
  nr := 0
  intBlocked := false
  intHeld := false
  nextheld := none
  flags := ∅
  pid := 0
  priority := .none
  userPriority := 0
  timeCounter := 0
  userTime := 0
  sysTime := 0
  childUtime := 0
  childStime := 0
  alarm := 0
  callerq := none
  sendlink := none
  messbuf := ⟨0, 0⟩
  getfrom := 0
  sendto := 0
  nextready := none

/-- `isrxhardware(n)` -/
def isRxHardware (n : Int) : Bool := n = ANY || n = HARDWARE

namespace Kernel

/-- Overwrite slot `k`. -/
def update (s : Kernel) (k : Nat) (f : Proc → Proc) : Kernel :=
  { s with proc := Function.update s.proc k (f (s.proc k)) }

@[simp] theorem update_proc_self {s : Kernel} {k : Nat} {f : Proc → Proc} : (s.update k f).proc k = f (s.proc k) :=
  Function.update_self ..

theorem update_proc_ne {s : Kernel} {j k : Nat} {f : Proc → Proc} (h : j ≠ k) : (s.update k f).proc j = s.proc j :=
  Function.update_of_ne h ..

/-- A field that `f` leaves alone is the same in every slot after an update. -/
theorem update_field {β : Type} {s : Kernel} {k : Nat} {f : Proc → Proc} (g : Proc → β)
    (same : g (f (s.proc k)) = g (s.proc k)) (j : Nat) : g ((s.update k f).proc j) = g (s.proc j) := by
  by_cases hj : j = k
  · subst hj
    rw [update_proc_self]
    exact same
  · rw [update_proc_ne hj]

/-- `proc[k].p_nextready = v` -/
def setNextready (s : Kernel) (k : Nat) (v : Option Nat) : Kernel :=
  s.update k fun p => { p with nextready := v }

/-- The `p_nextready` links. -/
def links (s : Kernel) (k : Nat) : Option Nat := (s.proc k).nextready

theorem links_setNextready {s : Kernel} {k : Nat} {v : Option Nat} :
    (s.setNextready k v).links = Function.update s.links k v := by
  funext j
  unfold links setNextready
  by_cases hj : j = k
  · subst hj
    rw [update_proc_self, Function.update_self]
  · rw [update_proc_ne hj, Function.update_of_ne hj]

/-- `rdy_head[q] = v` -/
def setHead (s : Kernel) (q : Queue) (v : Option Nat) : Kernel :=
  { s with rdyHead := Function.update s.rdyHead q v }

@[simp] theorem setHead_rdyHead_self {s : Kernel} {q : Queue} {v : Option Nat} : (s.setHead q v).rdyHead q = v :=
  Function.update_self ..

theorem setHead_rdyHead_ne {s : Kernel} {q q' : Queue} {v : Option Nat} (h : q' ≠ q) :
    (s.setHead q v).rdyHead q' = s.rdyHead q' := Function.update_of_ne h ..

/-- `rdy_tail[q] = v` -/
def setTail (s : Kernel) (q : Queue) (v : Option Nat) : Kernel :=
  { s with rdyTail := Function.update s.rdyTail q v }

@[simp] theorem setTail_rdyTail_self {s : Kernel} {q : Queue} {v : Option Nat} : (s.setTail q v).rdyTail q = v :=
  Function.update_self ..

theorem setTail_rdyTail_ne {s : Kernel} {q q' : Queue} {v : Option Nat} (h : q' ≠ q) :
    (s.setTail q v).rdyTail q' = s.rdyTail q' := Function.update_of_ne h ..

/-- `rdy_tail[q]->p_nextready = v` -/
def setTailNextready (s : Kernel) (q : Queue) (v : Option Nat) : Result Kernel :=
  match s.rdyTail q with
  | some t => .ok (s.setNextready t v)
  | none => .error .nilPointer

theorem setTailNextready_of {s : Kernel} {q : Queue} {k : Nat} {v : Option Nat} (tail : s.rdyTail q = some k) :
    s.setTailNextready q v = .ok (s.setNextready k v) := by
  unfold setTailNextready
  rw [tail]

/-- Decide who runs now; a fresh user or idle process is recorded in `bill_ptr`. -/
def pickProc (cfg : Config) (s : Kernel) : Kernel :=
  match s.rdyHead .taskQ with
  | some rp => { s with procPtr := rp }
  | none =>
    match s.rdyHead .serverQ with
    | some rp => { s with procPtr := rp }
    | none =>
      match s.rdyHead .userQ with
      | some rp => { s with procPtr := rp, billPtr := rp }
      | none => { s with procPtr := cfg.procAddr IDLE, billPtr := cfg.procAddr IDLE }

/-- Link `rp` behind the last entry of the task or server queue, or make it the head of an empty one;
a task that finds its queue empty runs next. -/
def linkLast (s : Kernel) (q : Queue) (rp : Nat) : Result Kernel :=
  match s.rdyHead q with
  | some _ => s.setTailNextready q (some rp)
  | none => .ok { s.setHead q (some rp) with procPtr := if q = .taskQ then rp else s.procPtr }

/-- Add `rp` to the tail of the task or server queue. -/
def append (s : Kernel) (q : Queue) (rp : Nat) : Result Kernel := do
  let s ← s.linkLast q rp
  return (s.setTail q (some rp)).setNextready rp none

/-- `rp` is runnable: to the tail of the task or server queue, or to the front of the user queue. -/
def ready (s : Kernel) (rp : Nat) : Result Kernel :=
  if (s.proc rp).isTaskp then s.append .taskQ rp
  else if (s.proc rp).isServp then s.append .serverQ rp
  else
    let s := if s.rdyHead .userQ = none then s.setTail .userQ (some rp) else s
    .ok ((s.setNextready rp (s.rdyHead .userQ)).setHead .userQ (some rp))

/-- The loop at the end of `unready`: the slot before `rp` on the list that starts at `xp`. A list
that ends visits each slot of the table at most once, so `fuel` runs out on cyclic links only. -/
def findPrev (s : Kernel) (rp : Nat) : Nat → Nat → Result (Option Nat)
  | 0, _ => .error .endless
  | fuel + 1, xp =>
    if (s.proc xp).nextready = some rp then .ok (some xp)
    else match (s.proc xp).nextready with
      | none => .ok none
      | some xp => s.findPrev rp fuel xp

/-- The body of `unready` for one queue: unlink `rp`, with a `pick_proc` after removing the head
when `pick` says so. -/
def unlink (cfg : Config) (s : Kernel) (q : Queue) (pick : Bool) (rp : Nat) : Result Kernel :=
  match s.rdyHead q with
  | none => .ok s
  | some xp =>
    if xp = rp then
      let s := s.setHead q (s.proc xp).nextready
      .ok (if pick then s.pickProc cfg else s)
    else do
      let found ← s.findPrev rp cfg.endProcAddr xp
      return match found with
        | none => s
        | some xp =>
          let s := s.setNextready xp (s.proc rp).nextready
          if s.rdyTail q = some rp then s.setTail q (some xp) else s

/-- `rp` has blocked. `CHIP` is `INTEL`, where a blocked server or user always picks anew. -/
def unready (cfg : Config) (s : Kernel) (rp : Nat) : Result Kernel :=
  if (s.proc rp).isTaskp then
    if (s.proc rp).stackOk then s.unlink cfg .taskQ (rp = s.procPtr) rp
    else .error (.panic "stack overrun by task")
  else if (s.proc rp).isServp then s.unlink cfg .serverQ true rp
  else s.unlink cfg .userQ true rp

/-- The end of a quantum of the head of the user queue: count it, or move the head to the tail. -/
def sched (cfg : Config) (s : Kernel) : Result Kernel :=
  match s.rdyHead .userQ with
  | none => .ok s
  | some head =>
    if (s.proc head).timeCounter ≠ (s.proc head).userPriority then
      .ok (s.update head fun p => { p with timeCounter := p.timeCounter + 1 })
    else do
      let s := s.update head fun p => { p with timeCounter := 0 }
      let s ← s.setTailNextready .userQ (some head)
      let s := s.setTail .userQ (some head)
      let s := s.setHead .userQ (s.proc head).nextready
      let s ← s.setTailNextready .userQ none
      return s.pickProc cfg

/-- `lock_ready`, the gateway to `ready` for tasks: `switching` is set during the call only. -/
def lockReady (s : Kernel) (rp : Nat) : Result Kernel := do
  let s ← { s with switching := true }.ready rp
  return { s with switching := false }

def lockUnready (cfg : Config) (s : Kernel) (rp : Nat) : Result Kernel := do
  let s ← { s with switching := true }.unready cfg rp
  return { s with switching := false }

def lockSched (cfg : Config) (s : Kernel) : Result Kernel := do
  let s ← { s with switching := true }.sched cfg
  return { s with switching := false }

end Kernel

end SoiExercises.Sched
