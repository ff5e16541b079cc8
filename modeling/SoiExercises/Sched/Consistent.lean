import SoiExercises.Sched.Frame
import SoiExercises.Sched.Messages

/-!
# The running process, the billed process and the ready queues

When no task and no server is ready, `proc_ptr` and `bill_ptr` are what `pick_proc` would choose, the head of
the user queue; and a task runs exactly when one is ready. `Consistent` says this, with what it rests on:
every queue holds processes of its own kind only. It is shown once for each operation of `proc.c`,
`clock.c` and `system.c`, together with what the alarms of a clock tick leave alone (`Watched`).
-/

namespace SoiExercises.Sched

open SoiExercises.Lib

/-- The ready queue of a process. -/
def Ppri.queue : Ppri → Queue
  | .task => .taskQ
  | .server => .serverQ
  | _ => .userQ

/-- The parts that some processes play, whatever the events. -/
structure Roles (cfg : Config) (prio : Nat → Ppri) : Prop where
  servers : ∀ n, isSysentn n → prio (cfg.procAddr n) = .server
  clock : prio (cfg.procAddr CLOCK) = .task
  hardware : prio (cfg.procAddr HARDWARE) = .idle
  idle : prio (cfg.procAddr IDLE) = .idle

/-- What the alarms of a tick leave alone: the numbers of the quantum, and the head of the user queue if
it is given. -/
structure Watch where
  billPtr : Nat
  schedTicks : Int
  prevPtr : Option Nat
  realtime : Int
  head : Option (Option Nat)

namespace Kernel

/-- The processes have their numbers and priorities, and the queues hold processes of their own kind. -/
structure Typed (cfg : Config) (prio : Nat → Ppri) (s : Kernel) : Prop where
  roles : Roles cfg prio
  priority : ∀ k, (s.proc k).priority = prio k
  number : ∀ k, (s.proc k).nr = k - cfg.NR_TASKS
  head : ∀ {q k}, s.rdyHead q = some k → (prio k).queue = q
  tail : ∀ {q k}, s.rdyTail q = some k → (prio k).queue = q
  link : ∀ {j k}, (s.proc j).nextready = some k → (prio k).queue = (prio j).queue

/-- A task or a server is ready. -/
def Busy (s : Kernel) : Prop := s.rdyHead .taskQ ≠ none ∨ s.rdyHead .serverQ ≠ none

/-- Whom `pick_proc` chooses when no task and no server is ready. -/
def choice (cfg : Config) (s : Kernel) : Nat := (s.rdyHead .userQ).getD (cfg.procAddr IDLE)

/-- A task is ready, and nothing that is watched has changed. -/
structure Watched (x : Watch) (s : Kernel) : Prop where
  tasks : s.rdyHead .taskQ ≠ none
  billPtr : s.billPtr = x.billPtr
  schedTicks : s.schedTicks = x.schedTicks
  prevPtr : s.prevPtr = x.prevPtr
  realtime : s.realtime = x.realtime
  head : ∀ h, x.head = some h → s.rdyHead .userQ = h
  notDue : ∀ b, x.head = some (some b) → (s.proc b).alarm ≠ 0 → x.realtime < (s.proc b).alarm

/-- Tasks run when they are ready, and the process that runs when neither a task nor a server is ready is
the head of the user queue and is billed. -/
structure Consistent (cfg : Config) (prio : Nat → Ppri) (w : Option Watch) (s : Kernel) : Prop where
  typed : Typed cfg prio s
  running : ∀ k, s.rdyHead .taskQ = some k → s.procPtr = k
  resting : s.rdyHead .taskQ = none → (prio s.procPtr).queue ≠ .taskQ
  settled : s.rdyHead .taskQ = none → s.rdyHead .serverQ = none →
    s.procPtr = s.choice cfg ∧ s.billPtr = s.choice cfg
  watched : ∀ x, w = some x → Watched x s

/-- The slot keeps its number, its priority and its link, and its alarm or none. -/
structure SameStanding (p p' : Proc) : Prop where
  nr : p'.nr = p.nr
  priority : p'.priority = p.priority
  nextready : p'.nextready = p.nextready
  alarm : p'.alarm = 0 ∨ p'.alarm = p.alarm

/-- What is watched besides the queues. -/
structure Alike (s t : Kernel) : Prop where
  billPtr : t.billPtr = s.billPtr
  schedTicks : t.schedTicks = s.schedTicks
  prevPtr : t.prevPtr = s.prevPtr
  realtime : t.realtime = s.realtime
  alarm : ∀ k, (t.proc k).alarm = 0 ∨ (t.proc k).alarm = (s.proc k).alarm

variable {cfg : Config} {prio : Nat → Ppri} {w : Option Watch} {x : Watch} {s t : Kernel} {k rp : Nat}
  {q : Queue} {v : Option Nat} {f : Proc → Proc}

theorem isTaskp_iff (h : Typed cfg prio s) : (s.proc k).isTaskp ↔ (prio k).queue = .taskQ := by
  unfold Proc.isTaskp
  rw [h.priority]
  cases prio k <;> simp [Ppri.queue]

theorem isServp_iff (h : Typed cfg prio s) : (s.proc k).isServp ↔ (prio k).queue = .serverQ := by
  unfold Proc.isServp
  rw [h.priority]
  cases prio k <;> simp [Ppri.queue]

/-- The dispatch of `ready` and `unready`. -/
theorem queue_user (h : Typed cfg prio s) (notTask : ¬ (s.proc k).isTaskp) (notServer : ¬ (s.proc k).isServp) :
    (prio k).queue = .userQ := by
  rw [isTaskp_iff h] at notTask
  rw [isServp_iff h] at notServer
  cases kind : (prio k).queue with
  | taskQ => exact absurd kind notTask
  | serverQ => exact absurd kind notServer
  | userQ => rfl

namespace Typed

theorem of_proc (h : Typed cfg prio s) (proc : t.proc = s.proc)
    (head : ∀ {q k}, t.rdyHead q = some k → (prio k).queue = q)
    (tail : ∀ {q k}, t.rdyTail q = some k → (prio k).queue = q) : Typed cfg prio t where
  roles := h.roles
  priority k := by
    rw [proc]
    exact h.priority k
  number k := by
    rw [proc]
    exact h.number k
  head := head
  tail := tail
  link linked := by
    rw [proc] at linked
    exact h.link linked

theorem update (h : Typed cfg prio s) (nr : (f (s.proc k)).nr = (s.proc k).nr)
    (priority : (f (s.proc k)).priority = (s.proc k).priority)
    (link : ∀ j, (f (s.proc k)).nextready = some j → (prio j).queue = (prio k).queue) :
    Typed cfg prio (s.update k f) where
  roles := h.roles
  priority j := by
    by_cases hj : j = k
    · subst hj
      rw [update_proc_self, priority]
      exact h.priority j
    · rw [update_proc_ne hj]
      exact h.priority j
  number j := by
    by_cases hj : j = k
    · subst hj
      rw [update_proc_self, nr]
      exact h.number j
    · rw [update_proc_ne hj]
      exact h.number j
  head := h.head
  tail := h.tail
  link {i j} linked := by
    by_cases hi : i = k
    · subst hi
      rw [update_proc_self] at linked
      exact link j linked
    · rw [update_proc_ne hi] at linked
      exact h.link linked

theorem setNextready (h : Typed cfg prio s) (link : ∀ j, v = some j → (prio j).queue = (prio k).queue) :
    Typed cfg prio (s.setNextready k v) := h.update rfl rfl link

theorem setHead (h : Typed cfg prio s) (kind : ∀ k, v = some k → (prio k).queue = q) :
    Typed cfg prio (s.setHead q v) := by
  refine h.of_proc rfl (fun {q'} {k} first => ?_) h.tail
  by_cases same : q' = q
  · subst same
    rw [setHead_rdyHead_self] at first
    exact kind k first
  · rw [setHead_rdyHead_ne same] at first
    exact h.head first

theorem setTail (h : Typed cfg prio s) (kind : ∀ k, v = some k → (prio k).queue = q) :
    Typed cfg prio (s.setTail q v) := by
  refine h.of_proc rfl h.head fun {q'} {k} last => ?_
  by_cases same : q' = q
  · subst same
    rw [setTail_rdyTail_self] at last
    exact kind k last
  · rw [setTail_rdyTail_ne same] at last
    exact h.tail last

theorem setTailNextready (h : Typed cfg prio s) (kind : ∀ k, v = some k → (prio k).queue = q) :
    Completes (Typed cfg prio) (s.setTailNextready q v) := by
  unfold Kernel.setTailNextready
  split
  · rename_i last htail
    refine .ok (h.setNextready fun j hj => ?_)
    rw [kind j hj, h.tail htail]
  · exact .error

end Typed

namespace Alike

theorem refl : Alike s s := ⟨rfl, rfl, rfl, rfl, fun _ => .inr rfl⟩

theorem update (h : Alike s t) (hf : (f (t.proc k)).alarm = 0 ∨ (f (t.proc k)).alarm = (t.proc k).alarm) :
    Alike s (t.update k f) := by
  refine ⟨h.billPtr, h.schedTicks, h.prevPtr, h.realtime, fun j => ?_⟩
  by_cases hj : j = k
  · subst hj
    rw [update_proc_self]
    rcases hf with off | same
    · exact .inl off
    · rw [same]
      exact h.alarm j
  · rw [update_proc_ne hj]
    exact h.alarm j

theorem setNextready (h : Alike s t) : Alike s (t.setNextready k v) := h.update (.inr rfl)

theorem setTail (h : Alike s t) : Alike s (t.setTail q v) :=
  ⟨h.billPtr, h.schedTicks, h.prevPtr, h.realtime, h.alarm⟩

theorem setHead (h : Alike s t) : Alike s (t.setHead q v) :=
  ⟨h.billPtr, h.schedTicks, h.prevPtr, h.realtime, h.alarm⟩

end Alike

theorem Watched.alike (h : Watched x s) (same : Alike s t) (tasks : t.rdyHead .taskQ ≠ none)
    (head : ∀ h, x.head = some h → t.rdyHead .userQ = h) : Watched x t where
  tasks := tasks
  billPtr := same.billPtr.trans h.billPtr
  schedTicks := same.schedTicks.trans h.schedTicks
  prevPtr := same.prevPtr.trans h.prevPtr
  realtime := same.realtime.trans h.realtime
  head := head
  notDue b pinned set := by
    rcases same.alarm b with off | kept
    · exact absurd off set
    · rw [kept] at set ⊢
      exact h.notDue b pinned set

/-- `pick_proc` makes the choice, from any state of the running process. While something is watched, a
task is ready and the billed process stays. -/
theorem Typed.pickProc (h : Typed cfg prio s) (watched : ∀ x, w = some x → Watched x s) :
    Consistent cfg prio w (s.pickProc cfg) := by
  unfold Kernel.pickProc
  split
  · rename_i rp task
    refine ⟨⟨h.roles, h.priority, h.number, h.head, h.tail, h.link⟩, ?_, ?_, ?_, ?_⟩
    · exact fun k ready => Option.some.inj (task.symm.trans ready)
    · exact fun none => absurd (task.symm.trans none) (Option.some_ne_none rp)
    · exact fun none => absurd (task.symm.trans none) (Option.some_ne_none rp)
    · exact fun x hx => (watched x hx).alike ⟨rfl, rfl, rfl, rfl, fun _ => .inr rfl⟩ (watched x hx).tasks
        (watched x hx).head
  · rename_i noTask
    have unwatched : w = none := by
      by_contra some
      obtain ⟨x, hx⟩ := Option.ne_none_iff_exists'.1 some
      exact (watched x hx).tasks noTask
    subst unwatched
    split
    · rename_i rp server
      refine ⟨⟨h.roles, h.priority, h.number, h.head, h.tail, h.link⟩, ?_, ?_, ?_, nofun⟩
      · exact fun k ready => absurd (noTask.symm.trans ready) nofun
      · intro _
        rw [show (prio rp).queue = .serverQ from h.head server]
        decide
      · exact fun _ none => absurd (server.symm.trans none) (Option.some_ne_none rp)
    · split
      · rename_i rp user
        refine ⟨⟨h.roles, h.priority, h.number, h.head, h.tail, h.link⟩, ?_, ?_, ?_, nofun⟩
        · exact fun k ready => absurd (noTask.symm.trans ready) nofun
        · intro _
          rw [show (prio rp).queue = .userQ from h.head user]
          decide
        · intro _ _
          simp [choice, user]
      · rename_i idle
        refine ⟨⟨h.roles, h.priority, h.number, h.head, h.tail, h.link⟩, ?_, ?_, ?_, nofun⟩
        · exact fun k ready => absurd (noTask.symm.trans ready) nofun
        · intro _
          rw [show prio (cfg.procAddr IDLE) = .idle from h.roles.idle]
          decide
        · intro _ _
          simp [choice, idle]

namespace Consistent

theorem unwatch (h : Consistent cfg prio w s) : Consistent cfg prio none s :=
  ⟨h.typed, h.running, h.resting, h.settled, nofun⟩

/-- While nothing is watched, the alarms, the time and the numbers of the quantum do not matter. -/
theorem renumber (h : Consistent cfg prio none s) (typed : Typed cfg prio t) (head : t.rdyHead = s.rdyHead)
    (procPtr : t.procPtr = s.procPtr) (billPtr : t.billPtr = s.billPtr) : Consistent cfg prio none t where
  typed := typed
  running := by
    rw [head, procPtr]
    exact h.running
  resting := by
    rw [head, procPtr]
    exact h.resting
  settled := by
    unfold choice
    rw [head, procPtr, billPtr]
    exact h.settled
  watched := nofun

/-- A change that leaves the heads of the queues, and of the rest only links and tails are changed. -/
theorem relink (h : Consistent cfg prio w s) (typed : Typed cfg prio t) (head : t.rdyHead = s.rdyHead)
    (procPtr : t.procPtr = s.procPtr) (same : Alike s t) : Consistent cfg prio w t := by
  have plain := h.unwatch.renumber typed head procPtr same.billPtr
  refine ⟨typed, plain.running, plain.resting, plain.settled, fun x hx => ?_⟩
  · have watched := h.watched x hx
    refine watched.alike same ?_ ?_
    · rw [head]
      exact watched.tasks
    · rw [head]
      exact watched.head

/-- Nothing that is read has changed. -/
theorem of_eq (h : Consistent cfg prio w s) (proc : t.proc = s.proc) (rdyHead : t.rdyHead = s.rdyHead)
    (rdyTail : t.rdyTail = s.rdyTail) (procPtr : t.procPtr = s.procPtr) (billPtr : t.billPtr = s.billPtr)
    (schedTicks : t.schedTicks = s.schedTicks) (prevPtr : t.prevPtr = s.prevPtr)
    (realtime : t.realtime = s.realtime) : Consistent cfg prio w t := by
  refine h.relink (h.typed.of_proc proc ?_ ?_) rdyHead procPtr ⟨billPtr, schedTicks, prevPtr, realtime, fun k => ?_⟩
  · rw [rdyHead]
    exact h.typed.head
  · rw [rdyTail]
    exact h.typed.tail
  · rw [proc]
    exact .inr rfl

theorem update (h : Consistent cfg prio w s) (hf : SameStanding (s.proc k) (f (s.proc k))) :
    Consistent cfg prio w (s.update k f) := by
  refine h.relink (h.typed.update hf.nr hf.priority fun j hj => ?_) rfl rfl (Alike.refl.update hf.alarm)
  rw [hf.nextready] at hj
  exact h.typed.link hj

theorem setSwitching (h : Consistent cfg prio w s) (b : Bool) : Consistent cfg prio w { s with switching := b } :=
  h.of_eq rfl rfl rfl rfl rfl rfl rfl rfl

/-- When neither a task nor a server is ready, a process of another kind runs. -/
theorem busy (h : Consistent cfg prio w s) (kind : (prio s.procPtr).queue ≠ .userQ) : s.Busy := by
  by_contra idle
  obtain ⟨noTask, noServer⟩ := not_or.1 idle
  obtain ⟨chosen, -⟩ := h.settled (not_not.1 noTask) (not_not.1 noServer)
  apply kind
  rw [chosen]
  unfold choice
  cases user : s.rdyHead .userQ with
  | none =>
    rw [Option.getD_none, h.typed.roles.idle]
    rfl
  | some rp => exact h.typed.head user

/-- A process may be made ready: a user process only by another one, and not while something is watched. -/
def MayReady (prio : Nat → Ppri) (w : Option Watch) (s : Kernel) (rp : Nat) : Prop :=
  (prio rp).queue ≠ .userQ ∨ w = none ∧ s.Busy

/-- A process may be blocked: while something is watched, no task and not the head that is to stay. -/
def MayBlock (prio : Nat → Ppri) (w : Option Watch) (rp : Nat) : Prop :=
  ∀ x, w = some x → (prio rp).queue ≠ .taskQ ∧ x.head ≠ some (some rp)

/-- The first process of an empty task or server queue. -/
theorem first (h : Consistent cfg prio w s) (kind : (prio rp).queue = q) (system : q ≠ .userQ) :
    Consistent cfg prio w { s.setHead q (some rp) with procPtr := if q = .taskQ then rp else s.procPtr } := by
  have typed : Typed cfg prio (s.setHead q (some rp)) := by
    refine h.typed.setHead fun k hk => ?_
    obtain rfl := Option.some.inj hk
    exact kind
  have nonempty : (s.setHead q (some rp)).rdyHead q ≠ none := by
    rw [setHead_rdyHead_self]
    exact Option.some_ne_none rp
  refine ⟨⟨typed.roles, typed.priority, typed.number, typed.head, typed.tail, typed.link⟩, fun k ready => ?_,
    fun noTask => ?_, fun noTask noServer => ?_, fun x hx => ?_⟩
  · have ready : (s.setHead q (some rp)).rdyHead .taskQ = some k := ready
    show (if q = .taskQ then rp else s.procPtr) = k
    by_cases task : q = .taskQ
    · subst task
      rw [setHead_rdyHead_self] at ready
      rw [if_pos rfl]
      exact Option.some.inj ready
    · rw [setHead_rdyHead_ne (Ne.symm task)] at ready
      rw [if_neg task]
      exact h.running k ready
  · have noTask : (s.setHead q (some rp)).rdyHead .taskQ = none := noTask
    have server : q ≠ .taskQ := by
      rintro rfl
      exact nonempty noTask
    rw [setHead_rdyHead_ne server.symm] at noTask
    show (prio (if q = .taskQ then rp else s.procPtr)).queue ≠ .taskQ
    rw [if_neg server]
    exact h.resting noTask
  · cases q with
    | taskQ => exact absurd noTask nonempty
    | serverQ => exact absurd noServer nonempty
    | userQ => exact absurd rfl system
  · have watched := h.watched x hx
    refine watched.alike ⟨rfl, rfl, rfl, rfl, fun _ => .inr rfl⟩ ?_ fun first hfirst => ?_
    · by_cases task : q = .taskQ
      · subst task
        exact nonempty
      · show (s.setHead q (some rp)).rdyHead .taskQ ≠ none
        rw [setHead_rdyHead_ne (Ne.symm task)]
        exact watched.tasks
    · exact (setHead_rdyHead_ne system.symm).trans (watched.head first hfirst)

theorem append (h : Consistent cfg prio w s) (kind : (prio rp).queue = q) (system : q ≠ .userQ) :
    Completes (Consistent cfg prio w) (s.append q rp) := by
  have self : ∀ k, some rp = some k → (prio k).queue = q := by
    intro k hk
    obtain rfl := Option.some.inj hk
    exact kind
  refine Completes.bind (Q := Consistent cfg prio w) ?_ fun t h => .pure ?_
  · unfold linkLast
    split
    · intro t done
      have typed := h.typed.setTailNextready self t done
      unfold Kernel.setTailNextready at done
      split at done
      · obtain rfl := Except.ok.inj done
        exact h.relink typed rfl rfl Alike.refl.setNextready
      · cases done
    · exact .ok (h.first kind system)
  · exact h.relink ((h.typed.setTail self).setNextready nofun) rfl rfl Alike.refl.setTail.setNextready

theorem ready (h : Consistent cfg prio w s) (may : MayReady prio w s rp) :
    Completes (Consistent cfg prio w) (s.ready rp) := by
  unfold Kernel.ready
  split
  · rename_i task
    exact h.append ((isTaskp_iff h.typed).1 task) (by decide)
  · rename_i notTask
    split
    · rename_i server
      exact h.append ((isServp_iff h.typed).1 server) (by decide)
    · rename_i notServer
      have user : (prio rp).queue = .userQ := queue_user h.typed notTask notServer
      obtain ⟨rfl, busy⟩ : w = none ∧ s.Busy := may.resolve_left (not_not.2 user)
      have self : ∀ k, some rp = some k → (prio k).queue = .userQ := by
        intro k hk
        obtain rfl := Option.some.inj hk
        exact user
      -- the new head of the user queue makes no difference before the next choice
      have front {s : Kernel} (h : Consistent cfg prio none s) (busy : s.Busy) :
          Consistent cfg prio none ((s.setNextready rp (s.rdyHead .userQ)).setHead .userQ (some rp)) := by
        have typed : Typed cfg prio (s.setNextready rp (s.rdyHead .userQ)) :=
          h.typed.setNextready fun j hj => (h.typed.head hj).trans user.symm
        refine ⟨typed.setHead self, fun k => ?_, ?_, fun noTask noServer => ?_, nofun⟩
        · rw [setHead_rdyHead_ne (by decide)]
          exact h.running k
        · rw [setHead_rdyHead_ne (by decide)]
          exact h.resting
        · rw [setHead_rdyHead_ne (by decide)] at noTask noServer
          exact absurd busy (not_or.2 ⟨not_not.2 noTask, not_not.2 noServer⟩)
      refine .ok ?_
      split
      · exact front (h.relink (h.typed.setTail self) rfl rfl Alike.refl.setTail) busy
      · exact front h busy

theorem findPrev_spec {fuel xp j : Nat} (found : s.findPrev rp fuel xp = .ok (some j)) :
    (s.proc j).nextready = some rp := by
  induction fuel generalizing xp with
  | zero => cases found
  | succ fuel ih =>
    unfold findPrev at found
    split at found
    · rename_i hit
      cases found
      exact hit
    · split at found
      · cases found
      · exact ih found

/-- Removing a process from its queue, with a new choice when it was the head. -/
theorem unlink (h : Consistent cfg prio w s) (kind : (prio rp).queue = q) (may : MayBlock prio w rp) {pick : Bool}
    (picks : s.rdyHead q = some rp → pick = true) : Completes (Consistent cfg prio w) (s.unlink cfg q pick rp) := by
  unfold Kernel.unlink
  split
  · exact .ok h
  · rename_i xp head
    split
    · rename_i same
      subst same
      apply Completes.ok
      rw [if_pos (picks head)]
      refine (h.typed.setHead fun j hj => (h.typed.link hj).trans kind).pickProc fun x hx => ?_
      have watched := h.watched x hx
      obtain ⟨notTask, notHead⟩ := may x hx
      rw [kind] at notTask
      refine watched.alike Alike.refl.setHead ?_ fun first hfirst => ?_
      · rw [setHead_rdyHead_ne (Ne.symm notTask)]
        exact watched.tasks
      · have pinned := watched.head first hfirst
        have other : Queue.userQ ≠ q := by
          rintro rfl
          rw [← pinned, head] at hfirst
          exact notHead hfirst
        rw [setHead_rdyHead_ne other]
        exact pinned
    · intro t done
      obtain ⟨found, hfound, rest⟩ := bind_eq_ok.1 done
      obtain rfl := pure_eq_ok.1 rest
      cases found with
      | none => exact h
      | some xp =>
        have linked := findPrev_spec hfound
        have typed : Typed cfg prio (s.setNextready xp (s.proc rp).nextready) :=
          h.typed.setNextready fun j hj => (h.typed.link hj).trans (h.typed.link linked)
        show Consistent cfg prio w (if _ then _ else _)
        split
        · refine h.relink (typed.setTail fun j hj => ?_) rfl rfl Alike.refl.setNextready.setTail
          obtain rfl := Option.some.inj hj
          exact (h.typed.link linked).symm.trans kind
        · exact h.relink typed rfl rfl Alike.refl.setNextready

theorem unready (h : Consistent cfg prio w s) (may : MayBlock prio w rp) :
    Completes (Consistent cfg prio w) (s.unready cfg rp) := by
  unfold Kernel.unready
  split
  · rename_i task
    refine .ite (h.unlink ((isTaskp_iff h.typed).1 task) may fun head => ?_) .error
    exact decide_eq_true (h.running rp head).symm
  · rename_i notTask
    split
    · rename_i server
      exact h.unlink ((isServp_iff h.typed).1 server) may fun _ => rfl
    · rename_i notServer
      exact h.unlink (queue_user h.typed notTask notServer) may fun _ => rfl

theorem lockUnready (h : Consistent cfg prio w s) (may : MayBlock prio w rp) :
    Completes (Consistent cfg prio w) (s.lockUnready cfg rp) :=
  .bind ((h.setSwitching true).unready may) fun _ h => .pure (h.setSwitching false)

theorem sched (h : Consistent cfg prio none s) : Completes (Consistent cfg prio none) (s.sched cfg) := by
  unfold Kernel.sched
  split
  · exact .ok h
  · rename_i head hhead
    have user : (prio head).queue = .userQ := h.typed.head hhead
    have self : ∀ k, some head = some k → (prio k).queue = .userQ := by
      intro k hk
      obtain rfl := Option.some.inj hk
      exact user
    have counted (v : Int) : Consistent cfg prio none (s.update head fun p => { p with timeCounter := v }) :=
      h.update ⟨rfl, rfl, rfl, .inr rfl⟩
    refine .ite (.ok (counted _)) ?_
    refine .bind (Q := Typed cfg prio) ((counted 0).typed.setTailNextready self) fun s₁ h₁ => ?_
    have typed : Typed cfg prio ((s₁.setTail .userQ (some head)).setHead .userQ (s₁.proc head).nextready) :=
      (h₁.setTail self).setHead fun j hj => (h₁.link hj).trans user
    exact .bind (typed.setTailNextready nofun) fun s₂ h₂ => .pure (h₂.pickProc nofun)

theorem hold (h : Consistent cfg prio w s) : Completes (Consistent cfg prio w) (s.hold rp) := by
  unfold Kernel.hold
  refine .ite (.ok h) ?_
  have held : Consistent cfg prio w (s.update rp fun p => { p with intHeld := true }) :=
    h.update ⟨rfl, rfl, rfl, .inr rfl⟩
  have last {s₁ : Kernel} (h₁ : Consistent cfg prio w s₁) :
      Consistent cfg prio w ({ s₁ with heldTail := some rp }.update rp fun p => { p with nextheld := none }) := by
    have tail : Consistent cfg prio w { s₁ with heldTail := some rp } := h₁.of_eq rfl rfl rfl rfl rfl rfl rfl rfl
    exact tail.update ⟨rfl, rfl, rfl, .inr rfl⟩
  dsimp only
  split
  · split
    · exact .bind (.ok (held.update ⟨rfl, rfl, rfl, .inr rfl⟩)) fun _ h₁ => .pure (last h₁)
    · exact .bind .error fun _ h₁ => .pure (last h₁)
  · exact .bind (.ok (held.of_eq rfl rfl rfl rfl rfl rfl rfl rfl)) fun _ h₁ => .pure (last h₁)

theorem interrupt {task : Int} (h : Consistent cfg prio w s) (kind : (prio (cfg.procAddr task)).queue = .taskQ) :
    Completes (Consistent cfg prio w) (s.interrupt cfg task) := by
  unfold Kernel.interrupt
  refine .ite h.hold (.ite (.ok (h.update ⟨rfl, rfl, rfl, .inr rfl⟩)) ?_)
  have woken : Consistent cfg prio w (s.update (cfg.procAddr task) fun p => { p with
      messbuf := ⟨HARDWARE, HARD_INT⟩
      flags := p.flags.erase .receiving
      intBlocked := false }) := h.update ⟨rfl, rfl, rfl, .inr rfl⟩
  exact woken.append kind (by decide)

end Consistent

end Kernel

end SoiExercises.Sched
