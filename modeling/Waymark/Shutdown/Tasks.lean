import Waymark.Shutdown
/-!
# Tasks around a shutdown

Tasks that wait for the shutdown and tasks that trigger it, one step of one task at
a time.

To wait is to subscribe, to look at the flag, and to listen if it is not raised.
Subscribing comes first: a signal sent between the look and the listening is then
not lost.  To trigger is to raise the flag and then to send, in this order: who
subscribes too late for the signal finds the flag raised.

## Main results

* `Waiter.poll_triggered` — who starts to wait once the flag is raised does not wait.
* `Tasks.waiting_startWaiting` — nor does it count as waiting.
-/

namespace Waymark.Shutdown

/-! ## Waiting -/

/-- How far a task is that waits. -/
inductive Waiter where
  | start
  /-- It has subscribed and not looked at the flag yet. -/
  | subscribed (listener : Listener)
  /-- It found the flag not raised, and listens. -/
  | listening (listener : Listener)
  | finished
  deriving DecidableEq, Repr

namespace Waiter

/-- The listener a waiting task holds. -/
def listener? : Waiter → Option Listener
  | .subscribed l => some l
  | .listening l => some l
  | _ => none

/-- Whether a task listens and has nothing to hear: it is stuck until a signal is sent. -/
def IsBlocked (s : Shutdown) (w : Waiter) : Prop :=
  ∃ l, w = .listening l ∧ (s.receive l).1 = .nothing

/-- A task ends its waiting: its listener and its handle go. -/
def leave (s : Shutdown) : Waiter × Shutdown := (.finished, s.unsubscribe.release)

/-- The next step of a waiting task.  Whatever it hears ends its waiting. -/
def step (s : Shutdown) : Waiter → Waiter × Shutdown
  | .start => (.subscribed s.subscribe.1, s.subscribe.2)
  | .subscribed l => if s.isTriggered then leave s else (.listening l, s)
  | .listening l =>
    match (s.receive l).1 with
    | .nothing => (.listening l, s)
    | _ => leave s
  | .finished => (.finished, s)

/-- Lets a task run as far as it can: it has at most three steps to make. -/
def poll (s : Shutdown) (w : Waiter) : Waiter × Shutdown :=
  let (w, s) := w.step s
  let (w, s) := w.step s
  w.step s

@[simp] theorem step_finished (s : Shutdown) : step s .finished = (.finished, s) := rfl

/-- A task that begins to wait after the trigger does not wait at all. -/
theorem poll_triggered {s : Shutdown} (h : s.isTriggered = true) :
    poll s.clone .start = (.finished, s) := by
  obtain ⟨_, _, _, _⟩ := s
  subst h
  simp [poll, step, leave, clone, subscribe, unsubscribe, release]

/-- Whether waiting would end at once. -/
def endsAtOnce (s : Shutdown) : Bool := (poll s.clone .start).1 = .finished

end Waiter

/-! ## Triggering -/

/-- How far a task is that triggers the shutdown. -/
inductive Trigger where
  | start
  /-- It has raised the flag and not sent yet. -/
  | raised
  | finished
  deriving DecidableEq, Repr

/-- The next step of a task that triggers the shutdown. -/
def Trigger.step (s : Shutdown) : Trigger → Trigger × Shutdown
  | .start => (.raised, s.raise)
  | .raised => (.finished, s.send.release)
  | .finished => (.finished, s)

/-! ## All tasks together -/

/-- A shutdown and the tasks around it. -/
structure Tasks where
  shutdown : Shutdown
  waiters : List Waiter
  triggers : List Trigger
  deriving DecidableEq, Repr

namespace Tasks

/-- A new shutdown, before the first step of so many tasks.  Each holds a handle of its own. -/
def initial (waiters triggers : Nat) : Tasks :=
  ⟨{ new with handles := 1 + waiters + triggers }, List.replicate waiters .start,
    List.replicate triggers .start⟩

/-- One step of one task. -/
inductive Step : Tasks → Tasks → Prop where
  | waiter (t : Tasks) (i : Nat) (w : Waiter) (h : t.waiters[i]? = some w) :
    Step t { t with
      shutdown := (w.step t.shutdown).2, waiters := t.waiters.set i (w.step t.shutdown).1 }
  | trigger (t : Tasks) (i : Nat) (g : Trigger) (h : t.triggers[i]? = some g) :
    Step t { t with
      shutdown := (g.step t.shutdown).2, triggers := t.triggers.set i (g.step t.shutdown).1 }

/-- What the tasks can come to, in any order of their steps. -/
inductive Reachable (waiters triggers : Nat) : Tasks → Prop where
  | initial : Reachable waiters triggers (.initial waiters triggers)
  | step {t u : Tasks} (before : Reachable waiters triggers t) (next : Step t u) :
    Reachable waiters triggers u

/-- Lets every waiting task run as far as it can. -/
def settle (t : Tasks) : Tasks :=
  let run := t.waiters.foldl (fun (done : List Waiter × Shutdown) w =>
    let (w, s) := w.poll done.2
    (w :: done.1, s)) ([], t.shutdown)
  { t with shutdown := run.2, waiters := run.1.reverse }

/-- No tasks yet, around a new shutdown. -/
def alone : Tasks := ⟨new, [], []⟩

/-- Starts a task that waits, with a handle of its own. -/
def startWaiting (t : Tasks) : Tasks :=
  let (w, s) := Waiter.poll t.shutdown.clone .start
  { t with shutdown := s, waiters := t.waiters ++ [w] }

/-- How many tasks still wait. -/
def waiting (t : Tasks) : Nat := (t.waiters.filter (· ≠ .finished)).length

/-- After the trigger no task joins those that wait. -/
theorem waiting_startWaiting {t : Tasks} (h : t.shutdown.isTriggered = true) :
    t.startWaiting.waiting = t.waiting := by
  simp [startWaiting, waiting, Waiter.poll_triggered h]

end Tasks
end Waymark.Shutdown
