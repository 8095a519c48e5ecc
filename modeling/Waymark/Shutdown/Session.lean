import Waymark.Shutdown.Tasks
/-!
# Shutdowns one after another

A session uses one shutdown at a time and may take a new one at any time.  Listeners
and waiting tasks stay with the shutdown they began with.

## Main results

* `hear_dropped` — a listener that is gone hears nothing.
* `isTriggered_renew` — a new shutdown is not triggered.
-/

namespace Waymark.Shutdown

/-- The shutdowns of a session, the one in use last, and its listeners with the number of the
shutdown each belongs to. -/
structure Session where
  all : List Tasks
  listeners : List (Option (Nat × Listener))
  deriving Repr

namespace Session

/-- A session with its first shutdown. -/
def start : Session := ⟨[.alone], []⟩

/-- The shutdown in use and the tasks around it. -/
def tasks (s : Session) : Tasks := s.all.getLastD .alone

/-- The shutdown in use. -/
def shutdown (s : Session) : Shutdown := s.tasks.shutdown

/-- Changes the shutdown of a number. -/
def onShutdown (s : Session) (number : Nat) (f : Shutdown → Shutdown) : Session :=
  { s with all := s.all.modify number fun t => { t with shutdown := f t.shutdown } }

/-- The number of the shutdown in use. -/
def current (s : Session) : Nat := s.all.length - 1

/-- Gives the handle up and takes a new shutdown. -/
def renew (s : Session) : Session :=
  { s with all := (s.onShutdown s.current release).all ++ [.alone] }

theorem isTriggered_renew (s : Session) : s.renew.shutdown.isTriggered = false := by
  simp [renew, shutdown, tasks, Tasks.alone, new]

/-- Takes another handle in the place of the one there is. -/
def exchange (s : Session) : Session := s.onShutdown s.current fun x => x.clone.release

/-- A new listener, and its number. -/
def subscribe (s : Session) : Nat × Session :=
  (s.listeners.length,
    { s.onShutdown s.current fun x => x.subscribe.2 with
      listeners := s.listeners ++ [some (s.current, s.shutdown.subscribe.1)] })

/-- The listener of a number, with the number of its shutdown. -/
def listener? (s : Session) (i : Nat) : Option (Nat × Listener) := (s.listeners[i]?).join

/-- A listener goes. -/
def drop (s : Session) (i : Nat) : Session :=
  match s.listener? i with
  | some (owner, _) =>
    { s.onShutdown owner unsubscribe with listeners := s.listeners.set i none }
  | none => s

/-- What a listener hears now. -/
def hear (s : Session) (i : Nat) : Option Heard × Session :=
  match s.listener? i with
  | some (owner, l) =>
    let (heard, l) := ((s.all[owner]?).getD .alone).shutdown.receive l
    (some heard, { s with listeners := s.listeners.set i (some (owner, l)) })
  | none => (none, s)

theorem hear_dropped {s : Session} {i : Nat} (h : s.listener? i = none) : s.hear i = (none, s) := by
  simp [hear, h]

/-- Changes the tasks around the shutdown in use. -/
def onTasks (s : Session) (f : Tasks → Tasks) : Session :=
  { s with all := s.all.modify s.current f }

/-- Triggers the shutdown in use; who waits for it then runs on. -/
def trigger (s : Session) : Session :=
  (s.onShutdown s.current Shutdown.trigger).onTasks Tasks.settle

/-- Starts a task that waits for the shutdown in use. -/
def startWaiting (s : Session) : Session := s.onTasks Tasks.startWaiting

/-- How many tasks still wait, for whichever shutdown. -/
def waiting (s : Session) : Nat := s.all.foldl (fun n t => n + t.waiting) 0

end Session
end Waymark.Shutdown
