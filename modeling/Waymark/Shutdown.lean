/-!
# Shutdown

The signal that ends long-running tasks: a flag that is raised once and a channel
that keeps the last signal sent.

A listener is told of the signals sent after it subscribed.  One that is slow finds
the older signals gone: it is told first how many it missed, and then hears the
last one.  Signals that nobody listens for are not kept, which is why the flag is
needed: who comes late finds it raised.

Triggering and waiting are made of single steps, so that what tasks do at the same
time is some order of these steps.

## Main results

* `receive_of_lt` — a listener with something to hear is never told to wait.
* `receive_behind` — after being told what it missed, a listener hears the last signal.
* `send_silent` — a signal nobody listens for leaves no trace.
* `trigger_isTriggered`, `next_le_trigger` — after triggering the flag is raised, and every listener
  has something to hear.
-/

namespace Waymark

/-- A flag and a channel that keeps one signal. -/
structure Shutdown where
  isTriggered : Bool
  /-- How many signals were sent so far. -/
  sent : Nat
  /-- How many listeners there are. -/
  listeners : Nat
  /-- How many handles can still send. -/
  handles : Nat
  deriving DecidableEq, Repr

namespace Shutdown

/-- Nothing has happened yet, and there is one handle. -/
def new : Shutdown := ⟨false, 0, 0, 1⟩

/-! ## Listeners -/

/-- A listener, by the number of the signal it hears next. -/
structure Listener where
  next : Nat
  deriving DecidableEq, Repr

/-- What a listener hears. -/
inductive Heard where
  | signal
  /-- Nothing yet. -/
  | nothing
  /-- Nothing, and nobody is left to send anything. -/
  | closed
  /-- So many signals were missed. -/
  | missed (count : Nat)
  deriving DecidableEq, Repr

/-- A new listener: it hears what is sent from now on. -/
def subscribe (s : Shutdown) : Listener × Shutdown :=
  (⟨s.sent⟩, { s with listeners := s.listeners + 1 })

/-- A listener goes. -/
def unsubscribe (s : Shutdown) : Shutdown := { s with listeners := s.listeners - 1 }

/-- What a listener hears now, without waiting. -/
def receive (s : Shutdown) (l : Listener) : Heard × Listener :=
  if s.sent ≤ l.next then (if s.handles = 0 then .closed else .nothing, l)
  else if s.sent = l.next + 1 then (.signal, ⟨s.sent⟩)
  else (.missed (s.sent - 1 - l.next), ⟨s.sent - 1⟩)

/-- A listener that has not heard everything hears something. -/
theorem receive_of_lt {s : Shutdown} {l : Listener} (h : l.next < s.sent) :
    (s.receive l).1 ≠ .nothing ∧ (s.receive l).1 ≠ .closed := by
  unfold receive
  rw [if_neg (Nat.not_le.mpr h)]
  split <;> simp

theorem receive_of_le {s : Shutdown} {l : Listener} (h : s.sent ≤ l.next) :
    (s.receive l).2 = l := by
  simp [receive, h]

/-- One that has missed signals is told how many, and then hears the last one. -/
theorem receive_behind {s : Shutdown} {l : Listener} (h : l.next + 1 < s.sent) :
    (s.receive l).1 = .missed (s.sent - 1 - l.next) ∧
      (s.receive (s.receive l).2).1 = .signal := by
  have h1 : s.receive l = (.missed (s.sent - 1 - l.next), ⟨s.sent - 1⟩) := by
    unfold receive
    rw [if_neg (by omega), if_neg (by omega)]
  rw [h1]
  refine ⟨rfl, ?_⟩
  unfold receive
  rw [if_neg (by simp only; omega), if_pos (by simp only; omega)]

/-! ## Handles -/

/-- One more handle. -/
def clone (s : Shutdown) : Shutdown := { s with handles := s.handles + 1 }

/-- A handle goes. -/
def release (s : Shutdown) : Shutdown := { s with handles := s.handles - 1 }

/-! ## Triggering -/

/-- Raises the flag: the first step of triggering. -/
def raise (s : Shutdown) : Shutdown := { s with isTriggered := true }

/-- Sends a signal to those who listen: the second step of triggering. -/
def send (s : Shutdown) : Shutdown :=
  if s.listeners = 0 then s else { s with sent := s.sent + 1 }

/-- Triggers the shutdown. -/
def trigger (s : Shutdown) : Shutdown := s.raise.send

theorem send_silent {s : Shutdown} (h : s.listeners = 0) : s.send = s := by
  simp [send, h]

theorem send_heard {s : Shutdown} (h : 0 < s.listeners) : s.send.sent = s.sent + 1 := by
  simp [send, Nat.pos_iff_ne_zero.mp h]

@[simp] theorem send_isTriggered (s : Shutdown) : s.send.isTriggered = s.isTriggered := by
  unfold send; split <;> rfl

@[simp] theorem send_listeners (s : Shutdown) : s.send.listeners = s.listeners := by
  unfold send; split <;> rfl

@[simp] theorem send_handles (s : Shutdown) : s.send.handles = s.handles := by
  unfold send; split <;> rfl

theorem sent_le_send (s : Shutdown) : s.sent ≤ s.send.sent := by
  unfold send; split <;> simp

@[simp] theorem trigger_isTriggered (s : Shutdown) : s.trigger.isTriggered = true := by
  simp [trigger, raise]

/-- A listener that had heard everything has something to hear once the shutdown is triggered. -/
theorem next_le_trigger {s : Shutdown} {l : Listener} (h : 0 < s.listeners)
    (hl : l.next ≤ s.sent) : l.next < s.trigger.sent := by
  have : s.trigger.sent = s.sent + 1 := send_heard (s := s.raise) h
  omega

end Shutdown
end Waymark
