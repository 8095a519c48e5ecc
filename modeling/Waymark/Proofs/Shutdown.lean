import Waymark.Shutdown.Tasks
/-!
# No signal is lost

Tasks wait for a shutdown and tasks trigger it, in any number and with their steps mixed in any
order; a task that does so again and again counts as several.  A task could wait for ever in two
ways: it finds the flag not raised although the signal is already sent, or the signal is sent
when the channel does not count its listener.

Neither happens.  The flag is raised before any signal is sent, so who finds it not raised has
subscribed before all of them; and the listeners counted are those of the tasks that have
subscribed and not left, so a signal that some task waits for is kept.  What the channel keeps
is one signal, and that is enough: a listener that missed some is told so, and ends its waiting
as well.

## Main results

* `Waiter.step_cases` — all a step of a waiting task can be.
* `Tasks.IsSound.waiter_step`, `Tasks.IsSound.trigger_step` — what each step keeps.
* `Tasks.isSound_of_reachable` — what therefore holds at any time.
* `Tasks.completed_leaves_nobody_blocked` — no task is stuck once a trigger has completed.
* `Tasks.waiting_settle_of_completed` — and nobody waits any more when all tasks are let run.
-/

namespace Waymark.Shutdown

/-! ## A waiting task -/

namespace Waiter

/-- Whether a task has a listener. -/
def isSubscribed (w : Waiter) : Bool := w.listener?.isSome

@[simp] theorem isSubscribed_start : isSubscribed .start = false := rfl

@[simp] theorem isSubscribed_subscribed (l : Listener) : isSubscribed (.subscribed l) = true := rfl

@[simp] theorem isSubscribed_listening (l : Listener) : isSubscribed (.listening l) = true := rfl

@[simp] theorem isSubscribed_finished : isSubscribed .finished = false := rfl

theorem step_of_heard {s : Shutdown} {l : Listener} (h : (s.receive l).1 ≠ .nothing) :
    step s (.listening l) = leave s := by
  rw [step]
  split
  · exact absurd ‹_› h
  · rfl

/-- A step of a waiting task is one of four things: it subscribes; it finds the flag not raised and
begins to listen; it leaves; or nothing happens. -/
theorem step_cases (s : Shutdown) (w : Waiter) :
    (w = .start ∧ w.step s = (.subscribed ⟨s.sent⟩, { s with listeners := s.listeners + 1 })) ∨
      (∃ l, w = .subscribed l ∧ s.isTriggered = false ∧ w.step s = (.listening l, s)) ∨
      (w.isSubscribed = true ∧ w.step s = leave s) ∨
      w.step s = (w, s) := by
  cases w with
  | start => exact .inl ⟨rfl, rfl⟩
  | subscribed l =>
    cases hflag : s.isTriggered with
    | false => exact .inr (.inl ⟨l, rfl, rfl, by simp [step, hflag]⟩)
    | true => exact .inr (.inr (.inl ⟨rfl, by simp [step, hflag]⟩))
  | listening l =>
    by_cases hheard : (s.receive l).1 = .nothing
    · exact .inr (.inr (.inr (by simp [step, hheard])))
    · exact .inr (.inr (.inl ⟨rfl, step_of_heard hheard⟩))
  | finished => exact .inr (.inr (.inr rfl))

theorem step_sent (s : Shutdown) (w : Waiter) : (w.step s).2.sent = s.sent := by
  obtain ⟨-, h⟩ | ⟨l, -, -, h⟩ | ⟨-, h⟩ | h := step_cases s w <;>
    simp [h, leave, unsubscribe, release]

theorem step_isTriggered (s : Shutdown) (w : Waiter) :
    (w.step s).2.isTriggered = s.isTriggered := by
  obtain ⟨-, h⟩ | ⟨l, -, -, h⟩ | ⟨-, h⟩ | h := step_cases s w <;>
    simp [h, leave, unsubscribe, release]

/-- A step counts the listener of its task, as long as it was counted before. -/
theorem step_listeners {s : Shutdown} {w : Waiter} (h : w.isSubscribed = true → 0 < s.listeners) :
    (w.step s).2.listeners =
      s.listeners - (if w.isSubscribed then 1 else 0) +
        if (w.step s).1.isSubscribed then 1 else 0 := by
  obtain ⟨rfl, hstep⟩ | ⟨l, rfl, -, hstep⟩ | ⟨hw, hstep⟩ | hstep := step_cases s w <;> rw [hstep]
  · rfl
  · have := h rfl
    simp only [isSubscribed_subscribed, isSubscribed_listening, if_true]
    omega
  · simp [hw, leave, unsubscribe, release]
  · cases hw : w.isSubscribed with
    | false => rfl
    | true =>
      have := h hw
      simp only [if_true]
      omega

/-- No listener is ahead of what was sent; and a task that listens though a trigger has completed
has something to hear. -/
structure IsTold (s : Shutdown) (completed : Prop) (w : Waiter) : Prop where
  next_le : ∀ l, w.listener? = some l → l.next ≤ s.sent
  next_lt : completed → ∀ l, w = .listening l → l.next < s.sent

section
variable {s s' : Shutdown} {completed completed' : Prop} {w : Waiter}

theorem isTold_of_listener? (h : w.listener? = none) : IsTold s completed w := by
  refine ⟨fun l hl => ?_, fun _ l hw => ?_⟩
  · rw [h] at hl
    cases hl
  · rw [hw] at h
    cases h

theorem IsTold.mono (h : IsTold s completed w) (hsent : s.sent ≤ s'.sent)
    (hcompleted : completed' → completed) : IsTold s' completed' w :=
  ⟨fun l hl => Nat.le_trans (h.next_le l hl) hsent,
    fun hc l hw => Nat.lt_of_lt_of_le (h.next_lt (hcompleted hc) l hw) hsent⟩

/-- Who begins to listen has found the flag not raised, so no trigger has completed. -/
theorem IsTold.step (h : IsTold s completed w) (hflag : completed → s.isTriggered = true) :
    IsTold (w.step s).2 completed (w.step s).1 := by
  obtain ⟨rfl, hstep⟩ | ⟨l, rfl, hraised, hstep⟩ | ⟨-, hstep⟩ | hstep := step_cases s w <;>
    rw [hstep]
  · refine ⟨?_, fun _ l hw => by cases hw⟩
    rintro l ⟨rfl⟩
    exact Nat.le_refl _
  · refine ⟨h.next_le, fun hc => ?_⟩
    rw [hflag hc] at hraised
    cases hraised
  · exact isTold_of_listener? rfl
  · exact h

/-- Who has something to hear, or finds the flag raised, ends its waiting when it is let run. -/
theorem IsTold.poll (h : IsTold s True w) (hflag : s.isTriggered = true) :
    (w.poll s).1 = .finished := by
  cases w with
  | start => simp [Waiter.poll, Waiter.step, subscribe, hflag, leave]
  | subscribed l => simp [Waiter.poll, Waiter.step, hflag, leave]
  | listening l =>
    have hheard := (receive_of_lt (h.next_lt trivial l rfl)).1
    simp [Waiter.poll, step_of_heard hheard, leave]
  | finished => rfl

end

theorem poll_sent (s : Shutdown) (w : Waiter) : (w.poll s).2.sent = s.sent :=
  (step_sent ..).trans ((step_sent ..).trans (step_sent ..))

theorem poll_isTriggered (s : Shutdown) (w : Waiter) :
    (w.poll s).2.isTriggered = s.isTriggered :=
  (step_isTriggered ..).trans ((step_isTriggered ..).trans (step_isTriggered ..))

end Waiter

/-! ## All tasks together -/

namespace Tasks

open Waiter

/-- What holds of the tasks around a shutdown at any time. -/
structure IsSound (t : Tasks) : Prop where
  /-- The listeners are those of the tasks that wait. -/
  listeners_eq : t.shutdown.listeners = t.waiters.countP isSubscribed
  /-- Who is on the way to send a signal has raised the flag. -/
  raised : ∀ g ∈ t.triggers, g ≠ .start → t.shutdown.isTriggered = true
  told : ∀ w ∈ t.waiters, w.IsTold t.shutdown (Trigger.finished ∈ t.triggers)

theorem isSound_initial (waiters triggers : Nat) : (initial waiters triggers).IsSound where
  listeners_eq := by simp [initial, new, List.countP_replicate]
  raised g hg hne := absurd (List.eq_of_mem_replicate hg) hne
  told w hw := isTold_of_listener? (by rw [List.eq_of_mem_replicate hw]; rfl)

section
variable {t : Tasks} {i : Nat}

theorem IsSound.listeners_pos (h : t.IsSound) {w : Waiter} (hmem : w ∈ t.waiters)
    (hw : w.isSubscribed = true) : 0 < t.shutdown.listeners := by
  rw [h.listeners_eq]
  exact List.countP_pos_iff.2 ⟨w, hmem, hw⟩

theorem IsSound.isTriggered (h : t.IsSound) (hg : Trigger.finished ∈ t.triggers) :
    t.shutdown.isTriggered = true :=
  h.raised _ hg nofun

theorem IsSound.waiter_step (h : t.IsSound) {w : Waiter} (hi : t.waiters[i]? = some w) :
    IsSound { t with
      shutdown := (w.step t.shutdown).2, waiters := t.waiters.set i (w.step t.shutdown).1 } := by
  have hw : w ∈ t.waiters := List.mem_of_getElem? hi
  obtain ⟨hlt, hget⟩ := List.getElem?_eq_some_iff.1 hi
  refine ⟨?_, fun g hg hne => ?_, fun v hv => ?_⟩
  · show (w.step t.shutdown).2.listeners = _
    rw [step_listeners (h.listeners_pos hw), List.countP_set hlt, hget, h.listeners_eq]
  · exact (step_isTriggered ..).trans (h.raised g hg hne)
  · rcases List.mem_or_eq_of_mem_set hv with hv | rfl
    · exact (h.told v hv).mono (Nat.le_of_eq (step_sent ..).symm) id
    · exact (h.told w hw).step h.isTriggered

/-- A signal that is sent reaches every task that listens: its listener is counted, and not ahead
of what was sent before. -/
theorem IsSound.told_send (h : t.IsSound) {w : Waiter} (hw : w ∈ t.waiters) (completed : Prop) :
    w.IsTold t.shutdown.send.release completed where
  next_le l hl := Nat.le_trans ((h.told w hw).next_le l hl) (sent_le_send _)
  next_lt _ l hlistening := by
    subst hlistening
    show l.next < t.shutdown.send.sent
    rw [send_heard (h.listeners_pos hw rfl)]
    exact Nat.lt_succ_of_le ((h.told _ hw).next_le l rfl)

theorem IsSound.trigger_step (h : t.IsSound) {g : Trigger} (hi : t.triggers[i]? = some g) :
    IsSound { t with
      shutdown := (g.step t.shutdown).2, triggers := t.triggers.set i (g.step t.shutdown).1 } := by
  cases g with
  | start =>
    refine ⟨h.listeners_eq, fun _ _ _ => rfl, fun w hw => (h.told w hw).mono (Nat.le_refl _) ?_⟩
    intro hmem
    rcases List.mem_or_eq_of_mem_set hmem with hmem | heq
    · exact hmem
    · cases heq
  | raised =>
    -- Here a trigger completes, so everyone who listens must have something to hear.
    have hflag := h.raised _ (List.mem_of_getElem? hi) nofun
    exact ⟨(send_listeners _).trans h.listeners_eq, fun _ _ _ => (send_isTriggered _).trans hflag,
      fun w hw => h.told_send hw _⟩
  | finished =>
    obtain ⟨hlt, hget⟩ := List.getElem?_eq_some_iff.1 hi
    have hset : t.triggers.set i .finished = t.triggers := by rw [← hget, List.set_getElem_self]
    rw [Trigger.step, hset]
    exact h

end

section
variable {waiters triggers : Nat} {t : Tasks}

theorem isSound_of_reachable (h : Reachable waiters triggers t) : t.IsSound := by
  induction h with
  | initial => exact isSound_initial waiters triggers
  | step _ next ih =>
    cases next with
    | waiter i w hi => exact ih.waiter_step hi
    | trigger i g hi => exact ih.trigger_step hi

theorem Reachable.waiter (h : Reachable waiters triggers t) (i : Nat) {w : Waiter}
    (hi : t.waiters[i]? = some w) : Reachable waiters triggers { t with
      shutdown := (w.step t.shutdown).2, waiters := t.waiters.set i (w.step t.shutdown).1 } :=
  .step h (.waiter t i w hi)

theorem Reachable.trigger (h : Reachable waiters triggers t) (i : Nat) {g : Trigger}
    (hi : t.triggers[i]? = some g) : Reachable waiters triggers { t with
      shutdown := (g.step t.shutdown).2, triggers := t.triggers.set i (g.step t.shutdown).1 } :=
  .step h (.trigger t i g hi)

/-- Whatever the number of tasks and the order of their steps, never is a trigger completed while a
task listens and has nothing to hear. -/
theorem completed_leaves_nobody_blocked (h : Reachable waiters triggers t) :
    ¬(Trigger.finished ∈ t.triggers ∧ ∃ w ∈ t.waiters, w.IsBlocked t.shutdown) := by
  rintro ⟨hg, w, hw, l, rfl, hnothing⟩
  have hlt := ((isSound_of_reachable h).told _ hw).next_lt hg l rfl
  exact (receive_of_lt hlt).1 hnothing

/-- Two tasks have subscribed before two triggers, and one of them listens: of two signals it has
missed one, and is told so. -/
theorem completed_leaves_nobody_blocked_twice :
    Reachable 2 2 ⟨⟨true, 2, 2, 3⟩, [.listening ⟨0⟩, .subscribed ⟨0⟩], [.finished, .finished]⟩ ∧
      ¬(Trigger.finished ∈ [Trigger.finished, .finished] ∧
        ∃ w ∈ [Waiter.listening ⟨0⟩, .subscribed ⟨0⟩], w.IsBlocked ⟨true, 2, 2, 3⟩) := by
  have hinitial : Reachable 2 2 (.initial 2 2) := .initial
  have hlistens := (hinitial.waiter 0 rfl).waiter 0 rfl
  have hsent := ((((hlistens.waiter 1 rfl).trigger 0 rfl).trigger 1 rfl).trigger 0 rfl).trigger 1 rfl
  exact ⟨hsent, completed_leaves_nobody_blocked hsent⟩

/-- Tasks that are let run one after another all end their waiting. -/
theorem foldl_poll_finished (ws : List Waiter) (done : List Waiter × Shutdown)
    (hdone : ∀ w ∈ done.1, w = .finished) (hflag : done.2.isTriggered = true)
    (htold : ∀ w ∈ ws, w.IsTold done.2 True) :
    ∀ w ∈ (ws.foldl (fun done w => ((w.poll done.2).1 :: done.1, (w.poll done.2).2)) done).1,
      w = .finished := by
  induction ws generalizing done with
  | nil => exact hdone
  | cons w ws ih =>
    refine ih _ ?_ ((poll_isTriggered ..).trans hflag) fun v hv => ?_
    · intro v hv
      rcases List.mem_cons.1 hv with rfl | hv
      · exact (htold w (List.mem_cons_self ..)).poll hflag
      · exact hdone v hv
    · exact (htold v (List.mem_cons_of_mem _ hv)).mono (Nat.le_of_eq (poll_sent ..).symm) id

/-- Once a trigger has completed nobody waits any more when all tasks are let run. -/
theorem waiting_settle_of_completed (h : Reachable waiters triggers t)
    (hg : Trigger.finished ∈ t.triggers) : t.settle.waiting = 0 := by
  have hsound := isSound_of_reachable h
  have hfinished := foldl_poll_finished t.waiters ([], t.shutdown) nofun (hsound.isTriggered hg)
    fun w hw => (hsound.told w hw).mono (Nat.le_refl _) fun _ => hg
  rw [waiting, List.length_eq_zero_iff, List.filter_eq_nil_iff]
  intro w hw
  have hw : w = .finished := hfinished w (List.mem_reverse.1 hw)
  simp [hw]

end

end Tasks
end Waymark.Shutdown
