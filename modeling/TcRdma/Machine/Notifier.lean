import Mathlib.Data.List.Basic

namespace tc_rdma.machine

/-- A queue that reports an entry added while it is armed by one event. An
event disarms the queue. -/
structure Notifier (α : Type) where
  queue : List α
  armed : Bool
  events : Nat
  deriving DecidableEq, Repr

variable {α : Type} {n : Notifier α}

def Notifier.empty : Notifier α := { queue := [], armed := false, events := 0 }

def Notifier.add (n : Notifier α) (a : α) : Notifier α :=
  if n.armed then { queue := n.queue ++ [a], armed := false, events := n.events + 1 }
  else { n with queue := n.queue ++ [a] }

def Notifier.arm (n : Notifier α) : Notifier α := { n with armed := true }

/-- Waiting for an event: there is no result as long as none is pending. -/
def Notifier.take_event (n : Notifier α) : Option (Notifier α) :=
  if n.events = 0 then none else some { n with events := n.events - 1 }

def Notifier.poll (n : Notifier α) : Option (α × Notifier α) :=
  match n.queue with
  | [] => none
  | a :: rest => some (a, { n with queue := rest })

@[simp] theorem Notifier.add_queue (n : Notifier α) (a : α) : (n.add a).queue = n.queue ++ [a] := by
  unfold Notifier.add
  split <;> rfl

theorem Notifier.add_events_le (n : Notifier α) (a : α) : (n.add a).events ≤ n.events + 1 := by
  unfold Notifier.add
  split <;> simp

theorem Notifier.take_event_eq_some {next : Notifier α} (htake : n.take_event = some next) :
    0 < n.events ∧ next = { n with events := n.events - 1 } := by
  unfold Notifier.take_event at htake
  split at htake
  · cases htake
  · cases htake
    exact ⟨by omega, rfl⟩

theorem Notifier.poll_eq_some {a : α} {next : Notifier α} (hpoll : n.poll = some (a, next)) :
    n.queue = a :: next.queue ∧ next.armed = n.armed ∧ next.events = n.events := by
  unfold Notifier.poll at hpoll
  split at hpoll
  · cases hpoll
  · cases hpoll
    exact ⟨‹_›, rfl, rfl⟩

theorem Notifier.poll_eq_none : n.poll = none ↔ n.queue = [] := by
  unfold Notifier.poll
  split <;> simp_all

/-- The next entry is reported, or an event is already pending. -/
def Notifier.Watched (n : Notifier α) : Prop := n.armed = true ∨ 0 < n.events

/-- Whoever waits for an event now does not leave an entry behind. -/
def Notifier.Ready (n : Notifier α) : Prop := n.events = 0 → n.queue = [] ∧ n.armed = true

theorem Notifier.watched_arm (n : Notifier α) : n.arm.Watched := .inl rfl

theorem Notifier.Watched.add (h : n.Watched) (a : α) : (n.add a).Watched := by
  unfold Notifier.add
  split
  · exact .inr (Nat.succ_pos _)
  · exact h

theorem Notifier.Watched.poll (h : n.Watched) {a : α} {next : Notifier α} (hpoll : n.poll = some (a, next)) :
    next.Watched := by
  obtain ⟨_, harmed, hevents⟩ := Notifier.poll_eq_some hpoll
  rwa [Notifier.Watched, harmed, hevents]

/-- Arming first and then draining is what makes waiting safe. -/
theorem Notifier.Watched.ready (h : n.Watched) (hdrained : n.queue = []) : n.Ready := by
  intro hevents
  rcases h with harmed | hpending
  · exact ⟨hdrained, harmed⟩
  · omega

theorem Notifier.ready_empty_arm : (Notifier.empty : Notifier α).arm.Ready := fun _ => ⟨rfl, rfl⟩

theorem Notifier.Ready.add (h : n.Ready) (a : α) : (n.add a).Ready := by
  intro hevents
  unfold Notifier.add at hevents
  split at hevents
  · cases hevents
  · rename_i harmed
    exact absurd (h hevents).2 harmed

end tc_rdma.machine
