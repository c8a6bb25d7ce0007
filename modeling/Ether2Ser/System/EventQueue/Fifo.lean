import Ether2Ser.Control.Machine
import Ether2Ser.Memory.Fifo
import Ether2Ser.System.EventQueue

open Memory Machine

namespace ether2ser.event_queue

variable {ε : Type}

inductive QueueCall (ε : Type) where
  | push (event_entry : ε)
  | pop
  deriving DecidableEq, Repr

inductive QueueAnswer (ε : Type) where
  | pushed (ok : Bool)
  | popped (event_out : Option ε)
  deriving DecidableEq, Repr

/-- The answer to a push that found no room. -/
def QueueAnswer.dropped : QueueAnswer ε → Bool
  | .pushed ok => !ok
  | .popped _ => false

def respond (queue : EventQueue ε) : QueueCall ε → QueueAnswer ε × EventQueue ε
  | .push event_entry => (.pushed (event_queue_push queue event_entry).1, (event_queue_push queue event_entry).2)
  | .pop =>
    match event_queue_pop queue with
    | none => (.popped none, queue)
    | some (event_out, queue) => (.popped (some event_out), queue)

/-- The same call on the queue of at most 15 events that the storage stands for. -/
def respondFifo (queue : Fifo ε 15) : QueueCall ε → QueueAnswer ε × Fifo ε 15
  | .push event_entry => (.pushed (queue.push event_entry).1, (queue.push event_entry).2)
  | .pop => (.popped queue.pop.1, queue.pop.2)

/-- A queue whose storage holds the events of an abstract queue. -/
def Represents (queue : EventQueue ε) (model : Fifo ε 15) : Prop := queue.events = model.items

theorem represents_init (zero : ε) : Represents (event_queue_init zero) .empty := rfl

section

variable {queue : EventQueue ε} {model : Fifo ε 15}

theorem Represents.push (h : Represents queue model) (event_entry : ε) :
    (respond queue (.push event_entry)).1 = (respondFifo model (.push event_entry)).1 ∧
      Represents (respond queue (.push event_entry)).2 (respondFifo model (.push event_entry)).2 := by
  have hcapacity : EVENT_QUEUE_CAPACITY = 16 := rfl
  simp only [respond, respondFifo, Represents]
  rw [Represents] at h
  by_cases hroom : model.items.length < 15
  · have hfree : queue.events.length + 1 < EVENT_QUEUE_CAPACITY := by
      rw [h]
      omega
    obtain ⟨hok, hevents⟩ := event_queue_push_room event_entry hfree
    obtain ⟨hok', hitems⟩ := Fifo.push_room hroom event_entry
    rw [hok, hok', hevents, hitems, h]
    exact ⟨rfl, rfl⟩
  · have hfull := Fifo.length_eq_of_not_lt hroom
    have hlast : queue.events.length + 1 = EVENT_QUEUE_CAPACITY := by
      rw [h, hfull]
      rfl
    obtain ⟨hok, hevents⟩ := event_queue_push_full event_entry hlast
    rw [hok, hevents, Fifo.push_full hfull]
    exact ⟨rfl, h⟩

theorem Represents.pop (h : Represents queue model) :
    (respond queue .pop).1 = (respondFifo model .pop).1 ∧
      Represents (respond queue .pop).2 (respondFifo model .pop).2 := by
  simp only [respond, respondFifo, Represents]
  cases hpop : event_queue_pop queue with
  | none =>
    have hnil := (event_queue_pop_eq_none_iff queue).mp hpop
    rw [Represents] at h
    rw [Fifo.pop_empty (h.symm.trans hnil)]
    exact ⟨rfl, h⟩
  | some popped =>
    obtain ⟨hitem, hitems⟩ := Fifo.pop_cons (h.symm.trans (events_of_pop hpop))
    rw [hitem, hitems]
    exact ⟨rfl, rfl⟩

end

theorem respond_simulates : Simulates (@respond ε) respondFifo Represents where
  answer_eq h call := by
    cases call with
    | push event_entry => exact (h.push event_entry).1
    | pop => exact h.pop.1
  preserves h call := by
    cases call with
    | push event_entry => exact (h.push event_entry).2
    | pop => exact h.pop.2

theorem is_empty_iff (queue : EventQueue ε) : event_queue_is_empty queue = true ↔ queue.events = [] := by
  have hempty := ringEnd_eq_first_iff (ringHolds_events queue)
  rw [ringEnd_events] at hempty
  rw [event_queue_is_empty, decide_eq_true_iff, ← hempty]
  exact eq_comm

theorem is_full_iff (queue : EventQueue ε) : event_queue_is_full queue = true ↔ queue.events.length = 15 := by
  have hcapacity : EVENT_QUEUE_CAPACITY = 16 := rfl
  rw [event_queue_is_full, decide_eq_true_iff, full_iff]
  omega

/-- A pop changes no counter. -/
theorem counters_of_pop {queue queue' : EventQueue ε} {event_out : ε}
    (hpop : event_queue_pop queue = some (event_out, queue')) :
    event_queue_get_high_water_mark queue' = event_queue_get_high_water_mark queue ∧
      event_queue_get_push_drop_count queue' = event_queue_get_push_drop_count queue := by
  unfold event_queue_pop at hpop
  split at hpop
  · cases hpop
  · cases hpop
    exact ⟨rfl, rfl⟩

theorem respond_pop_none {queue : EventQueue ε} (hpop : event_queue_pop queue = none) :
    respond queue .pop = (.popped none, queue) := by rw [respond, hpop]

theorem respond_pop_some {queue queue' : EventQueue ε} {event_out : ε}
    (hpop : event_queue_pop queue = some (event_out, queue')) :
    respond queue .pop = (.popped (some event_out), queue') := by rw [respond, hpop]

/-- A call counts a drop exactly where it answers with a failed push. -/
theorem drops_respond (queue : EventQueue ε) (call : QueueCall ε) :
    event_queue_get_push_drop_count (respond queue call).2 =
      event_queue_get_push_drop_count queue + if (respond queue call).1.dropped then 1 else 0 := by
  cases call with
  | push event_entry =>
    obtain hroom | hfull := room_or_full queue
    · rw [respond, event_queue_push_eq_store event_entry hroom]
      exact (UInt32.add_zero _).symm
    · rw [respond, event_queue_push_eq_drop event_entry hfull]
      rfl
  | pop =>
    cases hpop : event_queue_pop queue with
    | none =>
      rw [respond_pop_none hpop]
      exact (UInt32.add_zero _).symm
    | some popped =>
      rw [respond_pop_some hpop, (counters_of_pop hpop).2]
      exact (UInt32.add_zero _).symm

/-- A call raises the high-water mark to the number of events where this is larger. -/
theorem high_water_mark_respond (queue : EventQueue ε) (call : QueueCall ε)
    (hle : queue.events.length ≤ event_queue_get_high_water_mark queue) :
    event_queue_get_high_water_mark (respond queue call).2 =
      max (respond queue call).2.events.length (event_queue_get_high_water_mark queue) := by
  cases call with
  | push event_entry =>
    obtain hroom | hfull := room_or_full queue
    · have hevents := (event_queue_push_room event_entry hroom).2
      rw [respond, hevents, event_queue_push_eq_store event_entry hroom, List.length_append, List.length_singleton]
      rfl
    · have hevents := (event_queue_push_full event_entry hfull).2
      rw [respond, hevents, event_queue_push_eq_drop event_entry hfull, Nat.max_eq_right hle]
      rfl
  | pop =>
    cases hpop : event_queue_pop queue with
    | none => rw [respond_pop_none hpop, Nat.max_eq_right hle]
    | some popped =>
      rw [events_of_pop hpop, List.length_cons] at hle
      rw [respond_pop_some hpop, (counters_of_pop hpop).1, Nat.max_eq_right (Nat.le_of_succ_le hle)]

theorem drops_final (queue : EventQueue ε) (calls : List (QueueCall ε)) :
    event_queue_get_push_drop_count (final respond queue calls) =
      event_queue_get_push_drop_count queue +
        UInt32.ofNat ((answers respond queue calls).countP QueueAnswer.dropped) := by
  induction calls generalizing queue with
  | nil => simp
  | cons call calls ih =>
    rw [final_cons, ih, drops_respond, answers_cons, List.countP_cons, UInt32.ofNat_add, UInt32.add_assoc]
    congr 1
    rw [UInt32.add_comm]
    split <;> rfl

/-- The event queue answers every sequence of pushes and pops as a queue of at
most 15 events does. Its count, its two tests and its two counters say what this
queue holds, how many pushes failed and how long it has been at most. -/
theorem event_queue_refines_fifo (zero : ε) (calls : List (QueueCall ε)) :
    answers respond (event_queue_init zero) calls = answers respondFifo .empty calls ∧
      event_queue_get_count (final respond (event_queue_init zero) calls) =
        (final respondFifo .empty calls).items.length ∧
      (event_queue_is_empty (final respond (event_queue_init zero) calls) = true ↔
        (final respondFifo .empty calls).items = []) ∧
      (event_queue_is_full (final respond (event_queue_init zero) calls) = true ↔
        (final respondFifo .empty calls).items.length = 15) ∧
      event_queue_get_push_drop_count (final respond (event_queue_init zero) calls) =
        UInt32.ofNat ((answers respondFifo .empty calls).countP QueueAnswer.dropped) ∧
      IsGreatest (reached respondFifo (fun queue => queue.items.length) .empty calls)
        (event_queue_get_high_water_mark (final respond (event_queue_init zero) calls)) := by
  have hanswers := respond_simulates.answers_eq (represents_init zero) calls
  have hevents : (final respond (event_queue_init zero) calls).events = (final respondFifo .empty calls).items :=
    respond_simulates.final (represents_init zero) calls
  have hstart : event_queue_get_high_water_mark (event_queue_init zero) = (event_queue_init zero).events.length := rfl
  have hpeak := isGreatest_reached (fun queue => queue.events.length) event_queue_get_high_water_mark hstart
    high_water_mark_respond calls
  rw [respond_simulates.reached_eq (congrArg List.length) (represents_init zero) calls] at hpeak
  have hdrops := drops_final (event_queue_init zero) calls
  rw [hanswers] at hdrops
  rw [← length_events, is_empty_iff, is_full_iff, hevents]
  exact ⟨hanswers, rfl, Iff.rfl, Iff.rfl, hdrops.trans (UInt32.zero_add _), hpeak⟩

end ether2ser.event_queue
