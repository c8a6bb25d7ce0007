import Ether2Ser.Drivers.V24Config
import Ether2Ser.Memory.Ring

open Memory ether2ser.v24_config

namespace ether2ser.event_queue

def EVENT_QUEUE_CAPACITY : Nat := 16

/-- An IPv4 address or mask, `uint8_t[4]`. -/
structure Ipv4 where
  octet0 : UInt8
  octet1 : UInt8
  octet2 : UInt8
  octet3 : UInt8
  deriving DecidableEq, Repr

/-- `event_queue_data_types_t`. -/
inductive EventQueueDataType where
  | NET_IP_REMOTE
  | NET_IP_GATEWAY
  | NET_IP_LOCAL
  | NET_IP_MASK
  | NET_PORT_LOCAL
  | NET_PORT_REMOTE
  | V24_BAUDRATE
  | V24_POLARITIES
  | V24_CLOCK_MODE
  | SYS_REBOOT
  deriving DecidableEq, Repr

/-- `event_queue_data_t` of a setting: an identifier with the value it selects. -/
inductive EventQueueData where
  | NET_IP_REMOTE (ip : Ipv4)
  | NET_IP_GATEWAY (ip : Ipv4)
  | NET_IP_LOCAL (ip : Ipv4)
  | NET_IP_MASK (ip : Ipv4)
  | NET_PORT_LOCAL (port : UInt16)
  | NET_PORT_REMOTE (port : UInt16)
  | V24_BAUDRATE (baudrate : UInt32)
  | V24_POLARITIES (polarities : V24Polarities)
  | V24_CLOCK_MODE (v24_clock_mode : Bool)
  | SYS_REBOOT
  deriving DecidableEq, Repr

/-- `event_t`, for the events that the firmware pushes and for the zeroed slots.
A command line is the index of its slot in the pool with its length, and a
request for a setting carries only the identifier. -/
inductive Event where
  | EV_NONE
  | EV_CLI_LINE (line_slot : Nat) (data_len : Nat)
  | EV_SAVE_CONFIG
  | EV_STATUS
  | EV_MEM
  | EV_WIPE_CONFIG
  | EV_SET_NET_SETTINGS (payload : EventQueueData)
  | EV_GET_NET_SETTINGS (id : EventQueueDataType)
  | EV_SET_V24_SETTINGS (payload : EventQueueData)
  | EV_GET_V24_SETTINGS (id : EventQueueDataType)
  | EV_REBOOT
  deriving DecidableEq, Repr

/-- The storage of the event queue, with both cursors inside it. It copies its
events of type `ε` and never looks into them. -/
structure EventQueue (ε : Type) where
  entries : List ε
  event_queue_write : Nat
  event_queue_read : Nat
  event_queue_high_water_mark : Nat
  event_queue_push_drops : UInt32
  length_entries : entries.length = EVENT_QUEUE_CAPACITY
  write_lt : event_queue_write < EVENT_QUEUE_CAPACITY
  read_lt : event_queue_read < EVENT_QUEUE_CAPACITY

variable {ε : Type}

/-- The empty queue, with its storage filled with the zeroed event. -/
def event_queue_init (zero : ε) : EventQueue ε where
  entries := List.replicate EVENT_QUEUE_CAPACITY zero
  event_queue_write := 0
  event_queue_read := 0
  event_queue_high_water_mark := 0
  event_queue_push_drops := 0
  length_entries := List.length_replicate
  write_lt := by decide
  read_lt := by decide

def event_queue_count_internal (queue : EventQueue ε) : Nat :=
  if queue.event_queue_write ≥ queue.event_queue_read then queue.event_queue_write - queue.event_queue_read
  else EVENT_QUEUE_CAPACITY - (queue.event_queue_read - queue.event_queue_write)

theorem next_slot_lt (slot : Nat) : (slot + 1) % EVENT_QUEUE_CAPACITY < EVENT_QUEUE_CAPACITY :=
  Nat.mod_lt _ (by decide)

/-- The queue with an event behind the last one. -/
def EventQueue.store (queue : EventQueue ε) (event_entry : ε) : EventQueue ε :=
  { queue with
    entries := queue.entries.set queue.event_queue_write event_entry
    event_queue_write := (queue.event_queue_write + 1) % EVENT_QUEUE_CAPACITY
    length_entries := List.length_set.trans queue.length_entries
    write_lt := next_slot_lt _ }

def event_queue_push (queue : EventQueue ε) (event_entry : ε) : Bool × EventQueue ε :=
  if (queue.event_queue_write + 1) % EVENT_QUEUE_CAPACITY = queue.event_queue_read then
    (false, { queue with event_queue_push_drops := queue.event_queue_push_drops + 1 })
  else
    let queue := queue.store event_entry
    let current_count := event_queue_count_internal queue
    (true,
      if current_count > queue.event_queue_high_water_mark then
        { queue with event_queue_high_water_mark := current_count }
      else queue)

/-- The event in a slot. -/
def EventQueue.slot (queue : EventQueue ε) (slot : Nat) (hslot : slot < EVENT_QUEUE_CAPACITY) : ε :=
  queue.entries.get ⟨slot, by rwa [queue.length_entries]⟩

def event_queue_pop (queue : EventQueue ε) : Option (ε × EventQueue ε) :=
  if queue.event_queue_read = queue.event_queue_write then none
  else some (queue.slot queue.event_queue_read queue.read_lt,
    { queue with
      event_queue_read := (queue.event_queue_read + 1) % EVENT_QUEUE_CAPACITY
      read_lt := next_slot_lt _ })

def event_queue_is_empty (queue : EventQueue ε) : Bool := queue.event_queue_read = queue.event_queue_write

def event_queue_is_full (queue : EventQueue ε) : Bool :=
  (queue.event_queue_write + 1) % EVENT_QUEUE_CAPACITY = queue.event_queue_read

def event_queue_get_count (queue : EventQueue ε) : Nat := event_queue_count_internal queue

def event_queue_get_high_water_mark (queue : EventQueue ε) : Nat := queue.event_queue_high_water_mark

def event_queue_get_push_drop_count (queue : EventQueue ε) : UInt32 := queue.event_queue_push_drops

/-- The queued events, the oldest one first. -/
def EventQueue.events (queue : EventQueue ε) : List ε :=
  (List.range (event_queue_count_internal queue)).map fun i =>
    queue.slot ((queue.event_queue_read + i) % EVENT_QUEUE_CAPACITY) (Nat.mod_lt _ (by decide))

theorem count_lt_capacity (queue : EventQueue ε) : event_queue_count_internal queue < EVENT_QUEUE_CAPACITY := by
  have hwrite := queue.write_lt
  have hread := queue.read_lt
  unfold event_queue_count_internal
  split <;> omega

theorem length_events (queue : EventQueue ε) : queue.events.length = event_queue_get_count queue := by
  rw [EventQueue.events, List.length_map, List.length_range]
  rfl

theorem ringHolds_events (queue : EventQueue ε) :
    RingHolds EVENT_QUEUE_CAPACITY queue.entries queue.event_queue_read queue.events where
  length_cells := queue.length_entries
  first_lt := queue.read_lt
  reserved := by
    rw [length_events]
    exact count_lt_capacity queue
  slots := by
    intro i hi
    simp only [EventQueue.events, List.getElem_map, List.getElem_range, EventQueue.slot, List.get_eq_getElem]
    exact List.getElem?_eq_getElem _

theorem ringEnd_events (queue : EventQueue ε) :
    ringEnd EVENT_QUEUE_CAPACITY queue.event_queue_read queue.events = queue.event_queue_write := by
  have hwrite := queue.write_lt
  have hread := queue.read_lt
  rw [ringEnd, length_events, event_queue_get_count, event_queue_count_internal]
  split
  · rw [Nat.mod_eq_of_lt (by omega)]
    omega
  · rw [Nat.mod_eq_sub_mod (by omega), Nat.mod_eq_of_lt (by omega)]
    omega

/-- The events of a queue are what its ring holds. -/
theorem events_eq_of_ringHolds {queue : EventQueue ε} {events : List ε}
    (h : RingHolds EVENT_QUEUE_CAPACITY queue.entries queue.event_queue_read events)
    (hend : ringEnd EVENT_QUEUE_CAPACITY queue.event_queue_read events = queue.event_queue_write) :
    queue.events = events :=
  (ringHolds_events queue).unique h ((ringEnd_events queue).trans hend.symm)

theorem length_events_lt (queue : EventQueue ε) : queue.events.length < EVENT_QUEUE_CAPACITY :=
  (ringHolds_events queue).reserved

theorem full_iff (queue : EventQueue ε) :
    (queue.event_queue_write + 1) % EVENT_QUEUE_CAPACITY = queue.event_queue_read ↔
      queue.events.length + 1 = EVENT_QUEUE_CAPACITY := by
  have hfull := ringEnd_succ_eq_first_iff (ringHolds_events queue)
  rwa [ringEnd_events] at hfull

theorem events_store (queue : EventQueue ε) (event_entry : ε)
    (hroom : queue.events.length + 1 < EVENT_QUEUE_CAPACITY) :
    (queue.store event_entry).events = queue.events ++ [event_entry] := by
  have hholds := ringHolds_events queue
  have hcell := hholds.getElem?_set event_entry
  have hset := (hholds.set event_entry).concat hroom hcell
  apply events_eq_of_ringHolds
  · rw [ringEnd_events] at hset
    exact hset
  · change ringEnd _ queue.event_queue_read _ = (queue.event_queue_write + 1) % EVENT_QUEUE_CAPACITY
    rw [ringEnd_concat, ringEnd_events]

/-- With room a push stores its event and raises the high-water mark to the new
number of events. -/
theorem event_queue_push_eq_store {queue : EventQueue ε} (event_entry : ε)
    (hroom : queue.events.length + 1 < EVENT_QUEUE_CAPACITY) :
    event_queue_push queue event_entry =
      (true, { queue.store event_entry with
        event_queue_high_water_mark := max (queue.events.length + 1) queue.event_queue_high_water_mark }) := by
  have hnot : ¬ (queue.event_queue_write + 1) % EVENT_QUEUE_CAPACITY = queue.event_queue_read := by
    rw [full_iff]
    omega
  have hcount : event_queue_count_internal (queue.store event_entry) = queue.events.length + 1 := by
    have hlength := length_events (queue.store event_entry)
    rw [events_store queue event_entry hroom, List.length_append, List.length_singleton] at hlength
    exact hlength.symm
  have hmark : (queue.store event_entry).event_queue_high_water_mark = queue.event_queue_high_water_mark := rfl
  unfold event_queue_push
  rw [if_neg hnot]
  simp only [hcount, hmark]
  split
  · rename_i hlarger
    rw [Nat.max_eq_left (Nat.le_of_lt hlarger)]
  · rename_i hlarger
    rw [Nat.max_eq_right (Nat.le_of_not_lt hlarger), ← hmark]

/-- Without room a push counts a drop. -/
theorem event_queue_push_eq_drop {queue : EventQueue ε} (event_entry : ε)
    (hfull : queue.events.length + 1 = EVENT_QUEUE_CAPACITY) :
    event_queue_push queue event_entry =
      (false, { queue with event_queue_push_drops := queue.event_queue_push_drops + 1 }) :=
  if_pos ((full_iff queue).mpr hfull)

/-- With room a push appends its event. -/
theorem event_queue_push_room {queue : EventQueue ε} (event_entry : ε)
    (hroom : queue.events.length + 1 < EVENT_QUEUE_CAPACITY) :
    (event_queue_push queue event_entry).1 = true ∧
      (event_queue_push queue event_entry).2.events = queue.events ++ [event_entry] := by
  rw [event_queue_push_eq_store event_entry hroom]
  exact ⟨rfl, events_store queue event_entry hroom⟩

/-- Without room a push leaves the events as they were. -/
theorem event_queue_push_full {queue : EventQueue ε} (event_entry : ε)
    (hfull : queue.events.length + 1 = EVENT_QUEUE_CAPACITY) :
    (event_queue_push queue event_entry).1 = false ∧ (event_queue_push queue event_entry).2.events = queue.events := by
  rw [event_queue_push_eq_drop event_entry hfull]
  exact ⟨rfl, rfl⟩

/-- There is room for an event, or only the reserved slot is left. -/
theorem room_or_full (queue : EventQueue ε) :
    queue.events.length + 1 < EVENT_QUEUE_CAPACITY ∨ queue.events.length + 1 = EVENT_QUEUE_CAPACITY :=
  Nat.lt_or_eq_of_le (length_events_lt queue)

/-- A push appends its event or leaves the queue as it was. -/
theorem events_push (queue : EventQueue ε) (event_entry : ε) :
    (event_queue_push queue event_entry).2.events = queue.events ++ [event_entry] ∨
      (event_queue_push queue event_entry).2.events = queue.events := by
  obtain hroom | hfull := room_or_full queue
  · exact .inl (event_queue_push_room event_entry hroom).2
  · exact .inr (event_queue_push_full event_entry hfull).2

theorem event_queue_pop_eq_none_iff (queue : EventQueue ε) : event_queue_pop queue = none ↔ queue.events = [] := by
  have hempty := ringEnd_eq_first_iff (ringHolds_events queue)
  rw [ringEnd_events] at hempty
  unfold event_queue_pop
  rw [← hempty]
  constructor
  · intro hnone
    split at hnone
    · rename_i heq
      exact heq.symm
    · cases hnone
  · intro heq
    rw [if_pos heq.symm]

/-- A pop takes the oldest event. -/
theorem events_of_pop {queue queue' : EventQueue ε} {event_out : ε}
    (hpop : event_queue_pop queue = some (event_out, queue')) : queue.events = event_out :: queue'.events := by
  have hne : queue.events ≠ [] := by
    rw [Ne, ← event_queue_pop_eq_none_iff, hpop]
    exact nofun
  obtain ⟨oldest, events, hevents⟩ := List.exists_cons_of_ne_nil hne
  have hholds := ringHolds_events queue
  have hend := ringEnd_events queue
  rw [hevents] at hholds hend
  unfold event_queue_pop at hpop
  split at hpop
  · cases hpop
  · cases hpop
    rw [hevents]
    congr 1
    · exact Option.some_inj.mp (hholds.head.symm.trans (List.getElem?_eq_getElem _))
    · symm
      apply events_eq_of_ringHolds hholds.tail
      rw [← ringEnd_cons]
      exact hend

/-- A pop leaves room for one event. -/
theorem room_of_pop {queue queue' : EventQueue ε} {event_out : ε}
    (hpop : event_queue_pop queue = some (event_out, queue')) : queue'.events.length + 1 < EVENT_QUEUE_CAPACITY := by
  have hreserved := length_events_lt queue
  rwa [events_of_pop hpop, List.length_cons] at hreserved

end ether2ser.event_queue
