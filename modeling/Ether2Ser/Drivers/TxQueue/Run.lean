import Ether2Ser.Drivers.TxQueue.Drain

open ether2ser.error ether2ser.hdlc ether2ser.hdlc_common ether2ser.hdlc_encoder ether2ser.pio_tx_rx_driver

namespace ether2ser.tx_queue

variable {σ : Type}

/-- The transmit queue over its driver, and the frames that were accepted into
the queue so far. -/
structure TxWorld (σ : Type) where
  queue : TxQueue
  driver : TxDriver σ
  enqueued : List (List UInt8)

def TxWorld.boot (tx_rts_holdoff_us : Nat) (pio : σ) : TxWorld σ where
  queue := tx_queue_init
  driver := .boot tx_rts_holdoff_us pio
  enqueued := []

/-- The calls of the queue's interface, and the passing of time between them. -/
inductive TxAction where
  | enqueue (payload : List UInt8)
  | drain (bytes_to_drain : Nat)
  | elapse
  deriving DecidableEq, Repr

def TxWorld.enqueue (world : TxWorld σ) (payload : List UInt8) : TxWorld σ :=
  match tx_queue_enqueue_udp_frame world.queue payload with
  | (.E2S_OK, queue) =>
    { world with
      queue
      enqueued := world.enqueued ++ [(hdlc_encode payload (.empty TX_FRAME_MAX_SIZE_BYTE) true).2.payload] }
  | (_, queue) => { world with queue }

def TxWorld.drain (hw : TxHardware σ) (world : TxWorld σ) (bytes_to_drain : Nat) : TxWorld σ :=
  let (_, queue, driver) := tx_queue_drain hw world.queue bytes_to_drain world.driver
  { world with queue, driver }

def TxWorld.elapse (hw : TxHardware σ) (world : TxWorld σ) : TxWorld σ :=
  { world with driver := world.driver.elapse hw }

def TxWorld.step (hw : TxHardware σ) (world : TxWorld σ) : TxAction → TxWorld σ
  | .enqueue payload => world.enqueue payload
  | .drain bytes_to_drain => world.drain hw bytes_to_drain
  | .elapse => world.elapse hw

def TxWorld.run (hw : TxHardware σ) (world : TxWorld σ) (actions : List TxAction) : TxWorld σ :=
  actions.foldl (TxWorld.step hw) world

/-- The frame in transmission, unless the current entry is fully sent. -/
def TxQueue.unsent (queue : TxQueue) : List (List UInt8) :=
  if queue.current_entry.offset < queue.current_entry.frame.length then [queue.current_entry.frame.payload] else []

/-- Every accepted frame is completed, in transmission or waiting, in the order
of the enqueues. -/
structure Accounts (world : TxWorld σ) (completed waiting : List (List UInt8)) : Prop where
  keeps : Keeps world.queue waiting
  enqueued_eq : world.enqueued = completed ++ (world.queue.unsent ++ waiting)

theorem accounts_boot (tx_rts_holdoff_us : Nat) (pio : σ) : Accounts (TxWorld.boot tx_rts_holdoff_us pio) [] [] where
  keeps := keeps_tx_queue_init
  enqueued_eq := rfl

theorem TxQueue.unsent_of_lt {queue : TxQueue}
    (hlt : queue.current_entry.offset < queue.current_entry.frame.length) :
    queue.unsent = [queue.current_entry.frame.payload] := if_pos hlt

theorem TxQueue.unsent_of_le {queue : TxQueue}
    (hle : queue.current_entry.frame.length ≤ queue.current_entry.offset) : queue.unsent = [] :=
  if_neg (by omega)

/-- An enqueue appends one frame to what is waiting, or changes nothing. -/
theorem Keeps.world_enqueue {world : TxWorld σ} {waiting : List (List UInt8)} (h : Keeps world.queue waiting)
    (payload : List UInt8) :
    (∃ queue, world.enqueue payload =
          { world with queue, enqueued := world.enqueued ++ [encodedFrame true payload] } ∧
        Keeps queue (waiting ++ [encodedFrame true payload]) ∧ queue.current_entry = world.queue.current_entry ∧
        queue.tx_wire_bytes = world.queue.tx_wire_bytes ∧
        queue.current_frame_cts_seq_start = world.queue.current_frame_cts_seq_start) ∨
      world.enqueue payload = world := by
  unfold TxWorld.enqueue
  obtain ⟨queue, hok, hencode, hkeeps⟩ | ⟨error, hne, herror, -⟩ := h.enqueue payload
  · rw [hok, hencode]
    exact .inl ⟨queue, rfl, hkeeps⟩
  · rw [herror]
    split
    · rename_i heq
      exact absurd (Prod.mk.inj heq).1 hne
    · rename_i heq
      obtain ⟨-, rfl⟩ := Prod.mk.inj heq
      exact .inr rfl

theorem Accounts.enqueue {world : TxWorld σ} {completed waiting : List (List UInt8)}
    (h : Accounts world completed waiting) (payload : List UInt8) :
    (∃ waiting', Accounts (world.enqueue payload) completed waiting') ∧
      (world.enqueue payload).driver = world.driver ∧
      (world.enqueue payload).queue.current_entry = world.queue.current_entry ∧
      (world.enqueue payload).queue.tx_wire_bytes = world.queue.tx_wire_bytes ∧
      (world.enqueue payload).queue.current_frame_cts_seq_start = world.queue.current_frame_cts_seq_start := by
  obtain ⟨queue, hworld, hkeeps, hentry, hsame⟩ | hworld := h.keeps.world_enqueue payload
  · rw [hworld]
    refine ⟨⟨_, hkeeps, ?_⟩, rfl, hentry, hsame⟩
    simp only [h.enqueued_eq, TxQueue.unsent, hentry, List.append_assoc]
  · rw [hworld]
    exact ⟨⟨_, h⟩, rfl, rfl, rfl, rfl⟩

/-- The queue that serves still owes the same frames. -/
theorem Serves.unsent_append {queue served : TxQueue} {waiting rest : List (List UInt8)}
    (hserves : Serves queue waiting served rest) :
    queue.unsent ++ waiting = served.current_entry.frame.payload :: rest := by
  cases hserves with
  | current hlt => rw [TxQueue.unsent_of_lt hlt, List.singleton_append]
  | next hdone hwaiting hentry =>
    rw [TxQueue.unsent_of_le hdone, hwaiting, hentry]
    rfl

/-- The frame of an entry once its last byte is handed over. -/
def finished (entry : TxQueueEntry) (sent : Nat) : List (List UInt8) :=
  if entry.offset + sent < entry.frame.length then [] else [entry.frame.payload]

theorem Accounts.advance {world : TxWorld σ} {served : TxQueue} {completed waiting rest : List (List UInt8)}
    {sent : Nat}
    {cts_seq_start : UInt32} (h : Accounts world completed waiting) (hserves : Serves world.queue waiting served rest)
    (hkeeps : Keeps (served.advance sent cts_seq_start) rest) (driver : TxDriver σ) :
    Accounts { world with queue := served.advance sent cts_seq_start, driver }
      (completed ++ finished served.current_entry sent) rest where
  keeps := hkeeps
  enqueued_eq := by
    simp only
    rw [h.enqueued_eq, hserves.unsent_append]
    by_cases hlt : served.current_entry.offset + sent < served.current_entry.frame.length
    · rw [finished, if_pos hlt, TxQueue.unsent, TxQueue.advance, if_pos hlt, List.append_nil]
      rfl
    · rw [finished, if_neg hlt, TxQueue.unsent, TxQueue.advance, if_neg hlt, List.append_assoc]
      rfl

theorem Accounts.rewind {world : TxWorld σ} {completed waiting : List (List UInt8)}
    (h : Accounts world completed waiting)
    (hlt : world.queue.current_entry.offset < world.queue.current_entry.frame.length) (driver : TxDriver σ) :
    Accounts { world with queue := world.queue.rewind, driver } completed waiting where
  keeps := h.keeps.rewind
  enqueued_eq := by
    have hagain : world.queue.rewind.current_entry.offset < world.queue.rewind.current_entry.frame.length :=
      Nat.zero_lt_of_lt hlt
    have hunsent : world.queue.rewind.unsent = world.queue.unsent := by
      rw [TxQueue.unsent_of_lt hlt, TxQueue.unsent_of_lt hagain]
      rfl
    exact h.enqueued_eq.trans (by rw [hunsent])

/-- A property of the driver that its calls and the passing of time keep. -/
structure DriverInvariant (hw : TxHardware σ) (invariant : TxDriver σ → Prop) : Prop where
  elapse : ∀ {driver}, invariant driver → invariant (driver.elapse hw)
  put : ∀ {byte accepted driver driver'}, invariant driver → tx_put hw byte driver = (accepted, driver') →
    invariant driver'
  reset : ∀ {driver}, invariant driver → invariant (tx_clock_hard_reset hw driver)
  poll : ∀ {driver}, invariant driver → invariant (tx_poll hw driver).2

section

variable {hw : TxHardware σ} {invariant : TxDriver σ → Prop}

theorem DriverInvariant.putBytes (h : DriverInvariant hw invariant) (bytes : List UInt8) {driver : TxDriver σ}
    (hdriver : invariant driver) : invariant (putBytes hw bytes driver).2 :=
  (@putBytes_induction σ hw (fun _ => invariant) bytes driver hdriver
    (fun _ _ _ _ _ hbefore hput => h.put (h.elapse hbefore) hput)
    (fun _ _ _ _ hbefore hput => h.put (h.elapse hbefore) hput)).2

theorem DriverInvariant.drain_current (h : DriverInvariant hw invariant) (queue : TxQueue) (bytes_to_drain : Nat)
    {driver : TxDriver σ} (hdriver : invariant driver) :
    invariant (tx_queue_drain_current hw queue bytes_to_drain driver).2.2 := by
  have hbytes : invariant (tx_queue_drain_bytes hw queue bytes_to_drain driver).2.2 := h.putBytes _ hdriver
  unfold tx_queue_drain_current
  generalize tx_queue_drain_bytes hw queue bytes_to_drain driver = result at hbytes
  obtain ⟨bytes_drained, served, driver'⟩ := result
  by_cases hfirst : !served.current_frame_cts_seq_valid ∧ queue.current_entry.offset = 0 ∧ bytes_drained > 0
  · simp only [if_pos hfirst]
    split
    · exact h.elapse hbytes
    · exact h.elapse hbytes
  · simp only [if_neg hfirst]
    split
    · exact hbytes
    · exact hbytes

theorem DriverInvariant.drain (h : DriverInvariant hw invariant) (queue : TxQueue) (bytes_to_drain : Nat)
    {driver : TxDriver σ} (hdriver : invariant driver) :
    invariant (tx_queue_drain hw queue bytes_to_drain driver).2.2 := by
  unfold tx_queue_drain
  simp only
  split
  · exact h.reset (h.elapse (h.elapse hdriver))
  · split
    · split
      · exact h.elapse hdriver
      · exact h.drain_current _ _ (h.elapse hdriver)
    · exact h.drain_current _ _ (h.elapse hdriver)

end

end ether2ser.tx_queue
