import Ether2Ser.Drivers.PioTxRx
import Ether2Ser.Hdlc.Encoder
import Ether2Ser.System.Error
import Ether2Ser.System.Ringbuffer

open ether2ser.error ether2ser.hdlc_common ether2ser.hdlc_encoder ether2ser.pio_tx_rx_driver ether2ser.ringbuffer

namespace ether2ser.tx_queue

def TX_FRAME_QUEUE_SIZE : Nat := 64
def TX_FRAME_MAX_SIZE_BYTE : Nat := 2048

/-- `TX_QUEUE_ENTRY_T`. The frame descriptor carries the bytes of the entry's
own buffer. -/
structure TxQueueEntry where
  frame : HdlcFrame
  offset : Nat
  deriving DecidableEq, Repr

/-- The all-zero entry. -/
def TxQueueEntry.zero : TxQueueEntry := { frame := .empty 0, offset := 0 }

/-- `TX_QUEUE_T`, whose ring buffer has one cell for an entry. -/
structure TxQueue where
  current_entry : TxQueueEntry
  queue_buffer : Ringbuffer TxQueueEntry
  queue_touched : Bool
  tx_wire_bytes : UInt64
  current_frame_cts_seq_start : UInt32
  current_frame_cts_seq_valid : Bool

/-- `tx_queue_init` on a zeroed queue. -/
def tx_queue_init : TxQueue where
  current_entry := .zero
  queue_buffer := RbInit .zero TX_FRAME_QUEUE_SIZE 1
  queue_touched := false
  tx_wire_bytes := 0
  current_frame_cts_seq_start := 0
  current_frame_cts_seq_valid := false

def QUEUE_FILLING_UP_THRESHOLD : Nat := 5

/-- The queue after its statistics were printed. -/
def poll_queue_stats (queue : TxQueue) : TxQueue :=
  let queue_filling_up := queue.queue_buffer.capacity - queue.queue_buffer.count < QUEUE_FILLING_UP_THRESHOLD
  if queue.queue_touched ∨ queue_filling_up then { queue with queue_touched := false }
  else queue

def tx_queue_get_count (queue : TxQueue) : Nat := queue.queue_buffer.count

def tx_queue_is_empty (queue : TxQueue) : Bool :=
  queue.queue_buffer.count = 0 ∧ queue.current_entry.offset ≥ queue.current_entry.frame.length

variable {σ : Type}

/-- The loop of `tx_queue_drain_bytes`: hand bytes to the driver up to its
first refusal, and count them. -/
def putBytes (hw : TxHardware σ) : List UInt8 → TxDriver σ → Nat × TxDriver σ
  | [], driver => (0, driver)
  | byte :: bytes, driver =>
    match tx_put hw byte (driver.elapse hw) with
    | (true, driver) =>
      let (bytes_drained, driver) := putBytes hw bytes driver
      (bytes_drained + 1, driver)
    | (false, driver) => (0, driver)

def tx_queue_drain_bytes (hw : TxHardware σ) (queue : TxQueue) (bytes_to_drain : Nat) (driver : TxDriver σ) :
    Nat × TxQueue × TxDriver σ :=
  let entry := queue.current_entry
  let remaining := entry.frame.length - entry.offset
  let effective_bytes_to_drain := if bytes_to_drain ≥ remaining then remaining else bytes_to_drain
  let (bytes_drained, driver) :=
    putBytes hw ((entry.frame.payload.drop entry.offset).take effective_bytes_to_drain) driver
  (bytes_drained,
    { queue with
      current_entry := { entry with offset := entry.offset + bytes_drained }
      tx_wire_bytes := queue.tx_wire_bytes + UInt64.ofNat bytes_drained },
    driver)

/-- The part of `tx_queue_drain` that sends from the current entry. -/
def tx_queue_drain_current (hw : TxHardware σ) (queue : TxQueue) (bytes_to_drain : Nat) (driver : TxDriver σ) :
    Nat × TxQueue × TxDriver σ :=
  let offset_before_drain := queue.current_entry.offset
  let (bytes_drained, queue, driver) := tx_queue_drain_bytes hw queue bytes_to_drain driver
  let (queue, driver) :=
    if !queue.current_frame_cts_seq_valid ∧ offset_before_drain = 0 ∧ bytes_drained > 0 then
      let driver := driver.elapse hw
      ({ queue with
          current_frame_cts_seq_start := tx_clock_get_cts_toggle_seq driver
          current_frame_cts_seq_valid := true },
        driver)
    else (queue, driver)
  if queue.current_entry.offset ≥ queue.current_entry.frame.length then
    (bytes_drained, { queue with current_frame_cts_seq_valid := false }, driver)
  else (bytes_drained, queue, driver)

/-- The entry popped from the ring buffer becomes the current one, with its
descriptor over its own buffer again. -/
def TxQueue.load (queue : TxQueue) (item : List TxQueueEntry) (queue_buffer : Ringbuffer TxQueueEntry) : TxQueue :=
  let entry := item.headD queue.current_entry
  { queue with
    current_entry := { entry with frame := { entry.frame with capacity := TX_FRAME_MAX_SIZE_BYTE } }
    queue_buffer
    current_frame_cts_seq_valid := false }

/-- A CTS edge was counted since the first bytes of the frame in transmission. -/
def frameInterrupted (queue : TxQueue) (cts_seq : UInt32) : Bool :=
  let frame_mid_send := 0 < queue.current_entry.offset ∧ queue.current_entry.offset < queue.current_entry.frame.length
  frame_mid_send ∧ queue.current_frame_cts_seq_valid ∧ cts_seq ≠ queue.current_frame_cts_seq_start

/-- `tx_queue_drain`, which returns `E2S_OK` for every queue. -/
def tx_queue_drain (hw : TxHardware σ) (queue : TxQueue) (bytes_to_drain : Nat) (driver : TxDriver σ) :
    Nat × TxQueue × TxDriver σ :=
  let driver := driver.elapse hw
  if frameInterrupted queue (tx_clock_get_cts_toggle_seq driver) then
    (0,
      { queue with
        current_entry := { queue.current_entry with offset := 0 }
        current_frame_cts_seq_valid := false },
      tx_clock_hard_reset hw (driver.elapse hw))
  else if queue.current_entry.offset ≥ queue.current_entry.frame.length then
    match RbPopFront queue.queue_buffer with
    | none => (0, { queue with current_frame_cts_seq_valid := false }, driver)
    | some (item, queue_buffer) => tx_queue_drain_current hw (queue.load item queue_buffer) bytes_to_drain driver
  else tx_queue_drain_current hw queue bytes_to_drain driver

/-- Encode a datagram and append it to the queue. -/
def tx_queue_enqueue_udp_frame (queue : TxQueue) (payload : List UInt8) : E2sError × TxQueue :=
  if queue.queue_buffer.count = queue.queue_buffer.capacity then (.E2S_ERR_TX_QUEUE_FULL, queue)
  else
    match hdlc_encode payload (.empty TX_FRAME_MAX_SIZE_BYTE) true with
    | (false, _) => (.E2S_ERR_HDLC_ENCODE_FAILED, queue)
    | (true, frame) =>
      match RbPushBack queue.queue_buffer [{ frame, offset := 0 }] with
      | none => (.E2S_ERR_TX_QUEUE_NOT_INITIALIZED, queue)
      | some queue_buffer => (.E2S_OK, { queue with queue_buffer, queue_touched := true })

end ether2ser.tx_queue
