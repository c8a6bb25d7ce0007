import Ether2Ser.Hdlc.Decoder
import Ether2Ser.Sync.Consume

open ether2ser.error ether2ser.hdlc_common ether2ser.hdlc_decoder

namespace ether2ser.hdlc_sync

/-- The serial receive path: the accumulator, the caller's frame and the
results of `hdlc_decode` so far. -/
structure Receiver where
  accumulator : HdlcSyncAccumulator
  out_frame : HdlcFrame
  decoded : List (Except HdlcDecodeError (List UInt8))

def Receiver.start (capacity : Nat) : Receiver where
  accumulator := hdlc_sync_acc_init HDLC_FLAG_BYTE
  out_frame := .empty capacity
  decoded := []

/-- The payloads that have been decoded successfully. -/
def Receiver.payloads (receiver : Receiver) : List (List UInt8) := receiver.decoded.filterMap Except.toOption

/-- Append raw bytes to an accumulator one after the other. -/
def process_bytes (accumulator : HdlcSyncAccumulator) (bytes : List UInt8) : HdlcSyncAccumulator :=
  bytes.foldl (fun accumulator byte => (hdlc_sync_acc_process_byte accumulator byte).2) accumulator

/-- One turn of the drain loop: poll, and decode and consume a candidate. -/
def Receiver.drainTurn (out_capacity : Nat) (receiver : Receiver) : Receiver ⊕ Receiver :=
  let polled := hdlc_sync_acc_poll receiver.accumulator receiver.out_frame
  if polled.result = .E2S_ERR_HDLC_ACC_FRAME_READY then
    let payload := hdlc_decode polled.out_frame out_capacity true
    .inl
      { accumulator := hdlc_sync_acc_consume_candidate polled.accumulator payload.isOk
        out_frame := polled.out_frame
        decoded := receiver.decoded ++ [payload] }
  else .inr { receiver with accumulator := polled.accumulator, out_frame := polled.out_frame }

theorem Receiver.drainTurn_decreases {out_capacity : Nat} {receiver next : Receiver}
    (hturn : receiver.drainTurn out_capacity = .inl next) :
    next.accumulator.position < receiver.accumulator.position := by
  unfold Receiver.drainTurn at hturn
  simp only at hturn
  split at hturn
  · rename_i hready
    cases hturn
    exact position_consume_of_frame_ready hready _
  · cases hturn

/-- The drain loop, which ends once a poll reports no further frame. -/
def drainLoop (out_capacity : Nat) : Loop.Terminating Receiver Receiver where
  body := Receiver.drainTurn out_capacity
  variant := fun receiver => receiver.accumulator.position
  decreases := fun _ _ => Receiver.drainTurn_decreases

/-- Append a chunk of raw bytes. -/
def Receiver.feed (receiver : Receiver) (chunk : List UInt8) : Receiver :=
  { receiver with accumulator := process_bytes receiver.accumulator chunk }

/-- Append a chunk of raw bytes and drain the frames it completes. -/
def Receiver.receive (out_capacity : Nat) (receiver : Receiver) (chunk : List UInt8) : Receiver :=
  (drainLoop out_capacity).run (receiver.feed chunk)

/-- Receive a stream in chunks. -/
def Receiver.receiveAll (out_capacity : Nat) (receiver : Receiver) (chunks : List (List UInt8)) : Receiver :=
  chunks.foldl (Receiver.receive out_capacity) receiver

/-- The accumulators that `hdlc_sync_acc_poll` is called on while a stream is
received in chunks. -/
def Receiver.polls (out_capacity : Nat) (receiver : Receiver) : List (List UInt8) → List HdlcSyncAccumulator
  | [] => []
  | chunk :: chunks =>
    ((drainLoop out_capacity).turns (receiver.feed chunk)).map (·.accumulator) ++
      polls out_capacity (receiver.receive out_capacity chunk) chunks

/-- Bytes beyond the end of the buffer are refused. -/
theorem process_bytes_eq (accumulator : HdlcSyncAccumulator) (bytes : List UInt8) :
    process_bytes accumulator bytes =
      { accumulator with
        buffer := accumulator.buffer ++ bytes.take (RX_HDLC_SYNC_MAX_BUFFER_SIZE - accumulator.position) } := by
  induction bytes generalizing accumulator with
  | nil => simp [process_bytes]
  | cons byte bytes ih =>
    have hnext : process_bytes accumulator (byte :: bytes) =
        process_bytes (hdlc_sync_acc_process_byte accumulator byte).2 bytes := rfl
    rw [hnext, ih]
    unfold hdlc_sync_acc_process_byte
    split
    · rename_i hfull
      simp [Nat.sub_eq_zero_of_le hfull]
    · rename_i hroom
      obtain ⟨room, hroom⟩ : ∃ room, RX_HDLC_SYNC_MAX_BUFFER_SIZE - accumulator.position = room + 1 :=
        ⟨RX_HDLC_SYNC_MAX_BUFFER_SIZE - accumulator.position - 1, by omega⟩
      have hleft : RX_HDLC_SYNC_MAX_BUFFER_SIZE - (accumulator.buffer.length + 1) = room := by
        simp only [HdlcSyncAccumulator.position] at hroom
        omega
      simp only [HdlcSyncAccumulator.position] at hroom ⊢
      simp [hroom, hleft]

theorem process_bytes_of_le {accumulator : HdlcSyncAccumulator} {bytes : List UInt8}
    (hroom : accumulator.position + bytes.length ≤ RX_HDLC_SYNC_MAX_BUFFER_SIZE) :
    process_bytes accumulator bytes = { accumulator with buffer := accumulator.buffer ++ bytes } := by
  rw [process_bytes_eq, List.take_of_length_le (by omega)]

end ether2ser.hdlc_sync
