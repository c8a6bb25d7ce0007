import Ether2Ser.Drivers.TxQueue
import Ether2Ser.Hdlc.RoundTrip

open ether2ser.error ether2ser.hdlc ether2ser.hdlc_common ether2ser.hdlc_encoder ether2ser.pio_tx_rx_driver
open ether2ser.ringbuffer

namespace ether2ser.tx_queue

variable {σ : Type} {hw : TxHardware σ}

/-- Whatever holds before the first byte, is kept by every accepted byte and by
the refusal that ends the loop, holds after it. -/
theorem putBytes_induction {invariant : Nat → TxDriver σ → Prop} {bytes : List UInt8} {driver : TxDriver σ}
    (hinit : invariant 0 driver)
    (hput : ∀ sent before after byte, bytes[sent]? = some byte → invariant sent before →
      tx_put hw byte (before.elapse hw) = (true, after) → invariant (sent + 1) after)
    (hrefuse : ∀ sent before after byte, invariant sent before →
      tx_put hw byte (before.elapse hw) = (false, after) → invariant sent after) :
    (putBytes hw bytes driver).1 ≤ bytes.length ∧
      invariant (putBytes hw bytes driver).1 (putBytes hw bytes driver).2 := by
  induction bytes generalizing driver invariant with
  | nil => exact ⟨Nat.le_refl _, hinit⟩
  | cons byte bytes ih =>
    unfold putBytes
    split
    · rename_i after haccept
      obtain ⟨hle, hlast⟩ := @ih (fun sent => invariant (sent + 1)) after
        (hput 0 driver after byte rfl hinit haccept)
        (fun sent before after byte hbyte => hput (sent + 1) before after byte hbyte)
        (fun sent => hrefuse (sent + 1))
      exact ⟨Nat.succ_le_succ hle, hlast⟩
    · rename_i after hstop
      exact ⟨Nat.zero_le _, hrefuse 0 driver after byte hinit hstop⟩

/-- The entry of a frame that waits in the ring buffer. -/
def entryOf (frame : List UInt8) : TxQueueEntry :=
  { frame := { payload := frame, capacity := TX_FRAME_MAX_SIZE_BYTE }, offset := 0 }

/-- The frames in the ring buffer, and the bookkeeping of the current entry: the
CTS baseline is valid exactly while its frame is partly sent. -/
structure Keeps (queue : TxQueue) (waiting : List (List UInt8)) : Prop where
  ring : Holds queue.queue_buffer (waiting.map fun frame => [entryOf frame])
  capacity_eq : queue.queue_buffer.capacity = TX_FRAME_QUEUE_SIZE
  size_eq : queue.queue_buffer.itemSizeInByte = 1
  nonempty : ∀ frame ∈ waiting, 0 < frame.length
  offset_le : queue.current_entry.offset ≤ queue.current_entry.frame.length
  valid_iff : queue.current_frame_cts_seq_valid = true ↔
    0 < queue.current_entry.offset ∧ queue.current_entry.offset < queue.current_entry.frame.length

theorem keeps_tx_queue_init : Keeps tx_queue_init [] where
  ring := holds_RbInit _ (by decide) (by decide)
  capacity_eq := rfl
  size_eq := rfl
  nonempty := by simp
  offset_le := Nat.le_refl _
  valid_iff := by simp [tx_queue_init, TxQueueEntry.zero]

theorem Keeps.count_eq {queue : TxQueue} {waiting : List (List UInt8)} (h : Keeps queue waiting) :
    queue.queue_buffer.count = waiting.length := by
  rw [h.ring.count_eq, List.length_map]

theorem Keeps.is_empty_iff {queue : TxQueue} {waiting : List (List UInt8)} (h : Keeps queue waiting) :
    tx_queue_is_empty queue = true ↔
      waiting = [] ∧ queue.current_entry.frame.length ≤ queue.current_entry.offset := by
  simp [tx_queue_is_empty, h.count_eq]

theorem Keeps.poll_queue_stats {queue : TxQueue} {waiting : List (List UInt8)} (h : Keeps queue waiting) :
    Keeps (poll_queue_stats queue) waiting := by
  unfold tx_queue.poll_queue_stats
  simp only
  split
  · exact { h with }
  · exact h

/-- The outcomes of an enqueue: the frame of the payload joins the queue, or
nothing changes. -/
theorem Keeps.enqueue {queue : TxQueue} {waiting : List (List UInt8)} (h : Keeps queue waiting) (payload : List UInt8) :
    (∃ queue', tx_queue_enqueue_udp_frame queue payload = (.E2S_OK, queue') ∧
        hdlc_encode payload (.empty TX_FRAME_MAX_SIZE_BYTE) true = (true, (entryOf (encodedFrame true payload)).frame) ∧
        Keeps queue' (waiting ++ [encodedFrame true payload]) ∧ queue'.current_entry = queue.current_entry ∧
        queue'.tx_wire_bytes = queue.tx_wire_bytes ∧
        queue'.current_frame_cts_seq_start = queue.current_frame_cts_seq_start) ∨
      ∃ error, error ≠ .E2S_OK ∧ tx_queue_enqueue_udp_frame queue payload = (error, queue) ∧
        (waiting.length < TX_FRAME_QUEUE_SIZE →
          TX_FRAME_MAX_SIZE_BYTE < (encodedFrame true payload).length) := by
  unfold tx_queue_enqueue_udp_frame
  have hle := h.ring.count_le
  rw [List.length_map, h.capacity_eq] at hle
  rw [h.count_eq, h.capacity_eq, hdlc_encode_eq]
  by_cases hfull : waiting.length = TX_FRAME_QUEUE_SIZE
  · rw [if_pos hfull]
    exact .inr ⟨_, by simp, rfl, by omega⟩
  · rw [if_neg hfull]
    by_cases hfits : (encodedFrame true payload).length ≤ TX_FRAME_MAX_SIZE_BYTE
    · rw [if_pos hfits]
      have hroom : (waiting.map fun frame => [entryOf frame]).length < queue.queue_buffer.capacity := by
        rw [List.length_map, h.capacity_eq]
        omega
      have hone : [entryOf (encodedFrame true payload)].length = queue.queue_buffer.itemSizeInByte := h.size_eq.symm
      obtain ⟨buffer, hpush, hholds, hcapacity, hsize⟩ := h.ring.push hone hroom
      have hframe := length_add_four_le_encodedFrame true payload
      simp only [entryOf] at hpush
      simp only [hpush]
      refine .inl ⟨_, rfl, rfl, ?_, rfl, rfl, rfl⟩
      exact
        { h with
          ring := by simpa using hholds
          capacity_eq := hcapacity.trans h.capacity_eq
          size_eq := hsize.trans h.size_eq
          nonempty := by
            intro frame hmem
            rcases List.mem_append.mp hmem with hmem | hmem
            · exact h.nonempty frame hmem
            · rw [List.mem_singleton.mp hmem]
              omega }
    · rw [if_neg hfits]
      exact .inr ⟨_, by simp, rfl, fun _ => by omega⟩

/-- The first bytes of a frame are followed by a look at the CTS counter. -/
def afterFirst (hw : TxHardware σ) (entry : TxQueueEntry) (sent : Nat) (driver : TxDriver σ) : TxDriver σ :=
  if entry.offset = 0 ∧ 0 < sent then driver.elapse hw else driver

/-- The baseline after a number of bytes was handed over. -/
def baseline (queue : TxQueue) (sent : Nat) (driver : TxDriver σ) : UInt32 :=
  if queue.current_entry.offset = 0 ∧ 0 < sent then tx_clock_get_cts_toggle_seq driver
  else queue.current_frame_cts_seq_start

/-- The queue after a number of bytes of its current frame was handed over. -/
def TxQueue.advance (queue : TxQueue) (sent : Nat) (cts_seq_start : UInt32) : TxQueue :=
  let offset := queue.current_entry.offset + sent
  { queue with
    current_entry := { queue.current_entry with offset }
    tx_wire_bytes := queue.tx_wire_bytes + UInt64.ofNat sent
    current_frame_cts_seq_start := cts_seq_start
    current_frame_cts_seq_valid := 0 < offset ∧ offset < queue.current_entry.frame.length }

/-- The queue that sends its current frame again from the start. -/
def TxQueue.rewind (queue : TxQueue) : TxQueue :=
  { queue with
    current_entry := { queue.current_entry with offset := 0 }
    current_frame_cts_seq_valid := false }

/-- A queue that serves the next frame of its ring buffer, if it has nothing
left to send of the current one. -/
inductive Serves (queue : TxQueue) (waiting : List (List UInt8)) : TxQueue → List (List UInt8) → Prop where
  | current (hlt : queue.current_entry.offset < queue.current_entry.frame.length) : Serves queue waiting queue waiting
  | next {frame : List UInt8} {rest : List (List UInt8)} {item : List TxQueueEntry} {buffer : Ringbuffer TxQueueEntry}
    (hdone : queue.current_entry.frame.length ≤ queue.current_entry.offset) (hwaiting : waiting = frame :: rest)
    (hentry : (queue.load item buffer).current_entry = entryOf frame) :
    Serves queue waiting (queue.load item buffer) rest

/-- Everything a drain can do: restart the frame in transmission, find nothing
to send, or hand over bytes of one frame. -/
inductive DrainStep (hw : TxHardware σ) (queue : TxQueue) (waiting : List (List UInt8)) (bytes_to_drain : Nat)
    (driver : TxDriver σ) : Nat × TxQueue × TxDriver σ → List (List UInt8) → Prop where
  | restart (hinterrupted : frameInterrupted queue (tx_clock_get_cts_toggle_seq (driver.elapse hw))) :
    DrainStep hw queue waiting bytes_to_drain driver
      (0, queue.rewind, tx_clock_hard_reset hw ((driver.elapse hw).elapse hw)) waiting
  | idle (hdone : queue.current_entry.frame.length ≤ queue.current_entry.offset) (hwaiting : waiting = []) :
    DrainStep hw queue waiting bytes_to_drain driver
      (0, { queue with current_frame_cts_seq_valid := false }, driver.elapse hw) waiting
  | send {served : TxQueue} {rest : List (List UInt8)} {sent : Nat} {driver' : TxDriver σ}
    (hserves : Serves queue waiting served rest)
    (hlt : served.current_entry.offset < served.current_entry.frame.length)
    (hputs : putBytes hw ((served.current_entry.frame.payload.drop served.current_entry.offset).take bytes_to_drain)
      (driver.elapse hw) = (sent, driver')) :
    DrainStep hw queue waiting bytes_to_drain driver
      (sent, served.advance sent (baseline served sent (afterFirst hw served.current_entry sent driver')),
        afterFirst hw served.current_entry sent driver') rest

/-- The bytes a drain attempts, whichever bound is smaller. -/
theorem take_effective (entry : TxQueueEntry) (bytes_to_drain : Nat) :
    (entry.frame.payload.drop entry.offset).take
        (if bytes_to_drain ≥ entry.frame.length - entry.offset then entry.frame.length - entry.offset
          else bytes_to_drain) =
      (entry.frame.payload.drop entry.offset).take bytes_to_drain := by
  split
  · rename_i hall
    have hlength : (entry.frame.payload.drop entry.offset).length = entry.frame.length - entry.offset :=
      List.length_drop
    rw [List.take_of_length_le (by omega), List.take_of_length_le (by omega)]
  · rfl

theorem putBytes_le (hw : TxHardware σ) (bytes : List UInt8) (driver : TxDriver σ) :
    (putBytes hw bytes driver).1 ≤ bytes.length :=
  (@putBytes_induction σ hw (fun _ _ => True) bytes driver trivial (fun _ _ _ _ _ _ _ => trivial)
    (fun _ _ _ _ _ _ => trivial)).1

/-- The loop never hands over more bytes than the frame has left. -/
theorem offset_add_le_of_putBytes {entry : TxQueueEntry} {bytes_to_drain sent : Nat} {driver driver' : TxDriver σ}
    (hlt : entry.offset < entry.frame.length)
    (hputs : putBytes hw ((entry.frame.payload.drop entry.offset).take bytes_to_drain) driver = (sent, driver')) :
    entry.offset + sent ≤ entry.frame.length := by
  have hle := putBytes_le hw ((entry.frame.payload.drop entry.offset).take bytes_to_drain) driver
  rw [hputs, List.length_take, List.length_drop] at hle
  simp only [HdlcFrame.length] at hlt ⊢
  omega

/-- The bytes the loop handed over, counted from the start of its list. -/
theorem take_sent_of_putBytes {bytes : List UInt8} {bytes_to_drain sent : Nat} {driver driver' : TxDriver σ}
    (hputs : putBytes hw (bytes.take bytes_to_drain) driver = (sent, driver')) :
    (bytes.take bytes_to_drain).take sent = bytes.take sent := by
  have hle := putBytes_le hw (bytes.take bytes_to_drain) driver
  rw [hputs, List.length_take] at hle
  rw [List.take_take, Nat.min_eq_left]
  simp only at hle
  omega

/-- Sending from the current entry, for a queue whose baseline is valid exactly
when the entry is partly sent. -/
theorem Keeps.drain_current_eq {queue : TxQueue} {waiting : List (List UInt8)} {bytes_to_drain sent : Nat}
    {driver driver' : TxDriver σ} (h : Keeps queue waiting)
    (hlt : queue.current_entry.offset < queue.current_entry.frame.length)
    (hputs : putBytes hw ((queue.current_entry.frame.payload.drop queue.current_entry.offset).take bytes_to_drain)
      driver = (sent, driver')) :
    tx_queue_drain_current hw queue bytes_to_drain driver =
      (sent, queue.advance sent (baseline queue sent (afterFirst hw queue.current_entry sent driver')),
        afterFirst hw queue.current_entry sent driver') := by
  have hvalid := h.valid_iff
  simp only [tx_queue_drain_current, tx_queue_drain_bytes, take_effective, hputs, afterFirst, baseline, TxQueue.advance]
  by_cases hfirst : queue.current_entry.offset = 0 ∧ 0 < sent
  · have hunset : queue.current_frame_cts_seq_valid = false := by
      rw [← Bool.not_eq_true, hvalid]
      omega
    have hcapture : (!queue.current_frame_cts_seq_valid) = true ∧ queue.current_entry.offset = 0 ∧ sent > 0 :=
      ⟨by rw [hunset]; rfl, hfirst⟩
    rw [if_pos hcapture, if_pos hfirst, if_pos hfirst]
    simp only
    split
    · simp only [Prod.mk.injEq, TxQueue.mk.injEq, true_and, and_true, Bool.false_eq, decide_eq_false_iff_not]
      omega
    · simp only [Prod.mk.injEq, TxQueue.mk.injEq, true_and, and_true, Bool.true_eq, decide_eq_true_eq]
      omega
  · have hkeep : ¬((!queue.current_frame_cts_seq_valid) = true ∧ queue.current_entry.offset = 0 ∧ sent > 0) := by tauto
    rw [if_neg hkeep, if_neg hfirst, if_neg hfirst]
    simp only
    split
    · simp only [Prod.mk.injEq, TxQueue.mk.injEq, true_and, and_true, Bool.false_eq, decide_eq_false_iff_not]
      omega
    · simp only [Prod.mk.injEq, TxQueue.mk.injEq, true_and, and_true]
      rw [Bool.eq_iff_iff, hvalid, decide_eq_true_eq]
      omega

theorem Keeps.advance {queue : TxQueue} {waiting : List (List UInt8)} {sent : Nat} (h : Keeps queue waiting)
    (hsent : queue.current_entry.offset + sent ≤ queue.current_entry.frame.length) (cts_seq_start : UInt32) :
    Keeps (queue.advance sent cts_seq_start) waiting :=
  { h with
    offset_le := hsent
    valid_iff := by simp [TxQueue.advance] }

theorem Keeps.rewind {queue : TxQueue} {waiting : List (List UInt8)} (h : Keeps queue waiting) :
    Keeps queue.rewind waiting :=
  { h with
    offset_le := Nat.zero_le _
    valid_iff := by simp [TxQueue.rewind] }

theorem Keeps.load {queue : TxQueue} {frame : List UInt8} {rest : List (List UInt8)}
    (h : Keeps queue (frame :: rest)) :
    ∃ item buffer, RbPopFront queue.queue_buffer = some (item, buffer) ∧ Keeps (queue.load item buffer) rest ∧
      (queue.load item buffer).current_entry = entryOf frame := by
  obtain ⟨buffer, hpop, hholds, hcapacity, hsize⟩ := h.ring.pop
  refine ⟨_, buffer, hpop, ?_, rfl⟩
  exact
    { ring := hholds
      capacity_eq := hcapacity.trans h.capacity_eq
      size_eq := hsize.trans h.size_eq
      nonempty := fun other hmem => h.nonempty other (List.mem_cons_of_mem _ hmem)
      offset_le := Nat.zero_le _
      valid_iff := by simp [TxQueue.load, entryOf] }

/-- A drain is one of the three steps, and the books stay in order. -/
theorem Keeps.drain {queue : TxQueue} {waiting : List (List UInt8)} (h : Keeps queue waiting) (bytes_to_drain : Nat)
    (driver : TxDriver σ) :
    ∃ rest, DrainStep hw queue waiting bytes_to_drain driver (tx_queue_drain hw queue bytes_to_drain driver) rest ∧
      Keeps (tx_queue_drain hw queue bytes_to_drain driver).2.1 rest := by
  unfold tx_queue_drain
  simp only
  split
  · rename_i hinterrupted
    exact ⟨waiting, .restart hinterrupted, h.rewind⟩
  · split
    · rename_i hdone
      cases waiting with
      | nil =>
        rw [h.ring.pop_empty]
        exact ⟨[], .idle hdone rfl, { h with valid_iff := by simp; omega }⟩
      | cons frame rest =>
        obtain ⟨item, buffer, hpop, hkeeps, hentry⟩ := h.load
        have hframe : (queue.load item buffer).current_entry.offset <
            (queue.load item buffer).current_entry.frame.length := by
          rw [hentry]
          exact h.nonempty frame List.mem_cons_self
        rw [hpop]
        simp only
        rw [hkeeps.drain_current_eq hframe rfl]
        exact ⟨rest, .send (.next hdone rfl hentry) hframe rfl, hkeeps.advance (offset_add_le_of_putBytes hframe rfl) _⟩
    · rename_i hlt
      rw [Nat.not_le] at hlt
      rw [h.drain_current_eq hlt rfl]
      exact ⟨waiting, .send (.current hlt) hlt rfl, h.advance (offset_add_le_of_putBytes hlt rfl) _⟩

end ether2ser.tx_queue
