import Ether2Ser.Sync.Consume
import Ether2Ser.Sync.Search

open Bits
open ether2ser.error ether2ser.hdlc_common

namespace ether2ser.hdlc_sync

theorem FirstSync.unique {accumulator : HdlcSyncAccumulator} {scan_index : Nat} {opening other : HdlcSyncOpening}
    (h : FirstSync accumulator scan_index opening) (hother : FirstSync accumulator scan_index other) :
    opening = other := by
  have hle := h.le_start
  have hle' := hother.le_start
  have hbit := h.bit_pos_lt
  have hbit' := hother.bit_pos_lt
  have hsame : 8 * opening.start_index + opening.bit_pos = 8 * other.start_index + other.bit_pos := by
    apply Nat.le_antisymm
    · by_contra hlater
      exact h.first _ (by omega) (by omega) hother.occurs
    · by_contra hlater
      exact hother.first _ (by omega) (by omega) h.occurs
  have hstart : opening.start_index = other.start_index := by omega
  have hpos : opening.bit_pos = other.bit_pos := by omega
  have hright : opening.shift_right = other.shift_right := by rw [h.right, hother.right, hpos]
  obtain ⟨start_index, bit_pos, shift_right⟩ := opening
  obtain rfl := hstart
  obtain rfl := hpos
  obtain rfl := hright
  rfl

/-- The fast search answers with the first sync byte, and only with it. -/
theorem hdlc_sync_find_opening_candidate_eq_some_iff {accumulator : HdlcSyncAccumulator} {scan_index : Nat}
    {opening : HdlcSyncOpening} :
    hdlc_sync_find_opening_candidate accumulator scan_index false = some opening ↔
      FirstSync accumulator scan_index opening := by
  refine ⟨hdlc_sync_find_opening_candidate_some, fun h => ?_⟩
  cases hfind : hdlc_sync_find_opening_candidate accumulator scan_index false with
  | none =>
    have hle := h.le_start
    have hlt := h.start_lt
    have hbit := h.bit_pos_lt
    exact absurd h.occurs (hdlc_sync_find_opening_candidate_none hfind _ (by omega) (by omega))
  | some found => rw [(hdlc_sync_find_opening_candidate_some hfind).unique h]

theorem hdlc_sync_find_opening_candidate_eq_none_iff {accumulator : HdlcSyncAccumulator} {scan_index : Nat} :
    hdlc_sync_find_opening_candidate accumulator scan_index false = none ↔
      ∀ j, 8 * search_start scan_index ≤ j → j < 8 * (accumulator.position - 1) → ¬accumulator.SyncAt j := by
  refine ⟨hdlc_sync_find_opening_candidate_none, fun h => ?_⟩
  cases hfind : hdlc_sync_find_opening_candidate accumulator scan_index false with
  | none => rfl
  | some found =>
    have hfirst := hdlc_sync_find_opening_candidate_some hfind
    have hle := hfirst.le_start
    have hlt := hfirst.start_lt
    have hbit := hfirst.bit_pos_lt
    exact absurd hfirst.occurs (h _ (by omega) (by omega))

theorem hdlc_sync_find_opening_candidate_of_find_opening_none {accumulator : HdlcSyncAccumulator} {scan_index : Nat}
    (hnone : hdlc_sync_find_opening accumulator scan_index = none) :
    hdlc_sync_find_opening_candidate accumulator scan_index false = none := by
  unfold hdlc_sync_find_opening at hnone
  split at hnone
  · cases hnone
  · exact hnone

/-- A poll of a hunting receiver that ends without having locked on anything. -/
structure HuntingPoll (accumulator : HdlcSyncAccumulator) (out_frame : HdlcFrame) : Prop where
  hunting : accumulator.state = .HDLC_SYNC_STATE_HUNTING
  processed_zero : accumulator.processed = 0
  nonempty : accumulator.buffer ≠ []
  result : (hdlc_sync_acc_poll accumulator out_frame).result = .E2S_OK
  still_hunting : (hdlc_sync_acc_poll accumulator out_frame).accumulator.state = .HDLC_SYNC_STATE_HUNTING
  never_locked : ∀ cursor ∈ pollLoop.turns (restCursor accumulator out_frame),
    cursor.accumulator.state = .HDLC_SYNC_STATE_HUNTING

/-- Such a poll keeps the last raw byte and has searched the others. A frame
without capacity makes a poll do nothing. -/
theorem HuntingPoll.accumulator_eq {accumulator : HdlcSyncAccumulator} {out_frame : HdlcFrame}
    (h : HuntingPoll accumulator out_frame) :
    (out_frame.capacity = 0 ∧ (hdlc_sync_acc_poll accumulator out_frame).accumulator = accumulator) ∨
      hdlc_sync_find_opening_candidate accumulator 0 false = none ∧
        (hdlc_sync_acc_poll accumulator out_frame).accumulator =
          { accumulator with buffer := accumulator.buffer.drop (accumulator.position - 1) } := by
  have hposition : accumulator.position ≠ 0 := fun hzero => h.nonempty (List.length_eq_zero_iff.mp hzero)
  by_cases hcapacity : out_frame.capacity = 0
  · exact .inl ⟨hcapacity, by rw [hdlc_sync_acc_poll, if_pos hcapacity]⟩
  · right
    rw [hdlc_sync_acc_poll_hunting hcapacity hposition h.hunting]
    cases hturn : pollLoop.body (restCursor accumulator out_frame) with
    | inl next =>
      have hnext : next.accumulator.state = .HDLC_SYNC_STATE_HUNTING := by
        apply h.never_locked
        rw [Loop.Terminating.turns_of_inl hturn]
        exact List.mem_cons_of_mem _ (Loop.Terminating.mem_turns_self _ _)
      cases pollProgress_of_inl hturn with
      | lock opening hinside hhunting hfound => cases hnext
      | oversized hinside hlocked hlong => exact absurd h.hunting hlocked
      | store aligned hinside hlocked hshort hroom haligned hflag => exact absurd h.hunting hlocked
    | inr polled =>
      rw [Loop.Terminating.run_of_inr hturn]
      cases pollExit_of_inr hturn with
      | exhausted hend =>
        have hzero := h.processed_zero
        simp only [restCursor] at hend
        omega
      | wait syncing synced hinside hlocked hshort hnone => exact absurd h.hunting hlocked
      | overflow hinside hlocked hshort hfull => exact absurd h.hunting hlocked
      | close hinside hsynced hshort hroom haligned =>
        rw [restCursor, h.hunting] at hsynced
        cases hsynced
      | miss hinside hhunting hnone =>
        have hzero := h.processed_zero
        simp only [restCursor, hzero] at hnone ⊢
        refine ⟨hdlc_sync_find_opening_candidate_of_find_opening_none hnone, ?_⟩
        rw [hdlc_sync_finalize_poll_no_frame_hunting h.hunting, ← hzero]

/-- No sync byte that the buffered bits show starts in a byte that such a poll
discards. -/
theorem HuntingPoll.not_syncAt {accumulator : HdlcSyncAccumulator} {out_frame : HdlcFrame}
    (h : HuntingPoll accumulator out_frame) :
    ∃ discarded, (hdlc_sync_acc_poll accumulator out_frame).accumulator.buffer = accumulator.buffer.drop discarded ∧
      discarded + 1 ≤ accumulator.position ∧ (0 < out_frame.capacity → discarded + 1 = accumulator.position) ∧
      ∀ j < 8 * discarded, ¬accumulator.SyncAt j := by
  have hposition : accumulator.position ≠ 0 := fun hzero => h.nonempty (List.length_eq_zero_iff.mp hzero)
  obtain ⟨hcapacity, hkept⟩ | ⟨hnone, hkept⟩ := h.accumulator_eq
  · refine ⟨0, ?_, by omega, fun _ => by omega, fun j hj => by omega⟩
    rw [hkept]
    rfl
  · refine ⟨accumulator.position - 1, ?_, by omega, fun _ => by omega, fun j hj => ?_⟩
    · rw [hkept]
    · exact hdlc_sync_find_opening_candidate_none hnone j (Nat.zero_le _) hj

/-- Reception without a lock: raw bytes are appended and polls find nothing.
`stream` holds all raw bytes so far and `discarded` counts those no longer
buffered. -/
inductive HuntingRun (start : HdlcSyncAccumulator) : List UInt8 → Nat → HdlcSyncAccumulator → Prop where
  | start : HuntingRun start start.buffer 0 start
  | process_byte {stream : List UInt8} {discarded : Nat} {accumulator : HdlcSyncAccumulator}
      (h : HuntingRun start stream discarded accumulator) (byte : UInt8)
      (haccepted : (hdlc_sync_acc_process_byte accumulator byte).1 = true) :
      HuntingRun start (stream ++ [byte]) discarded (hdlc_sync_acc_process_byte accumulator byte).2
  | poll {stream : List UInt8} {discarded : Nat} {accumulator : HdlcSyncAccumulator}
      (h : HuntingRun start stream discarded accumulator) (out_frame : HdlcFrame)
      (hpoll : HuntingPoll accumulator out_frame) :
      HuntingRun start stream
        (discarded + (accumulator.position - (hdlc_sync_acc_poll accumulator out_frame).accumulator.position))
        (hdlc_sync_acc_poll accumulator out_frame).accumulator

/-- What such a run keeps: the buffered bytes end the stream, and nothing in
front of them begins a sync byte, whatever is received later. -/
structure NothingMissed (sync_byte : UInt8) (stream : List UInt8) (discarded : Nat)
    (accumulator : HdlcSyncAccumulator) : Prop where
  sync : accumulator.sync_byte = sync_byte
  le_length : discarded ≤ stream.length
  buffered : accumulator.buffer = stream.drop discarded
  not_sync : ∀ unread : List UInt8, ∀ j < 8 * discarded,
    ¬OccursAt (byteBits true sync_byte) j (bytesBits true (stream ++ unread))

theorem NothingMissed.process_byte {sync_byte byte : UInt8} {stream : List UInt8} {discarded : Nat}
    {accumulator : HdlcSyncAccumulator} (h : NothingMissed sync_byte stream discarded accumulator)
    (haccepted : (hdlc_sync_acc_process_byte accumulator byte).1 = true) :
    NothingMissed sync_byte (stream ++ [byte]) discarded (hdlc_sync_acc_process_byte accumulator byte).2 := by
  have hle := h.le_length
  unfold hdlc_sync_acc_process_byte at haccepted ⊢
  split at haccepted
  · cases haccepted
  · rename_i hroom
    rw [if_neg hroom]
    refine ⟨h.sync, by rw [List.length_append]; omega, ?_, ?_⟩
    · dsimp only
      rw [List.drop_append_of_le_length hle, h.buffered]
    · intro unread j hj
      rw [List.append_assoc]
      exact h.not_sync _ j hj

/-- A sync byte that starts in a discarded byte lies inside the bytes buffered
at the poll that discards it. -/
theorem NothingMissed.poll {sync_byte : UInt8} {stream : List UInt8} {discarded : Nat}
    {accumulator : HdlcSyncAccumulator} (h : NothingMissed sync_byte stream discarded accumulator)
    {out_frame : HdlcFrame} (hpoll : HuntingPoll accumulator out_frame) :
    NothingMissed sync_byte stream
      (discarded + (accumulator.position - (hdlc_sync_acc_poll accumulator out_frame).accumulator.position))
      (hdlc_sync_acc_poll accumulator out_frame).accumulator := by
  obtain ⟨dropped, hbuffer, hdropped, -, hmiss⟩ := hpoll.not_syncAt
  have hle := h.le_length
  have hposition : accumulator.position = stream.length - discarded := by
    rw [HdlcSyncAccumulator.position, h.buffered, List.length_drop]
  have hcount : accumulator.position - (hdlc_sync_acc_poll accumulator out_frame).accumulator.position = dropped := by
    have hleft : (hdlc_sync_acc_poll accumulator out_frame).accumulator.position = accumulator.position - dropped := by
      rw [HdlcSyncAccumulator.position, hbuffer, List.length_drop]
      rfl
    omega
  rw [hcount]
  refine ⟨?_, by omega, ?_, ?_⟩
  · obtain ⟨-, hkept⟩ | ⟨-, hkept⟩ := hpoll.accumulator_eq
    · rw [hkept]
      exact h.sync
    · rw [hkept]
      exact h.sync
  · rw [hbuffer, h.buffered, List.drop_drop]
  · intro unread j hj hoccurs
    by_cases hearlier : j < 8 * discarded
    · exact h.not_sync unread j hearlier hoccurs
    · apply hmiss (j - 8 * discarded) (by omega)
      have hdrop := drop_bytesBits true (stream ++ unread) discarded
      rw [List.drop_append_of_le_length hle, ← h.buffered, bytesBits_append true accumulator.buffer] at hdrop
      have hinside : OccursAt (byteBits true sync_byte) (j - 8 * discarded)
          (accumulator.rawBits ++ bytesBits true unread) := by
        rw [HdlcSyncAccumulator.rawBits, ← hdrop, OccursAt, List.drop_drop,
          show 8 * discarded + (j - 8 * discarded) = j by omega]
        exact hoccurs
      rw [HdlcSyncAccumulator.SyncAt, h.sync]
      exact hinside.of_append (by rw [length_byteBits, length_rawBits]; omega)

theorem HuntingRun.nothingMissed {start accumulator : HdlcSyncAccumulator} {stream : List UInt8} {discarded : Nat}
    (h : HuntingRun start stream discarded accumulator) :
    NothingMissed start.sync_byte stream discarded accumulator := by
  induction h with
  | start => exact ⟨rfl, Nat.zero_le _, rfl, fun unread j hj => absurd hj (Nat.not_lt_zero j)⟩
  | process_byte h byte haccepted ih => exact ih.process_byte haccepted
  | poll h out_frame hpoll ih => exact ih.poll hpoll

/-- Hunting finds the earliest sync byte and never throws one away. The search
answers with the first one behind its start. A poll that ends without a lock
keeps exactly the last raw byte, and no sync byte inside the buffered bits
starts in a byte it discards; over a run of such polls, none of the whole
stream does. -/
theorem hunting_misses_no_sync :
    (∀ (accumulator : HdlcSyncAccumulator) (scan_index : Nat),
      (∀ opening, hdlc_sync_find_opening_candidate accumulator scan_index false = some opening ↔
        FirstSync accumulator scan_index opening) ∧
      (hdlc_sync_find_opening_candidate accumulator scan_index false = none ↔
        ∀ j, 8 * search_start scan_index ≤ j → j < 8 * (accumulator.position - 1) → ¬accumulator.SyncAt j)) ∧
    (∀ (accumulator : HdlcSyncAccumulator) (out_frame : HdlcFrame), HuntingPoll accumulator out_frame →
      ∃ discarded, (hdlc_sync_acc_poll accumulator out_frame).accumulator.buffer = accumulator.buffer.drop discarded ∧
        discarded + 1 ≤ accumulator.position ∧ (0 < out_frame.capacity → discarded + 1 = accumulator.position) ∧
        ∀ j < 8 * discarded, ¬accumulator.SyncAt j) ∧
    (∀ (start : HdlcSyncAccumulator) (stream : List UInt8) (discarded : Nat) (accumulator : HdlcSyncAccumulator),
      HuntingRun start stream discarded accumulator →
      accumulator.buffer = stream.drop discarded ∧
        ∀ unread : List UInt8, ∀ j < 8 * discarded,
          ¬OccursAt (byteBits true start.sync_byte) j (bytesBits true (stream ++ unread))) := by
  refine ⟨fun accumulator scan_index => ⟨fun opening => ?_, ?_⟩, fun accumulator out_frame h => ?_,
    fun start stream discarded accumulator h => ?_⟩
  · exact hdlc_sync_find_opening_candidate_eq_some_iff
  · exact hdlc_sync_find_opening_candidate_eq_none_iff
  · exact h.not_syncAt
  · exact ⟨h.nothingMissed.buffered, h.nothingMissed.not_sync⟩

/-- A poll that is handed a frame without capacity leaves both of two raw bytes
buffered. -/
theorem hunting_keeps_bytes_without_capacity :
    ∃ accumulator, HuntingRun (hdlc_sync_acc_init HDLC_FLAG_BYTE) [0x00, 0x00] 0 accumulator ∧
      HuntingPoll accumulator (.empty 0) ∧
      (hdlc_sync_acc_poll accumulator (.empty 0)).accumulator.buffer = [0x00, 0x00] := by
  refine ⟨_, .process_byte (.process_byte .start 0x00 rfl) 0x00 rfl, ?_, rfl⟩
  exact
    { hunting := rfl
      processed_zero := rfl
      nonempty := List.cons_ne_nil _ _
      result := rfl
      still_hunting := rfl
      never_locked := by decide +kernel }

end ether2ser.hdlc_sync
