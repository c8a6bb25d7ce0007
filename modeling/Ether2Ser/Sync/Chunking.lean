import Ether2Ser.Sync.Receiver
import Ether2Ser.Sync.Tracking.Poll

open Bits
open ether2ser.error ether2ser.hdlc_common ether2ser.hdlc_decoder ether2ser.hdlc

namespace ether2ser.hdlc_sync

/-- The raw bytes of the line, the last one padded with zeros. -/
def rawStream (ts : List (Transmission true)) (lastGap : Nat) : List UInt8 := packBits true (streamBits ts lastGap)

theorem streamBits_append_replicate {lsbFirst : Bool} (ts : List (Transmission lsbFirst)) (lastGap n : Nat) :
    streamBits ts lastGap ++ List.replicate n false = streamBits ts (lastGap + n) := by
  induction ts with
  | nil => simp [streamBits]
  | cons t ts ih => simp [streamBits, ih]

/-- Padding the last byte lengthens the last gap. -/
theorem bytesBits_rawStream (ts : List (Transmission true)) (lastGap : Nat) :
    bytesBits true (rawStream ts lastGap) = streamBits ts (lastGap + padLength (streamBits ts lastGap).length) := by
  rw [rawStream, bytesBits_packBits, streamBits_append_replicate]

/-- A receiver in step with the line. -/
def Receiver.Tracks (receiver : Receiver) (unread : List UInt8) (slack lead : Nat) (payloads : List (List UInt8)) :
    Prop :=
  hdlc_sync.Tracks (restCursor receiver.accumulator receiver.out_frame) unread slack lead payloads

theorem tracks_of_bits {ts : List (Transmission true)} {bytes : List UInt8} {lastGap : Nat}
    (hbits : bytesBits true bytes = streamBits ts lastGap)
    (hsize : ∀ t ∈ ts, t.frame.length ≤ HDLC_SYNC_MAX_REASONABLE_FRAME_SIZE_BYTES) (out_frame : HdlcFrame)
    (lead : Nat) :
    hdlc_sync.Tracks (restCursor (hdlc_sync_acc_init HDLC_FLAG_BYTE) out_frame) bytes 0 lead (ts.map (·.payload)) :=
  .hunts
    { hunting := rfl
      sync := rfl
      scan_zero := rfl
      line := ⟨8, by decide, hbits⟩
      position_le := Nat.zero_le _ } hsize

theorem tracks_start {ts : List (Transmission true)}
    (hsize : ∀ t ∈ ts, t.frame.length ≤ HDLC_SYNC_MAX_REASONABLE_FRAME_SIZE_BYTES) (out_frame : HdlcFrame)
    (lastGap lead : Nat) :
    hdlc_sync.Tracks (restCursor (hdlc_sync_acc_init HDLC_FLAG_BYTE) out_frame) (rawStream ts lastGap) 0 lead
      (ts.map (·.payload)) :=
  tracks_of_bits (bytesBits_rawStream ts lastGap) hsize out_frame lead

/-- Received bytes move from the line into the buffer. -/
theorem Tracks.append {accumulator : HdlcSyncAccumulator} {out_frame : HdlcFrame} {bytes unread : List UInt8}
    {slack lead : Nat} {payloads : List (List UInt8)}
    (h : Tracks (restCursor accumulator out_frame) (bytes ++ unread) slack lead payloads) :
    Tracks (restCursor { accumulator with buffer := accumulator.buffer ++ bytes } out_frame) unread
      (slack + bytes.length) lead payloads := by
  have hline : ({ accumulator with buffer := accumulator.buffer ++ bytes } : HdlcSyncAccumulator).lineBits unread =
      accumulator.lineBits (bytes ++ unread) := by
    simp only [HdlcSyncAccumulator.lineBits, List.append_assoc]
  have hposition : ({ accumulator with buffer := accumulator.buffer ++ bytes } : HdlcSyncAccumulator).position =
      accumulator.position + bytes.length := List.length_append
  cases h with
  | hunts hhunts hsize =>
    have hle : accumulator.position ≤ slack + 1 := hhunts.position_le
    exact .hunts
      { hhunts with
        line := by
          simp only [restCursor, hline]
          exact hhunts.line
        position_le := by
          simp only [restCursor, hposition]
          omega } hsize
  | follows hfollows hfits hsize =>
    have hscan : accumulator.processed ≤ accumulator.position := hfollows.scan_le
    have hlt : 8 * accumulator.position < 8 * (accumulator.processed + 1 + slack) + accumulator.bit_offset :=
      hfollows.position_lt
    exact .follows
      { hfollows with
        line := by
          simp only [restCursor, hline]
          exact hfollows.line
        scan_le := by
          simp only [restCursor, hposition]
          omega
        position_lt := by
          simp only [restCursor, hposition]
          omega } hfits hsize

/-- The decoder accepts the frame of a transmission. -/
theorem hdlc_decode_of_frame {t : Transmission true} {out_frame : HdlcFrame} {out_capacity : Nat}
    (hframe : out_frame.payload = t.frame.payload)
    (hfits : t.frame.length ≤ HDLC_SYNC_MAX_REASONABLE_FRAME_SIZE_BYTES) (hout : 2046 ≤ out_capacity) :
    hdlc_decode out_frame out_capacity true = .ok t.payload := by
  have hlong := length_add_four_le_encodedFrame true t.payload
  rw [t.length_frame, HDLC_SYNC_MAX_REASONABLE_FRAME_SIZE_BYTES] at hfits
  have hroom : t.payload.length + 2 ≤ out_capacity := by omega
  have hdecode := hdlc_decode_encodedFrame true t.payload out_frame.capacity hroom
  rwa [← t.payload_frame, ← hframe] at hdecode

/-- One turn of a receiver in step with the line: it decodes the next payload,
or it leaves for want of bytes. -/
theorem Receiver.Tracks.drainTurn {out_capacity : Nat} (hout : 2046 ≤ out_capacity) {receiver : Receiver}
    {unread : List UInt8} {slack lead : Nat} {payloads : List (List UInt8)} (hlead : slack ≤ lead)
    (h : receiver.Tracks unread slack lead payloads)
    (hcapacity : HDLC_SYNC_MAX_REASONABLE_FRAME_SIZE_BYTES ≤ receiver.out_frame.capacity)
    (hcap : receiver.accumulator.position < RX_HDLC_SYNC_MAX_BUFFER_SIZE - 16)
    (hagrees : receiver.accumulator.state = .HDLC_SYNC_STATE_HUNTING → ShortSearchAgrees receiver.accumulator) :
    (∃ last : Receiver, receiver.drainTurn out_capacity = .inr last ∧
        (last.Tracks unread 0 lead payloads ∧ last.out_frame.capacity = receiver.out_frame.capacity) ∧
        last.decoded = receiver.decoded) ∨
      ∃ (next : Receiver) (payload : List UInt8) (rest : List (List UInt8)),
        receiver.drainTurn out_capacity = .inl next ∧ payloads = payload :: rest ∧
        (next.Tracks unread slack lead rest ∧ next.out_frame.capacity = receiver.out_frame.capacity) ∧
        next.decoded = receiver.decoded ++ [.ok payload] := by
  obtain ⟨hpoll, hsame⟩ := Tracks.poll h hlead hcapacity hcap hagrees
  unfold Receiver.drainTurn
  cases hpoll with
  | waits hresult htracks =>
    left
    simp only [hresult, reduceCtorEq, if_false]
    exact ⟨_, rfl, ⟨htracks, hsame⟩, rfl⟩
  | ready t rest hresult hpayloads hfits hframe htracks =>
    right
    simp only [hresult, if_true, hdlc_decode_of_frame hframe hfits hout]
    exact ⟨_, t.payload, rest, rfl, hpayloads, ⟨htracks _, hsame⟩, rfl⟩

/-- Draining decodes the next payloads of the line, without any failure, and
leaves the receiver in step behind them. -/
theorem Receiver.Tracks.drain {out_capacity : Nat} (hout : 2046 ≤ out_capacity) {unread : List UInt8} {slack lead : Nat}
    (hlead : slack ≤ lead) (receiver : Receiver) {payloads : List (List UInt8)}
    (h : receiver.Tracks unread slack lead payloads)
    (hcapacity : HDLC_SYNC_MAX_REASONABLE_FRAME_SIZE_BYTES ≤ receiver.out_frame.capacity)
    (hturns : ∀ turn ∈ (drainLoop out_capacity).turns receiver, ∀ ps, turn.Tracks unread slack lead ps →
      turn.accumulator.position < RX_HDLC_SYNC_MAX_BUFFER_SIZE - 16 ∧
        (turn.accumulator.state = .HDLC_SYNC_STATE_HUNTING → ShortSearchAgrees turn.accumulator)) :
    ∃ taken rest, payloads = taken ++ rest ∧
      (((drainLoop out_capacity).run receiver).Tracks unread 0 lead rest ∧
        ((drainLoop out_capacity).run receiver).out_frame.capacity = receiver.out_frame.capacity) ∧
      ((drainLoop out_capacity).run receiver).decoded = receiver.decoded ++ taken.map .ok := by
  apply (drainLoop out_capacity).exists_emitted Except.ok
    (fun turn ps => turn.Tracks unread slack lead ps ∧ turn.out_frame.capacity = receiver.out_frame.capacity)
    (fun last ps => last.Tracks unread 0 lead ps ∧ last.out_frame.capacity = receiver.out_frame.capacity)
    (·.decoded) (·.decoded) receiver _ ⟨h, rfl⟩
  rintro turn hmem ps ⟨htracks, hsame⟩
  obtain ⟨hcap, hagrees⟩ := hturns turn hmem ps htracks
  rw [← hsame] at hcapacity ⊢
  exact htracks.drainTurn hout hlead hcapacity hcap hagrees

/-- A receiver in step holds at most the bytes in front of a candidate, the
candidate itself and what has been received since the last poll. -/
theorem Tracks.position_le {cursor : HdlcSyncCursor} {unread : List UInt8} {slack lead : Nat}
    {payloads : List (List UInt8)} (h : Tracks cursor unread slack lead payloads) :
    cursor.accumulator.position ≤ lead + HDLC_SYNC_MAX_REASONABLE_FRAME_SIZE_BYTES + slack := by
  simp only [HDLC_SYNC_MAX_REASONABLE_FRAME_SIZE_BYTES]
  cases h with
  | hunts hhunts hsize =>
    have hle := hhunts.position_le
    omega
  | follows hfollows hfits hsize =>
    have hlt := hfollows.position_lt
    have hoffset := hfollows.offset_lt
    have hunfinished := hfollows.unfinished
    have hstart := hfollows.start_le
    simp only [HDLC_SYNC_MAX_REASONABLE_FRAME_SIZE_BYTES] at hfits
    omega

theorem Tracks.position_le_of_hunting {cursor : HdlcSyncCursor} {unread : List UInt8} {slack lead : Nat}
    {payloads : List (List UInt8)} (h : Tracks cursor unread slack lead payloads)
    (hhunting : cursor.accumulator.state = .HDLC_SYNC_STATE_HUNTING) : cursor.accumulator.position ≤ slack + 1 := by
  cases h with
  | hunts hhunts hsize => exact hhunts.position_le
  | follows hfollows hfits hsize => exact absurd hhunting hfollows.locked

/-- At the end of the line no payload is left. -/
theorem Tracks.payloads_eq_nil {cursor : HdlcSyncCursor} {lead : Nat} {payloads : List (List UInt8)}
    (h : Tracks cursor [] 0 lead payloads) : payloads = [] := by
  cases h with
  | @hunts ts lastGap hhunts hsize =>
    obtain ⟨k, -, hline⟩ := hhunts.line
    have hposition := hhunts.position_le
    cases ts with
    | nil => rfl
    | cons t ts =>
      have hfour := t.four_le_length_frame
      have hlen := congrArg List.length hline
      simp only [lineBits_eq, bytesBits_nil, List.append_nil, length_rawBits, streamBits, List.length_append,
        length_bytesBits, List.length_replicate, HdlcFrame.length] at hlen hfour
      omega
  | @follows t ts lastGap hfollows hfits hsize =>
    have hlen := congrArg List.length hfollows.line
    have hlt := hfollows.position_lt
    have hunfinished := hfollows.unfinished
    have hstart := hfollows.start_lt
    simp only [lineBits_eq, bytesBits_nil, List.append_nil, List.length_drop, length_rawBits, List.length_append,
      length_bytesBits, HdlcFrame.length] at hlen hunfinished
    omega

/-- A stream received in chunks of bounded size is decoded completely. Only
hunting polls of so short a buffer need the two searches to agree. -/
theorem Receiver.Tracks.receiveAll {out_capacity size : Nat} (hout : 2046 ≤ out_capacity)
    (hsize : size ≤ HDLC_SYNC_MAX_REASONABLE_FRAME_SIZE_BYTES) {chunks : List (List UInt8)}
    (hchunks : ∀ chunk ∈ chunks, chunk.length ≤ size) (receiver : Receiver) {payloads : List (List UInt8)}
    (h : receiver.Tracks chunks.flatten 0 HDLC_SYNC_MAX_REASONABLE_FRAME_SIZE_BYTES payloads)
    (hcapacity : HDLC_SYNC_MAX_REASONABLE_FRAME_SIZE_BYTES ≤ receiver.out_frame.capacity)
    (hagrees : ∀ accumulator ∈ receiver.polls out_capacity chunks,
      accumulator.state = .HDLC_SYNC_STATE_HUNTING → accumulator.position ≤ size + 1 → ShortSearchAgrees accumulator) :
    (receiver.receiveAll out_capacity chunks).decoded = receiver.decoded ++ payloads.map .ok := by
  induction chunks generalizing receiver payloads with
  | nil =>
    rw [Tracks.payloads_eq_nil h]
    simp [Receiver.receiveAll]
  | cons chunk chunks ih =>
    have hchunk : chunk.length ≤ size := hchunks chunk (by simp)
    have hrest := h.position_le
    simp only [HDLC_SYNC_MAX_REASONABLE_FRAME_SIZE_BYTES, restCursor] at hrest hsize
    have hfed : (receiver.feed chunk).Tracks chunks.flatten chunk.length HDLC_SYNC_MAX_REASONABLE_FRAME_SIZE_BYTES
        payloads := by
      rw [Receiver.Tracks, Receiver.feed,
        process_bytes_of_le (by simp only [RX_HDLC_SYNC_MAX_BUFFER_SIZE]; omega), ← Nat.zero_add chunk.length]
      exact Tracks.append h
    obtain ⟨taken, rest, hpayloads, ⟨htracks, hkept⟩, hdecoded⟩ := hfed.drain hout
      (by simp only [HDLC_SYNC_MAX_REASONABLE_FRAME_SIZE_BYTES]; omega) (receiver.feed chunk) hcapacity
      (by
        intro turn hturn ps htracks
        have hle := htracks.position_le
        simp only [HDLC_SYNC_MAX_REASONABLE_FRAME_SIZE_BYTES, restCursor] at hle
        refine ⟨by simp only [RX_HDLC_SYNC_MAX_BUFFER_SIZE]; omega, fun hhunting => ?_⟩
        have hshort := htracks.position_le_of_hunting hhunting
        refine hagrees _ ?_ hhunting (Nat.le_trans hshort (by omega))
        exact List.mem_append_left _ (List.mem_map_of_mem hturn))
    have hbehind := ih (fun c hc => hchunks c (by simp [hc])) (receiver.receive out_capacity chunk) htracks
      (by rw [Receiver.receive, hkept]; exact hcapacity)
      (fun accumulator hmem => hagrees accumulator (List.mem_append_right _ hmem))
    calc (receiver.receiveAll out_capacity (chunk :: chunks)).decoded
        = (receiver.receive out_capacity chunk).decoded ++ rest.map Except.ok := hbehind
      _ = receiver.decoded ++ taken.map Except.ok ++ rest.map Except.ok := by
        rw [Receiver.receive, hdecoded]
        rfl
      _ = receiver.decoded ++ payloads.map Except.ok := by
        rw [hpayloads, List.map_append, List.append_assoc]

theorem shortSearchAgrees_of_position_lt {accumulator : HdlcSyncAccumulator}
    (hshort : accumulator.position < HDLC_SYNC_MIN_FRAME_SIZE_BYTES) : ShortSearchAgrees accumulator := by
  have hnone : hdlc_sync_find_complete_candidate_short accumulator accumulator.processed = none := if_pos (.inl hshort)
  rw [ShortSearchAgrees, hdlc_sync_find_opening, hnone]

/-- One byte per chunk. -/
def bytewise (stream : List UInt8) : List (List UInt8) := stream.map ([·])

theorem receiveAll_bytewise {ts : List (Transmission true)}
    (hsize : ∀ t ∈ ts, t.frame.length ≤ HDLC_SYNC_MAX_REASONABLE_FRAME_SIZE_BYTES) (lastGap : Nat)
    {capacity out_capacity : Nat} (hcapacity : HDLC_SYNC_MAX_REASONABLE_FRAME_SIZE_BYTES ≤ capacity)
    (hout : 2046 ≤ out_capacity) :
    ((Receiver.start capacity).receiveAll out_capacity (bytewise (rawStream ts lastGap))).decoded =
      ts.map fun t => .ok t.payload := by
  have hflatten : (bytewise (rawStream ts lastGap)).flatten = rawStream ts lastGap := by
    rw [bytewise, ← List.flatMap_def, List.flatMap_singleton']
  have hstart : (Receiver.start capacity).Tracks (bytewise (rawStream ts lastGap)).flatten 0
      HDLC_SYNC_MAX_REASONABLE_FRAME_SIZE_BYTES (ts.map (·.payload)) := by
    rw [hflatten]
    exact tracks_start hsize _ lastGap _
  have hdecoded := hstart.receiveAll hout (show 1 ≤ _ by decide) (by simp [bytewise]) (Receiver.start capacity)
    hcapacity
    (fun accumulator _ _ hshort =>
      shortSearchAgrees_of_position_lt (Nat.lt_of_le_of_lt hshort (by decide)))
  rw [hdecoded, List.map_map]
  rfl

/-- The serial receive path end to end: frames sent at any bit phase and read
back one raw byte at a time are all decoded, in order and without a failure. -/
theorem receive_path_end_to_end (ts : List (Transmission true)) (lastGap capacity out_capacity : Nat)
    (hsize : ∀ t ∈ ts, t.frame.length ≤ HDLC_SYNC_MAX_REASONABLE_FRAME_SIZE_BYTES)
    (hcapacity : HDLC_SYNC_MAX_REASONABLE_FRAME_SIZE_BYTES ≤ capacity) (hout : 2046 ≤ out_capacity) :
    let receiver := (Receiver.start capacity).receiveAll out_capacity (bytewise (rawStream ts lastGap))
    receiver.payloads = ts.map (·.payload) ∧ ∀ result ∈ receiver.decoded, result.isOk := by
  intro receiver
  have hdecoded : receiver.decoded = ts.map fun t => .ok t.payload := receiveAll_bytewise hsize lastGap hcapacity hout
  constructor
  · rw [Receiver.payloads, hdecoded, List.filterMap_map]
    exact congrFun List.filterMap_eq_map' ts
  · rw [hdecoded]
    intro result hmem
    obtain ⟨t, -, rfl⟩ := List.mem_map.mp hmem
    rfl

/-- Two frames that share no bit phase. -/
def twoPhases : List (Transmission true) :=
  [.send 3 [0x00, 0xFF] 16 (by decide +kernel), .send 6 [0x7E] 16 (by decide +kernel)]

theorem receive_path_end_to_end_two_phases :
    ((Receiver.start 2048).receiveAll 2046 (bytewise (rawStream twoPhases 1))).payloads = [[0x00, 0xFF], [0x7E]] :=
  (receive_path_end_to_end twoPhases 1 2048 2046 (by decide +kernel) (by decide) (by decide)).1

/-- Chunks of up to 2048 bytes are decoded like single bytes as long as, at
every hunting poll, the exhaustive search of short buffers does not pick an
opening other than the first flag. -/
theorem receive_chunks_eq_bytewise (ts : List (Transmission true)) (lastGap capacity out_capacity : Nat)
    (chunks : List (List UInt8)) (hsize : ∀ t ∈ ts, t.frame.length ≤ HDLC_SYNC_MAX_REASONABLE_FRAME_SIZE_BYTES)
    (hcapacity : HDLC_SYNC_MAX_REASONABLE_FRAME_SIZE_BYTES ≤ capacity) (hout : 2046 ≤ out_capacity)
    (hchunks : ∀ chunk ∈ chunks, chunk.length ≤ 2048) (hcut : chunks.flatten = rawStream ts lastGap)
    (hagrees : ∀ accumulator ∈ (Receiver.start capacity).polls out_capacity chunks,
      accumulator.state = .HDLC_SYNC_STATE_HUNTING → ShortSearchAgrees accumulator) :
    ((Receiver.start capacity).receiveAll out_capacity chunks).payloads =
      ((Receiver.start capacity).receiveAll out_capacity (bytewise (rawStream ts lastGap))).payloads := by
  have hstart : (Receiver.start capacity).Tracks chunks.flatten 0 HDLC_SYNC_MAX_REASONABLE_FRAME_SIZE_BYTES
      (ts.map (·.payload)) := by
    rw [hcut]
    exact tracks_start hsize _ lastGap _
  have hchunked := hstart.receiveAll hout (Nat.le_refl _) hchunks (Receiver.start capacity) hcapacity
    (fun accumulator hmem hhunting _ => hagrees accumulator hmem hhunting)
  have hbytewise := receiveAll_bytewise hsize lastGap hcapacity hout
  rw [Receiver.payloads, Receiver.payloads, hchunked, hbytewise, List.map_map]
  rfl

theorem receive_chunks_eq_bytewise_two_phases :
    ((Receiver.start 2048).receiveAll 2046 [(rawStream twoPhases 1).take 9, (rawStream twoPhases 1).drop 9]).payloads =
      ((Receiver.start 2048).receiveAll 2046 (bytewise (rawStream twoPhases 1))).payloads :=
  receive_chunks_eq_bytewise twoPhases 1 2048 2046 _ (by decide +kernel) (by decide) (by decide) (by decide +kernel)
    (by decide +kernel) (by decide +kernel)

/-- A short frame in front of a longer one. -/
def shortThenLong : List (Transmission true) :=
  [.send 0 [] 16 (by decide +kernel), .send 0 [1, 2, 3] 16 (by decide +kernel)]

/-- In one chunk the exhaustive search prefers the longer candidate and the
frame in front of it is lost. -/
theorem not_chunking_independent :
    ¬ ∀ (ts : List (Transmission true)) (lastGap capacity out_capacity : Nat) (chunks : List (List UInt8)),
      (∀ t ∈ ts, t.frame.length ≤ HDLC_SYNC_MAX_REASONABLE_FRAME_SIZE_BYTES) →
      HDLC_SYNC_MAX_REASONABLE_FRAME_SIZE_BYTES ≤ capacity → 2046 ≤ out_capacity →
      (∀ chunk ∈ chunks, chunk.length ≤ 2048) → chunks.flatten = rawStream ts lastGap →
      ((Receiver.start capacity).receiveAll out_capacity chunks).payloads =
        ((Receiver.start capacity).receiveAll out_capacity (bytewise (rawStream ts lastGap))).payloads := by
  intro h
  have hequal := h shortThenLong 0 2048 2046 [rawStream shortThenLong 0] (by decide +kernel) (by decide) (by decide)
    (by decide +kernel) (by decide +kernel)
  have hlost : ((Receiver.start 2048).receiveAll 2046 [rawStream shortThenLong 0]).payloads = [[1, 2, 3]] := by
    decide +kernel
  have hkept : ((Receiver.start 2048).receiveAll 2046 (bytewise (rawStream shortThenLong 0))).payloads =
      [[], [1, 2, 3]] := by decide +kernel
  rw [hlost, hkept] at hequal
  simp at hequal

end ether2ser.hdlc_sync
