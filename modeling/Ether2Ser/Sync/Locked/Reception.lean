import Ether2Ser.Sync.Locked

open ether2ser.error ether2ser.hdlc_common

namespace ether2ser.hdlc_sync

/-- The closing flag of a locked receiver's candidate: the first aligned sync
byte behind its first content byte, if `unread` is still to be received. -/
structure ClosesAt (accumulator : HdlcSyncAccumulator) (unread : List UInt8) (closing : Nat) : Prop where
  behind : accumulator.candidate_start + 2 ≤ closing
  closes : ({ accumulator with buffer := accumulator.buffer ++ unread } : HdlcSyncAccumulator).alignedAt closing =
    some accumulator.sync_byte
  first : ∀ i, accumulator.candidate_start + 2 ≤ i → i < closing →
    ({ accumulator with buffer := accumulator.buffer ++ unread } : HdlcSyncAccumulator).alignedAt i ≠
      some accumulator.sync_byte

/-- How a poll of a locked receiver ends, depending on whether the closing flag
has been received. -/
inductive LockedPoll (accumulator : HdlcSyncAccumulator) (capacity closing : Nat) (polled : HdlcSyncPolled) : Prop where
  | waits (hmissing : ¬accumulator.Received accumulator.bit_offset closing) (hresult : polled.result = .E2S_OK)
      (hsame : ∃ state processed syncing synced, polled.accumulator =
        { accumulator with
          state := state
          processed := processed
          lookahead_wait_syncing := syncing
          lookahead_wait_synced := synced })
      (hlocked : polled.accumulator.state ≠ .HDLC_SYNC_STATE_HUNTING)
      (hassembles : Assembles (restCursor polled.accumulator polled.out_frame))
      (hcapacity : polled.out_frame.capacity = capacity)
  | closes (hreceived : accumulator.Received accumulator.bit_offset closing)
      (hresult : polled.result = .E2S_ERR_HDLC_ACC_FRAME_READY)
      (haccumulator : polled.accumulator = { hdlc_sync_close_candidate accumulator closing with processed := 0 })
      (hpayload : polled.out_frame.payload.map some =
        (List.range' accumulator.candidate_start (closing - accumulator.candidate_start + 1)).map
          accumulator.alignedAt)

/-- What the turns of such a poll keep. -/
structure Carries (accumulator : HdlcSyncAccumulator) (capacity : Nat) (cursor : HdlcSyncCursor) : Prop where
  assembles : Assembles cursor
  locked : cursor.accumulator.state ≠ .HDLC_SYNC_STATE_HUNTING
  same : ∃ state, cursor.accumulator = { accumulator with state := state }
  capacity_eq : cursor.out_frame.capacity = capacity

section

variable {accumulator : HdlcSyncAccumulator} {unread : List UInt8} {capacity closing : Nat}

/-- The cursor does not pass the closing flag. -/
theorem Assembles.scan_le_closing {cursor : HdlcSyncCursor} (h : Assembles cursor)
    (hclose : ClosesAt cursor.accumulator unread closing) : cursor.scan_index ≤ closing := by
  have hbehind := hclose.behind
  by_contra hpassed
  have hreceived : cursor.accumulator.Received cursor.accumulator.bit_offset closing := h.received (by omega) (by omega)
  apply h.unclosed closing hbehind (by omega)
  rw [← alignedAt_append h.offset_lt hreceived unread]
  exact hclose.closes

theorem Carries.closesAt {cursor : HdlcSyncCursor} (h : Carries accumulator capacity cursor)
    (hclose : ClosesAt accumulator unread closing) : ClosesAt cursor.accumulator unread closing := by
  obtain ⟨state, hsame⟩ := h.same
  rw [hsame]
  exact ⟨hclose.behind, hclose.closes, hclose.first⟩

theorem Carries.candidate_start_eq {cursor : HdlcSyncCursor} (h : Carries accumulator capacity cursor) :
    cursor.accumulator.candidate_start = accumulator.candidate_start := by
  obtain ⟨state, hsame⟩ := h.same
  rw [hsame]

theorem Carries.received_iff {cursor : HdlcSyncCursor} (h : Carries accumulator capacity cursor) (i : Nat) :
    cursor.accumulator.Received cursor.accumulator.bit_offset i ↔ accumulator.Received accumulator.bit_offset i := by
  obtain ⟨state, hsame⟩ := h.same
  rw [hsame]
  exact Iff.rfl

theorem Carries.waits {cursor : HdlcSyncCursor} (h : Carries accumulator capacity cursor) (syncing synced : UInt32)
    (hscan : cursor.scan_index ≤ closing)
    (hmissing : ¬cursor.accumulator.Received cursor.accumulator.bit_offset cursor.scan_index) :
    LockedPoll accumulator capacity closing
      ⟨.E2S_OK,
        hdlc_sync_finalize_poll_no_frame
          { cursor.accumulator with lookahead_wait_syncing := syncing, lookahead_wait_synced := synced }
          cursor.scan_index,
        cursor.out_frame⟩ := by
  refine .waits ?_ rfl ?_ ?_ (h.assembles.finalize h.locked syncing synced) h.capacity_eq
  · intro hreceived
    exact hmissing ((h.received_iff _).mpr (hreceived.mono hscan))
  · obtain ⟨state, hsame⟩ := h.same
    refine ⟨state, cursor.scan_index, syncing, synced, ?_⟩
    refine (@hdlc_sync_finalize_poll_no_frame_locked
      { cursor.accumulator with lookahead_wait_syncing := syncing, lookahead_wait_synced := synced }
      cursor.scan_index h.locked).trans ?_
    rw [hsame]
  · rw [state_finalize_poll_no_frame]
    exact h.locked

/-- The aligned byte that closes a candidate is its closing flag. -/
theorem Carries.scan_eq_closing {cursor : HdlcSyncCursor} (h : Carries accumulator capacity cursor)
    (hclose : ClosesAt accumulator unread closing) (hsynced : cursor.accumulator.state = .HDLC_SYNC_STATE_SYNCED)
    (haligned : cursor.aligned = some cursor.accumulator.sync_byte) : cursor.scan_index = closing := by
  have hclose := h.closesAt hclose
  apply Nat.le_antisymm (h.assembles.scan_le_closing hclose)
  by_contra hbefore
  have hreceived : cursor.accumulator.Received cursor.accumulator.bit_offset cursor.scan_index :=
    (isSome_alignedAt_iff h.assembles.offset_lt _).mp (Option.isSome_of_mem haligned)
  apply hclose.first cursor.scan_index (h.assembles.synced hsynced) (by omega)
  rw [← haligned]
  exact alignedAt_append h.assembles.offset_lt hreceived unread

variable (hclose : ClosesAt accumulator unread closing)
  (hsize : closing - accumulator.candidate_start + 1 ≤ HDLC_SYNC_MAX_REASONABLE_FRAME_SIZE_BYTES)
include hclose hsize

theorem Carries.step {cursor next : HdlcSyncCursor} (h : Carries accumulator capacity cursor)
    (hturn : hdlc_sync_poll_turn cursor = .inl next) : Carries accumulator capacity next := by
  cases pollProgress_of_inl hturn with
  | lock opening hinside hhunting hfound => exact absurd hhunting h.locked
  | oversized hinside hlocked hlong =>
    have hlength := h.assembles.length_out_frame
    have hscan := h.assembles.scan_le_closing (h.closesAt hclose)
    have hstart := h.candidate_start_eq
    omega
  | store aligned hinside hlocked hshort hroom haligned hflag =>
    obtain ⟨state, hsame⟩ := h.same
    refine ⟨h.assembles.store hinside haligned hflag hlocked, ?_, ⟨.HDLC_SYNC_STATE_SYNCED, ?_⟩, h.capacity_eq⟩
    · intro hstate
      cases hstate
    · dsimp only
      rw [hsame]

theorem Carries.exit (hcapacity : closing - accumulator.candidate_start + 1 ≤ capacity) {cursor : HdlcSyncCursor}
    {polled : HdlcSyncPolled} (h : Carries accumulator capacity cursor)
    (hturn : hdlc_sync_poll_turn cursor = .inr polled) : LockedPoll accumulator capacity closing polled := by
  have hscan := h.assembles.scan_le_closing (h.closesAt hclose)
  have hstart := h.candidate_start_eq
  have hlength := h.assembles.length_out_frame
  cases pollExit_of_inr hturn with
  | exhausted hend =>
    refine h.waits _ _ hscan ?_
    rintro ⟨hinside, -⟩
    omega
  | miss hinside hhunting hnone => exact absurd hhunting h.locked
  | wait syncing synced hinside hlocked hshort hnone =>
    refine h.waits syncing synced hscan ?_
    rw [← isSome_alignedAt_iff h.assembles.offset_lt]
    exact Option.not_isSome_iff_eq_none.mpr hnone
  | overflow hinside hlocked hshort hfull =>
    have := h.capacity_eq
    omega
  | close hinside hsynced hshort hroom haligned =>
    obtain rfl := h.scan_eq_closing hclose hsynced haligned
    have hreceived : cursor.accumulator.Received cursor.accumulator.bit_offset cursor.scan_index :=
      (isSome_alignedAt_iff h.assembles.offset_lt _).mp (Option.isSome_of_mem haligned)
    have hstored := h.assembles.stored
    have hstep : cursor.accumulator.candidate_start +
        (cursor.scan_index - cursor.accumulator.candidate_start) = cursor.scan_index := by
      have := h.assembles.start_lt
      omega
    refine .closes ((h.received_iff _).mp hreceived) rfl ?_ ?_
    · obtain ⟨state, hsame⟩ := h.same
      dsimp only
      rw [hsame]
      rfl
    · obtain ⟨state, hsame⟩ := h.same
      rw [List.map_append, hstored, ← hstart, List.range'_1_concat, List.map_append, hstep]
      have hsame' : accumulator.alignedAt = cursor.accumulator.alignedAt := by
        rw [hsame]
        rfl
      rw [hsame']
      exact congrArg (_ ++ [·]) haligned.symm

theorem Carries.run (hcapacity : closing - accumulator.candidate_start + 1 ≤ capacity) {cursor : HdlcSyncCursor}
    (h : Carries accumulator capacity cursor) : LockedPoll accumulator capacity closing (pollLoop.run cursor) := by
  obtain ⟨last, hlast, hexit⟩ := pollLoop.exists_exit _ (fun _ _ => Carries.step hclose hsize) h
  exact hlast.exit hclose hsize hcapacity hexit

/-- A poll of a locked receiver reports the candidate exactly if its closing
flag has been received. -/
theorem Assembles.poll {out_frame : HdlcFrame} (h : Assembles (restCursor accumulator out_frame))
    (hlocked : accumulator.state ≠ .HDLC_SYNC_STATE_HUNTING)
    (hcapacity : closing - accumulator.candidate_start + 1 ≤ out_frame.capacity) :
    LockedPoll accumulator out_frame.capacity closing (hdlc_sync_acc_poll accumulator out_frame) := by
  have hcarries : Carries accumulator out_frame.capacity (restCursor accumulator out_frame) :=
    ⟨h, hlocked, ⟨accumulator.state, rfl⟩, rfl⟩
  have hbehind := hclose.behind
  unfold hdlc_sync_acc_poll
  split
  · omega
  · split
    · rename_i hempty
      have hstart := h.start_lt
      have hscan := h.scan_le
      simp only [restCursor] at hstart hscan
      omega
    · split
      · rename_i hshort
        refine .waits ?_ rfl ⟨_, _, _, _, rfl⟩ hlocked h rfl
        rintro ⟨hinside, -⟩
        omega
      · exact hcarries.run hclose hsize hcapacity

end

/-- A call while a candidate is being received. -/
inductive ReceiveCall where
  | process_byte (byte : UInt8)
  | poll
  deriving DecidableEq, Repr

def ReceiveCall.apply (s : ReceiveState) : ReceiveCall → ReceiveState
  | .process_byte byte => { s with accumulator := (hdlc_sync_acc_process_byte s.accumulator byte).2 }
  | .poll =>
    { accumulator := (hdlc_sync_acc_poll s.accumulator s.out_frame).accumulator
      out_frame := (hdlc_sync_acc_poll s.accumulator s.out_frame).out_frame
      awaiting := (hdlc_sync_acc_poll s.accumulator s.out_frame).result = .E2S_ERR_HDLC_ACC_FRAME_READY }

/-- Make calls one after the other, always with the same frame. -/
def ReceiveState.calls (s : ReceiveState) (calls : List ReceiveCall) : ReceiveState := calls.foldl ReceiveCall.apply s

/-- The raw bytes that calls append. -/
def rawBytes (calls : List ReceiveCall) : List UInt8 :=
  calls.filterMap fun
    | .process_byte byte => some byte
    | .poll => none

/-- No call is refused for want of room. -/
def Accepted : ReceiveState → List ReceiveCall → Prop
  | _, [] => True
  | s, .process_byte byte :: calls =>
    (hdlc_sync_acc_process_byte s.accumulator byte).1 = true ∧ Accepted (ReceiveCall.apply s (.process_byte byte)) calls
  | s, .poll :: calls => Accepted (ReceiveCall.apply s .poll) calls

/-- A locked receiver after calls that have appended raw bytes and reported no
candidate. -/
structure Continues (s : ReceiveState) (bytes : List UInt8) (t : ReceiveState) : Prop where
  same : ∃ state processed syncing synced, t.accumulator =
    { s.accumulator with
      buffer := s.accumulator.buffer ++ bytes
      state := state
      processed := processed
      lookahead_wait_syncing := syncing
      lookahead_wait_synced := synced }
  locked : t.accumulator.state ≠ .HDLC_SYNC_STATE_HUNTING
  assembles : Assembles (restCursor t.accumulator t.out_frame)
  capacity_eq : t.out_frame.capacity = s.out_frame.capacity

theorem Continues.refl {s : ReceiveState} (hlocked : s.accumulator.state ≠ .HDLC_SYNC_STATE_HUNTING)
    (h : Assembles (restCursor s.accumulator s.out_frame)) : Continues s [] s where
  same := ⟨_, _, _, _, by rw [List.append_nil]⟩
  locked := hlocked
  assembles := h
  capacity_eq := rfl

theorem Continues.trans {s t u : ReceiveState} {first second : List UInt8} (hfirst : Continues s first t)
    (hsecond : Continues t second u) : Continues s (first ++ second) u where
  same := by
    obtain ⟨state, processed, syncing, synced, ht⟩ := hfirst.same
    obtain ⟨state', processed', syncing', synced', hu⟩ := hsecond.same
    refine ⟨state', processed', syncing', synced', ?_⟩
    rw [hu, ht, ← List.append_assoc]
  locked := hsecond.locked
  assembles := hsecond.assembles
  capacity_eq := hsecond.capacity_eq.trans hfirst.capacity_eq

/-- The closing flag stays where it is. -/
theorem Continues.closesAt {s t : ReceiveState} {bytes unread : List UInt8} {closing : Nat} (h : Continues s bytes t)
    (hclose : ClosesAt s.accumulator (bytes ++ unread) closing) : ClosesAt t.accumulator unread closing := by
  obtain ⟨state, processed, syncing, synced, hsame⟩ := h.same
  obtain ⟨hbehind, hcloses, hfirst⟩ := hclose
  rw [← List.append_assoc] at hcloses hfirst
  rw [hsame]
  exact ⟨hbehind, hcloses, hfirst⟩

theorem Continues.candidate_start_eq {s t : ReceiveState} {bytes : List UInt8} (h : Continues s bytes t) :
    t.accumulator.candidate_start = s.accumulator.candidate_start := by
  obtain ⟨state, processed, syncing, synced, hsame⟩ := h.same
  rw [hsame]

theorem Continues.bit_offset_eq {s t : ReceiveState} {bytes : List UInt8} (h : Continues s bytes t) :
    t.accumulator.bit_offset = s.accumulator.bit_offset := by
  obtain ⟨state, processed, syncing, synced, hsame⟩ := h.same
  rw [hsame]

/-- What has been received of the aligned bytes is not changed later. -/
theorem Continues.alignedAt_eq {s t : ReceiveState} {bytes : List UInt8} (h : Continues s bytes t)
    (unread : List UInt8) {i : Nat} (hreceived : t.accumulator.Received t.accumulator.bit_offset i) :
    ({ s.accumulator with buffer := s.accumulator.buffer ++ (bytes ++ unread) } : HdlcSyncAccumulator).alignedAt i =
      t.accumulator.alignedAt i := by
  obtain ⟨state, processed, syncing, synced, hsame⟩ := h.same
  have hlater : ({ s.accumulator with buffer := s.accumulator.buffer ++ (bytes ++ unread) } :
        HdlcSyncAccumulator).alignedAt i =
      ({ t.accumulator with buffer := t.accumulator.buffer ++ unread } : HdlcSyncAccumulator).alignedAt i := by
    rw [hsame, ← List.append_assoc]
    rfl
  exact hlater.trans (alignedAt_append h.assembles.offset_lt hreceived unread)

section

variable {s : ReceiveState} (hlocked : s.accumulator.state ≠ .HDLC_SYNC_STATE_HUNTING)
  (h : Assembles (restCursor s.accumulator s.out_frame))
include hlocked h

theorem continues_process_byte {byte : UInt8} (haccepted : (hdlc_sync_acc_process_byte s.accumulator byte).1 = true) :
    Continues s [byte] (ReceiveCall.apply s (.process_byte byte)) := by
  have happended : (hdlc_sync_acc_process_byte s.accumulator byte).2 =
      { s.accumulator with buffer := s.accumulator.buffer ++ [byte] } := by
    unfold hdlc_sync_acc_process_byte at haccepted ⊢
    split at haccepted
    · cases haccepted
    · rename_i hroom
      rw [if_neg hroom]
  rw [ReceiveCall.apply, happended]
  exact ⟨⟨_, _, _, _, rfl⟩, hlocked, h.append [byte], rfl⟩

theorem continues_poll {unread : List UInt8} {closing : Nat} (hclose : ClosesAt s.accumulator unread closing)
    (hsize : closing - s.accumulator.candidate_start + 1 ≤ HDLC_SYNC_MAX_REASONABLE_FRAME_SIZE_BYTES)
    (hcapacity : closing - s.accumulator.candidate_start + 1 ≤ s.out_frame.capacity)
    (hmissing : ¬s.accumulator.Received s.accumulator.bit_offset closing) :
    Continues s [] (ReceiveCall.apply s .poll) := by
  cases h.poll hclose hsize hlocked hcapacity with
  | closes hreceived hresult haccumulator hpayload => exact absurd hreceived hmissing
  | waits hmissing hresult hsame hlocked hassembles hkept =>
    obtain ⟨state, processed, syncing, synced, hsame⟩ := hsame
    exact ⟨⟨state, processed, syncing, synced, by rw [List.append_nil]; exact hsame⟩, hlocked, hassembles, hkept⟩

/-- As long as no poll finds the closing flag received, the receiver only
appends raw bytes. -/
theorem continues_calls {calls : List ReceiveCall} {unread : List UInt8} {closing : Nat}
    (hclose : ClosesAt s.accumulator (rawBytes calls ++ unread) closing)
    (hsize : closing - s.accumulator.candidate_start + 1 ≤ HDLC_SYNC_MAX_REASONABLE_FRAME_SIZE_BYTES)
    (hcapacity : closing - s.accumulator.candidate_start + 1 ≤ s.out_frame.capacity) (haccepted : Accepted s calls)
    (hearly : ∀ earlier later, calls = earlier ++ .poll :: later →
      ¬(s.calls earlier).accumulator.Received s.accumulator.bit_offset closing) :
    Continues s (rawBytes calls) (s.calls calls) := by
  induction calls generalizing s with
  | nil => exact .refl hlocked h
  | cons call calls ih =>
    have hbytes : rawBytes (call :: calls) = rawBytes [call] ++ rawBytes calls :=
      @List.filterMap_append _ _ [call] calls _
    obtain ⟨hnext, hrest⟩ : Continues s (rawBytes [call]) (call.apply s) ∧ Accepted (call.apply s) calls := by
      cases call with
      | process_byte byte => exact ⟨continues_process_byte hlocked h haccepted.1, haccepted.2⟩
      | poll => exact ⟨continues_poll hlocked h hclose hsize hcapacity (hearly [] calls rfl), haccepted⟩
    rw [hbytes, List.append_assoc] at hclose
    rw [hbytes]
    refine hnext.trans (ih hnext.locked hnext.assembles (hnext.closesAt hclose) ?_ ?_ hrest ?_)
    · rw [hnext.candidate_start_eq]
      exact hsize
    · rw [hnext.candidate_start_eq, hnext.capacity_eq]
      exact hcapacity
    · rintro earlier later rfl
      rw [hnext.bit_offset_eq]
      exact hearly (call :: earlier) later rfl

end

/-- Locked reception. Whatever raw bytes follow and however they are polled, a
poll waits and keeps every raw byte until the closing flag has been received.
The next poll then reports the aligned bytes from the opening flag to the
closing one. -/
theorem locked_reception (sync_byte : UInt8) (out_frame : HdlcFrame) (s : ReceiveState)
    (hreach : Relation.ReflTransGen ReceiveStep (.start sync_byte out_frame) s)
    (hlocked : s.accumulator.state = .HDLC_SYNC_STATE_SYNCING ∨ s.accumulator.state = .HDLC_SYNC_STATE_SYNCED)
    (calls : List ReceiveCall) (unread : List UInt8) (closing : Nat)
    (hclose : ClosesAt s.accumulator (rawBytes calls ++ unread) closing)
    (hsize : closing - s.accumulator.candidate_start + 1 ≤ HDLC_SYNC_MAX_REASONABLE_FRAME_SIZE_BYTES)
    (hcapacity : closing - s.accumulator.candidate_start + 1 ≤ s.out_frame.capacity) (haccepted : Accepted s calls)
    (hearly : ∀ earlier later, calls = earlier ++ .poll :: later →
      ¬(s.calls earlier).accumulator.Received s.accumulator.bit_offset closing) :
    let stream : HdlcSyncAccumulator :=
      { s.accumulator with buffer := s.accumulator.buffer ++ (rawBytes calls ++ unread) }
    let t := s.calls calls
    let polled := hdlc_sync_acc_poll t.accumulator t.out_frame
    (¬t.accumulator.Received s.accumulator.bit_offset closing →
      polled.result = .E2S_OK ∧ polled.accumulator.buffer = s.accumulator.buffer ++ rawBytes calls) ∧
    (t.accumulator.Received s.accumulator.bit_offset closing →
      polled.result = .E2S_ERR_HDLC_ACC_FRAME_READY ∧
      polled.out_frame.payload.map some =
        (List.range' s.accumulator.candidate_start (closing - s.accumulator.candidate_start + 1)).map
          stream.alignedAt ∧
      polled.out_frame.length = closing - s.accumulator.candidate_start + 1 ∧
      polled.accumulator.candidate_start = s.accumulator.candidate_start ∧
      polled.accumulator.candidate_end = closing + 1) := by
  have hstate : s.accumulator.state ≠ .HDLC_SYNC_STATE_HUNTING := by
    obtain hstate | hstate := hlocked <;> rw [hstate] <;> exact fun h => by cases h
  have hassembles := (lockedInvariant_of_reachable hreach).assembles hstate
  have ht := continues_calls hstate hassembles hclose hsize hcapacity haccepted hearly
  have hpoll := ht.assembles.poll (ht.closesAt hclose) (by rw [ht.candidate_start_eq]; exact hsize) ht.locked
    (by rw [ht.candidate_start_eq, ht.capacity_eq]; exact hcapacity)
  obtain ⟨state, processed, syncing, synced, hsame⟩ := ht.same
  dsimp only
  cases hpoll with
  | waits hmissing hresult hkept hlocked hassembles hcapacity =>
    rw [ht.bit_offset_eq] at hmissing
    refine ⟨fun _ => ⟨hresult, ?_⟩, fun hreceived => absurd hreceived hmissing⟩
    obtain ⟨_, _, _, _, hkept⟩ := hkept
    rw [hkept, hsame]
  | closes hreceived hresult haccumulator hpayload =>
    refine ⟨fun hmissing => absurd (ht.bit_offset_eq ▸ hreceived) hmissing, fun _ => ⟨hresult, ?_, ?_, ?_, ?_⟩⟩
    · rw [hpayload, ht.candidate_start_eq]
      apply List.map_congr_left
      intro i hi
      rw [List.mem_range'_1] at hi
      have hbefore : i ≤ closing := by
        have hbehind := hclose.behind
        omega
      exact (ht.alignedAt_eq unread (hreceived.mono hbefore)).symm
    · have hlength := congrArg List.length hpayload
      rwa [List.length_map, List.length_map, List.length_range', ht.candidate_start_eq] at hlength
    · rw [haccumulator]
      exact ht.candidate_start_eq
    · rw [haccumulator]
      rfl

theorem locked_reception_after_flag :
    let t := afterFlag.calls [.poll, .process_byte 0x7E]
    (hdlc_sync_acc_poll t.accumulator t.out_frame).result = .E2S_ERR_HDLC_ACC_FRAME_READY ∧
      (hdlc_sync_acc_poll t.accumulator t.out_frame).out_frame.length = 4 := by
  have hreach : Relation.ReflTransGen ReceiveStep (.start HDLC_FLAG_BYTE (.empty 8)) afterFlag :=
    (((Relation.ReflTransGen.refl.tail (.process_byte _ 0x7E)).tail (.process_byte _ 0x01)).tail
      (.process_byte _ 0x02)).tail (.poll _ rfl)
  have hstart : afterFlag.accumulator.candidate_start = 0 := by decide +kernel
  have hclose : ClosesAt afterFlag.accumulator (rawBytes [.poll, .process_byte 0x7E] ++ []) 3 := by
    refine ⟨by decide +kernel, by decide +kernel, fun i hlow hhigh => ?_⟩
    rw [hstart] at hlow
    obtain rfl : i = 2 := by omega
    decide +kernel
  have hearly : ∀ earlier later, [ReceiveCall.poll, .process_byte 0x7E] = earlier ++ .poll :: later →
      ¬(afterFlag.calls earlier).accumulator.Received afterFlag.accumulator.bit_offset 3 := by
    intro earlier later hcalls
    cases earlier with
    | nil =>
      rintro ⟨hreceived, -⟩
      revert hreceived
      decide +kernel
    | cons call earlier =>
      obtain ⟨-, hrest⟩ := List.cons_eq_cons.mp hcalls
      have hmem : ReceiveCall.poll ∈ [ReceiveCall.process_byte 0x7E] := by
        rw [hrest]
        simp
      cases List.mem_singleton.mp hmem
  obtain ⟨-, hready⟩ := locked_reception HDLC_FLAG_BYTE (.empty 8) afterFlag hreach (.inr (by decide +kernel))
    [.poll, .process_byte 0x7E] [] 3 hclose (by decide +kernel) (by decide +kernel) ⟨by decide +kernel, trivial⟩ hearly
  obtain ⟨hresult, -, hlength, -⟩ := hready ⟨by decide +kernel, by decide +kernel⟩
  rw [hstart] at hlength
  exact ⟨hresult, hlength⟩

end ether2ser.hdlc_sync
