import Ether2Ser.Sync.Chunking
import Ether2Ser.System.EventLoop
import Ether2Ser.Words.Select

open Bits Words
open ether2ser.error ether2ser.hdlc ether2ser.hdlc_common ether2ser.hdlc_decoder ether2ser.hdlc_sync
open ether2ser.pio_tx_rx_driver

namespace ether2ser.event_loop

variable {σ : Type}

/-- A batch of received bytes, and the frames it completes. -/
def receiveBatch (state : LoopState σ) (batch : List UInt8) : LoopState σ :=
  drain_hdlc_frames_to_udp (drain_rx_until_empty state batch)

def receiveBatches (state : LoopState σ) (batches : List (List UInt8)) : LoopState σ :=
  batches.foldl receiveBatch state

/-- Every byte of a batch with the state that it meets. -/
def byteSteps (state : LoopState σ) : List UInt8 → List (LoopState σ × UInt8)
  | [] => []
  | rx_byte :: rx => (state, rx_byte) :: byteSteps (receiveByte state rx_byte) rx

def runSteps (state : LoopState σ) : List (List UInt8) → List (LoopState σ × UInt8)
  | [] => []
  | batch :: batches => byteSteps state batch ++ runSteps (receiveBatch state batch) batches

/-- The accumulators that `hdlc_sync_acc_poll` is called on. -/
def polledAccumulators (state : LoopState σ) : List (List UInt8) → List HdlcSyncAccumulator
  | [] => []
  | batch :: batches =>
    (framesLoop.turns (drain_rx_until_empty state batch)).map (·.app.accumulator) ++
      polledAccumulators (receiveBatch state batch) batches

/-- The idle filter lets the byte through. -/
def kept (step : LoopState σ × UInt8) : Bool :=
  !(event_loop_should_drop_hunt_idle_byte step.1.app step.2 step.1.runtime.hunt_idle_run_length).1

/-- What the idle filter leaves of a batch. -/
def keptBatch (state : LoopState σ) (batch : List UInt8) : List UInt8 :=
  select ((byteSteps state batch).map kept) batch

def keptBatches (state : LoopState σ) : List (List UInt8) → List (List UInt8)
  | [] => []
  | batch :: batches => keptBatch state batch :: keptBatches (receiveBatch state batch) batches

theorem length_byteSteps (state : LoopState σ) (rx : List UInt8) : (byteSteps state rx).length = rx.length := by
  induction rx generalizing state with
  | nil => rfl
  | cons rx_byte rx ih => exact congrArg (· + 1) (ih _)

theorem length_runSteps (state : LoopState σ) (batches : List (List UInt8)) :
    (runSteps state batches).length = batches.flatten.length := by
  induction batches generalizing state with
  | nil => rfl
  | cons batch batches ih =>
    rw [runSteps, List.length_append, length_byteSteps, ih, List.flatten_cons, List.length_append]

theorem flatten_keptBatches (state : LoopState σ) (batches : List (List UInt8)) :
    (keptBatches state batches).flatten = select ((runSteps state batches).map kept) batches.flatten := by
  induction batches generalizing state with
  | nil => rfl
  | cons batch batches ih =>
    rw [keptBatches, runSteps, List.flatten_cons, List.flatten_cons, List.map_append,
      select_append (by rw [List.length_map, length_byteSteps]), ih]
    rfl

/-- Where nothing is dropped the batches reach the accumulator as they are. -/
theorem keptBatches_of_all {state : LoopState σ} {batches : List (List UInt8)}
    (hall : ∀ step ∈ runSteps state batches, kept step = true) : keptBatches state batches = batches := by
  induction batches generalizing state with
  | nil => rfl
  | cons batch batches ih =>
    rw [runSteps] at hall
    have hbatch : keptBatch state batch = batch := by
      apply select_of_all
      · rw [List.length_map, length_byteSteps]
      · intro mark hmem
        obtain ⟨step, hstep, rfl⟩ := List.mem_map.mp hmem
        exact hall step (List.mem_append_left _ hstep)
    rw [keptBatches, hbatch, ih fun step hstep => hall step (List.mem_append_right _ hstep)]

/-- What one received byte does: the filter drops it, or the accumulator gets
it. -/
theorem receiveByte_eq (state : LoopState σ) (rx_byte : UInt8) :
    (receiveByte state rx_byte).app.accumulator =
        (if kept (state, rx_byte) then (hdlc_sync_acc_process_byte state.app.accumulator rx_byte).2
        else state.app.accumulator) ∧
      (receiveByte state rx_byte).app.v24_config = state.app.v24_config ∧
      (receiveByte state rx_byte).app.reconstructed_frame = state.app.reconstructed_frame ∧
      (receiveByte state rx_byte).app.udp_tx = state.app.udp_tx ∧
      (receiveByte state rx_byte).runtime.hdlc_decode_fail_streak = state.runtime.hdlc_decode_fail_streak := by
  unfold receiveByte kept
  simp only
  split
  · rename_i hdrop
    rw [hdrop]
    exact ⟨rfl, rfl, rfl, rfl, rfl⟩
  · rename_i hkeep
    rw [Bool.not_eq_true] at hkeep
    rw [hkeep]
    cases hprocess : hdlc_sync_acc_process_byte state.app.accumulator rx_byte with
    | mk accepted accumulator => cases accepted <;> exact ⟨rfl, rfl, rfl, rfl, rfl⟩

/-- The kept bytes of a batch reach the accumulator, and nothing else of the
receive path changes. -/
theorem drain_rx_until_empty_eq (state : LoopState σ) (rx : List UInt8) :
    (drain_rx_until_empty state rx).app.accumulator = process_bytes state.app.accumulator (keptBatch state rx) ∧
      (drain_rx_until_empty state rx).app.v24_config = state.app.v24_config ∧
      (drain_rx_until_empty state rx).app.reconstructed_frame = state.app.reconstructed_frame ∧
      (drain_rx_until_empty state rx).app.udp_tx = state.app.udp_tx ∧
      (drain_rx_until_empty state rx).runtime.hdlc_decode_fail_streak = state.runtime.hdlc_decode_fail_streak := by
  induction rx generalizing state with
  | nil => exact ⟨rfl, rfl, rfl, rfl, rfl⟩
  | cons rx_byte rx ih =>
    obtain ⟨haccumulator, hconfig, hframe, hudp, hstreak⟩ := receiveByte_eq state rx_byte
    obtain ⟨ihaccumulator, ihconfig, ihframe, ihudp, ihstreak⟩ := ih (receiveByte state rx_byte)
    refine ⟨?_, ihconfig.trans hconfig, ihframe.trans hframe, ihudp.trans hudp, ihstreak.trans hstreak⟩
    change (drain_rx_until_empty (receiveByte state rx_byte) rx).app.accumulator = _
    rw [ihaccumulator, haccumulator, keptBatch, keptBatch, byteSteps, List.map_cons]
    cases kept (state, rx_byte) <;> rfl

/-- What decoding a candidate leaves alone. -/
theorem decode_hdlc_to_udp_tx_keeps (state : LoopState σ) :
    (decode_hdlc_to_udp_tx state).app.v24_config = state.app.v24_config ∧
      (decode_hdlc_to_udp_tx state).runtime.hunt_idle_run_length = state.runtime.hunt_idle_run_length := by
  unfold decode_hdlc_to_udp_tx
  simp only
  split
  · exact ⟨rfl, rfl⟩
  · unfold rejectDecoded
    simp only
    split <;> exact ⟨rfl, rfl⟩

theorem drain_hdlc_frames_to_udp_keeps (state : LoopState σ) :
    (drain_hdlc_frames_to_udp state).app.v24_config = state.app.v24_config ∧
      (drain_hdlc_frames_to_udp state).runtime.hunt_idle_run_length = state.runtime.hunt_idle_run_length := by
  obtain ⟨last, ⟨hconfig, hrun⟩, hexit⟩ := framesLoop.exists_exit
    (fun turn : LoopState σ => turn.app.v24_config = state.app.v24_config ∧
      turn.runtime.hunt_idle_run_length = state.runtime.hunt_idle_run_length)
    (by
      intro turn next hturn hbody
      change drainTurn turn = .inl next at hbody
      unfold drainTurn at hbody
      simp only at hbody
      split at hbody
      · cases hbody
        obtain ⟨hconfig, hrun⟩ := @decode_hdlc_to_udp_tx_keeps σ _
        exact ⟨hconfig.trans hturn.1, hrun.trans hturn.2⟩
      · split at hbody <;> cases hbody)
    ⟨rfl, rfl⟩
  change drainTurn last = .inr (drain_hdlc_frames_to_udp state) at hexit
  unfold drainTurn at hexit
  simp only at hexit
  split at hexit
  · cases hexit
  · split at hexit <;> injection hexit with hexit <;> rw [← hexit] <;> exact ⟨hconfig, hrun⟩

/-- The receive path of two runs is in the same state. -/
structure SameReceive (first second : LoopState σ) : Prop where
  accumulator : first.app.accumulator = second.app.accumulator
  reconstructed_frame : first.app.reconstructed_frame = second.app.reconstructed_frame
  udp_tx : first.app.udp_tx = second.app.udp_tx
  hdlc_decode_fail_streak : first.runtime.hdlc_decode_fail_streak = second.runtime.hdlc_decode_fail_streak

theorem SameReceive.decode_hdlc_to_udp_tx {first second : LoopState σ} (h : SameReceive first second) :
    SameReceive (decode_hdlc_to_udp_tx first) (decode_hdlc_to_udp_tx second) := by
  unfold event_loop.decode_hdlc_to_udp_tx
  simp only [h.reconstructed_frame]
  split
  · exact ⟨by simp only [acceptDecoded, h.accumulator], rfl, by simp only [acceptDecoded, h.udp_tx], rfl⟩
  · unfold rejectDecoded
    simp only [h.hdlc_decode_fail_streak, h.accumulator]
    split
    · exact ⟨rfl, rfl, h.udp_tx, rfl⟩
    · exact ⟨rfl, rfl, h.udp_tx, rfl⟩

theorem SameReceive.drain_hdlc_frames_to_udp {first second : LoopState σ} (h : SameReceive first second) :
    SameReceive (drain_hdlc_frames_to_udp first) (drain_hdlc_frames_to_udp second) := by
  refine Loop.Terminating.run_related ?_ h
  intro first second h
  change Sum.LiftRel SameReceive SameReceive (drainTurn first) (drainTurn second)
  unfold drainTurn
  simp only [h.accumulator, h.reconstructed_frame]
  split
  · apply Sum.LiftRel.inl
    exact SameReceive.decode_hdlc_to_udp_tx ⟨rfl, rfl, h.udp_tx, h.hdlc_decode_fail_streak⟩
  · split
    · exact .inr ⟨rfl, rfl, h.udp_tx, h.hdlc_decode_fail_streak⟩
    · exact .inr ⟨rfl, rfl, h.udp_tx, h.hdlc_decode_fail_streak⟩

/-- Two runs stay together as long as their filters keep the same bytes. -/
theorem SameReceive.receiveBatches {first second : LoopState σ} (h : SameReceive first second)
    {batches : List (List UInt8)} (hkept : keptBatches first batches = keptBatches second batches) :
    SameReceive (receiveBatches first batches) (receiveBatches second batches) := by
  induction batches generalizing first second with
  | nil => exact h
  | cons batch batches ih =>
    rw [keptBatches, keptBatches, List.cons.injEq] at hkept
    apply ih _ hkept.2
    apply SameReceive.drain_hdlc_frames_to_udp
    obtain ⟨hfirst, -, hfframe, hfudp, hfstreak⟩ := drain_rx_until_empty_eq first batch
    obtain ⟨hsecond, -, hsframe, hsudp, hsstreak⟩ := drain_rx_until_empty_eq second batch
    exact
      { accumulator := by rw [hfirst, hsecond, h.accumulator, hkept.1]
        reconstructed_frame := by rw [hfframe, hsframe, h.reconstructed_frame]
        udp_tx := by rw [hfudp, hsudp, h.udp_tx]
        hdlc_decode_fail_streak := by rw [hfstreak, hsstreak, h.hdlc_decode_fail_streak] }

/-- The receive path is in step with a line on which the given payloads are
still to come. -/
structure LoopState.Tracks (state : LoopState σ) (unread : List UInt8) (slack lead : Nat)
    (payloads : List (List UInt8)) : Prop where
  line : hdlc_sync.Tracks (restCursor state.app.accumulator state.app.reconstructed_frame) unread slack lead payloads
  capacity_le : HDLC_SYNC_MAX_REASONABLE_FRAME_SIZE_BYTES ≤ state.app.reconstructed_frame.capacity

theorem LoopState.tracks_boot {ts : List (Transmission true)} {bytes : List UInt8} {lastGap : Nat}
    (hbits : bytesBits true bytes = streamBits ts lastGap)
    (hsize : ∀ t ∈ ts, t.frame.length ≤ HDLC_SYNC_MAX_REASONABLE_FRAME_SIZE_BYTES) (v24_config : V24Config)
    (tx_rts_holdoff_us : Nat) (pio : σ) (lead : Nat) :
    (LoopState.boot v24_config tx_rts_holdoff_us pio).Tracks bytes 0 lead (ts.map (·.payload)) where
  line := tracks_of_bits hbits hsize _ lead
  capacity_le := by
    simp only [LoopState.boot, HdlcFrame.empty, HDLC_SYNC_MAX_REASONABLE_FRAME_SIZE_BYTES, RX_HDLC_SYNC_MAX_BUFFER_SIZE]
    omega

/-- A poll of the accumulator is clear of the hard cap, and while it hunts the
exhaustive search does not interfere. -/
def PollClear (accumulator : HdlcSyncAccumulator) : Prop :=
  accumulator.position < RX_HDLC_SYNC_MAX_BUFFER_SIZE - 16 ∧
    (accumulator.state = .HDLC_SYNC_STATE_HUNTING → ShortSearchAgrees accumulator)

instance (accumulator : HdlcSyncAccumulator) : Decidable (PollClear accumulator) :=
  inferInstanceAs (Decidable (_ ∧ _))

/-- One turn of a loop in step with the line: it delivers the next payload, or
it leaves for want of bytes. -/
theorem LoopState.Tracks.drainTurn {state : LoopState σ} {unread : List UInt8} {slack lead : Nat}
    {payloads : List (List UInt8)} (h : state.Tracks unread slack lead payloads) (hlead : slack ≤ lead)
    (hclear : PollClear state.app.accumulator) :
    (∃ last, drainTurn state = .inr last ∧ last.Tracks unread 0 lead payloads ∧ last.app.udp_tx = state.app.udp_tx) ∨
      ∃ next payload rest, drainTurn state = .inl next ∧ payloads = payload :: rest ∧
        next.Tracks unread slack lead rest ∧ next.app.udp_tx = state.app.udp_tx ++ [payload] := by
  obtain ⟨hpoll, hcapacity⟩ := hdlc_sync.Tracks.poll h.line hlead h.capacity_le hclear.1 hclear.2
  have hroom := h.capacity_le
  rw [← hcapacity] at hroom
  unfold event_loop.drainTurn
  cases hpoll with
  | waits hresult htracks =>
    left
    simp only [hresult, reduceCtorEq, if_false, ne_eq, not_true]
    exact ⟨_, rfl, ⟨htracks, hroom⟩, rfl⟩
  | ready t rest hresult hpayloads hfits hframe htracks =>
    right
    simp only [hresult, if_true]
    refine ⟨_, t.payload, rest, rfl, hpayloads, ?_⟩
    unfold decode_hdlc_to_udp_tx
    simp only [hdlc_decode_of_frame hframe hfits (show 2046 ≤ TX_BUF_SIZE by decide)]
    exact ⟨⟨htracks _, hroom⟩, rfl⟩

/-- Draining sends the next payloads of the line and stays in step behind
them. -/
theorem LoopState.Tracks.drain_hdlc_frames_to_udp {unread : List UInt8} {slack lead : Nat} (hlead : slack ≤ lead)
    (state : LoopState σ) {payloads : List (List UInt8)} (h : state.Tracks unread slack lead payloads)
    (hclear : ∀ turn ∈ framesLoop.turns state, PollClear turn.app.accumulator) :
    ∃ taken rest, payloads = taken ++ rest ∧ (drain_hdlc_frames_to_udp state).Tracks unread 0 lead rest ∧
      (drain_hdlc_frames_to_udp state).app.udp_tx = state.app.udp_tx ++ taken.map id := by
  apply framesLoop.exists_emitted id (fun turn ps => turn.Tracks unread slack lead ps)
    (fun last ps => last.Tracks unread 0 lead ps) (·.app.udp_tx) (·.app.udp_tx) state _ h
  intro turn hmem ps htracks
  exact htracks.drainTurn hlead (hclear turn hmem)

/-- Received bytes that fit the buffer move from the line into it. -/
theorem LoopState.Tracks.drain_rx_until_empty {state : LoopState σ} {batch unread : List UInt8} {lead : Nat}
    {payloads : List (List UInt8)} (h : state.Tracks (keptBatch state batch ++ unread) 0 lead payloads)
    (hroom : (drain_rx_until_empty state batch).app.accumulator.position < RX_HDLC_SYNC_MAX_BUFFER_SIZE - 16) :
    (keptBatch state batch).length ≤ RX_HDLC_SYNC_MAX_BUFFER_SIZE ∧
      (drain_rx_until_empty state batch).Tracks unread (keptBatch state batch).length lead payloads := by
  obtain ⟨haccumulator, -, hframe, -⟩ := drain_rx_until_empty_eq state batch
  have hfits : state.app.accumulator.position + (keptBatch state batch).length ≤ RX_HDLC_SYNC_MAX_BUFFER_SIZE := by
    rw [haccumulator, process_bytes_eq] at hroom
    simp only [HdlcSyncAccumulator.position, List.length_append, List.length_take, RX_HDLC_SYNC_MAX_BUFFER_SIZE]
      at hroom ⊢
    omega
  refine ⟨by omega, ?_, by rw [hframe]; exact h.capacity_le⟩
  rw [haccumulator, hframe, process_bytes_of_le hfits, ← Nat.zero_add (keptBatch state batch).length]
  exact hdlc_sync.Tracks.append h.line

/-- What the filter leaves of a line is sent completely when no poll meets the
hard cap or the exhaustive search. -/
theorem LoopState.Tracks.receiveBatches {batches : List (List UInt8)} (state : LoopState σ)
    {payloads : List (List UInt8)}
    (h : state.Tracks (keptBatches state batches).flatten 0 RX_HDLC_SYNC_MAX_BUFFER_SIZE payloads)
    (hclear : ∀ accumulator ∈ polledAccumulators state batches, PollClear accumulator) :
    (receiveBatches state batches).app.udp_tx = state.app.udp_tx ++ payloads := by
  induction batches generalizing state payloads with
  | nil =>
    rw [hdlc_sync.Tracks.payloads_eq_nil h.line]
    exact (List.append_nil _).symm
  | cons batch batches ih =>
    rw [keptBatches, List.flatten_cons] at h
    rw [polledAccumulators] at hclear
    have hturns : ∀ turn ∈ framesLoop.turns (event_loop.drain_rx_until_empty state batch),
        PollClear turn.app.accumulator :=
      fun turn hmem => hclear _ (List.mem_append_left _ (List.mem_map_of_mem hmem))
    obtain ⟨hslack, hread⟩ := h.drain_rx_until_empty (hturns _ (Loop.Terminating.mem_turns_self framesLoop _)).1
    obtain ⟨taken, rest, hpayloads, hdrained, hsent⟩ :=
      LoopState.Tracks.drain_hdlc_frames_to_udp hslack _ hread hturns
    obtain ⟨-, -, -, hudp, -⟩ := drain_rx_until_empty_eq state batch
    calc (event_loop.receiveBatches state (batch :: batches)).app.udp_tx
        = (receiveBatch state batch).app.udp_tx ++ rest :=
          ih (receiveBatch state batch) hdrained fun accumulator hmem => hclear _ (List.mem_append_right _ hmem)
      _ = state.app.udp_tx ++ taken ++ rest := by rw [receiveBatch, hsent, hudp, List.map_id]
      _ = state.app.udp_tx ++ payloads := by rw [hpayloads, List.append_assoc]

end ether2ser.event_loop
