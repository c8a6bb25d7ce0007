import Ether2Ser.Sync.Counters
import Ether2Ser.System.EventLoop.Ledger
import Ether2Ser.System.EventLoop.Rts

open ether2ser.error ether2ser.hdlc_common ether2ser.hdlc_decoder ether2ser.hdlc_sync ether2ser.pio_tx_rx_driver
open ether2ser.tx_queue

namespace ether2ser.event_loop

variable {σ : Type} {hw : TxHardware σ}

/-- The guard of `poll_hdlc_idle_timeout`. -/
def idleTimeoutDue (state : LoopState σ) (now_us : Nat) : Prop :=
  (state.app.accumulator.state ≠ .HDLC_SYNC_STATE_HUNTING ∨ state.app.accumulator.position > 0 ∨
      state.app.reconstructed_frame.length > 0) ∧
    state.runtime.last_rx_byte_us ≠ 0 ∧ now_us - state.runtime.last_rx_byte_us > HDLC_SYNC_IDLE_TIMEOUT_US

/-- The guard of `poll_hdlc_no_progress`. -/
def noProgressDue (state : LoopState σ) : Prop :=
  (state.app.accumulator.state ≠ .HDLC_SYNC_STATE_HUNTING ∨ state.app.accumulator.candidate_valid = true ∨
      state.app.reconstructed_frame.length > 0) ∧
    state.app.stats.hdlc_decode_ok > 0 ∧ state.app.stats.serial_rx_bytes > state.runtime.last_frame_ready_bytes ∧
    state.app.stats.serial_rx_bytes - state.runtime.last_frame_ready_bytes >
      (if state.app.v24_config.external_clock then HDLC_SYNC_NO_PROGRESS_MAX_BYTES_EXTERNAL
        else HDLC_SYNC_NO_PROGRESS_MAX_BYTES)

/-- All reported counters are zero. -/
def CountersClear (accumulator : HdlcSyncAccumulator) : Prop := accumulator.counters = SyncEvents.none.counters

/-- A turn over the frames resets the accumulator only while its counters are
zero: after a streak of decode failures or an error of the poll. -/
def TurnKeepsCounters (turn : LoopState σ) : Prop :=
  let polled := hdlc_sync_acc_poll turn.app.accumulator turn.app.reconstructed_frame
  (polled.result = .E2S_ERR_HDLC_ACC_FRAME_READY →
    (hdlc_decode polled.out_frame TX_BUF_SIZE true).isOk = false →
    HDLC_DECODE_FAIL_STREAK_LIMIT ≤ nextFailStreak turn.runtime.hdlc_decode_fail_streak →
    CountersClear (hdlc_sync_acc_consume_candidate polled.accumulator false)) ∧
  (polled.result ≠ .E2S_ERR_HDLC_ACC_FRAME_READY → polled.result ≠ .E2S_OK → CountersClear polled.accumulator)

instance (state : LoopState σ) (now_us : Nat) : Decidable (idleTimeoutDue state now_us) :=
  inferInstanceAs (Decidable ((_ ∨ _ ∨ _) ∧ _ ∧ _))

instance (state : LoopState σ) : Decidable (noProgressDue state) :=
  inferInstanceAs (Decidable ((_ ∨ _ ∨ _) ∧ _ ∧ _ ∧ _))

instance (accumulator : HdlcSyncAccumulator) : Decidable (CountersClear accumulator) :=
  inferInstanceAs (Decidable (_ = _))

instance (turn : LoopState σ) : Decidable (TurnKeepsCounters turn) :=
  inferInstanceAs (Decidable ((_ → _ → _ → _) ∧ (_ → _ → _)))

/-- No recovery path of an iteration resets counters that are not zero. -/
structure KeepsCounters (hw : TxHardware σ) (state : LoopState σ) (input : LoopInput) : Prop where
  timeout : idleTimeoutDue (beforeTimeout hw state input) input.now_us →
    CountersClear (beforeTimeout hw state input).app.accumulator
  turns : ∀ turn ∈ framesLoop.turns (beforeFrames hw state input), TurnKeepsCounters turn
  progress : noProgressDue (drain_hdlc_frames_to_udp (beforeFrames hw state input)) →
    CountersClear (drain_hdlc_frames_to_udp (beforeFrames hw state input)).app.accumulator

/-- What a turn over the frames counts. -/
def turnEvents (turn : LoopState σ) : SyncEvents :=
  let polled := hdlc_sync_acc_poll turn.app.accumulator turn.app.reconstructed_frame
  (pollEvents turn.app.accumulator turn.app.reconstructed_frame).add
    (if polled.result = .E2S_ERR_HDLC_ACC_FRAME_READY then
      consumeEvents polled.accumulator (hdlc_decode polled.out_frame TX_BUF_SIZE true).isOk
    else .none)

/-- The events of an iteration, on top of those before it. -/
def countIteration (hw : TxHardware σ) (state : LoopState σ) (events : SyncEvents) (input : LoopInput) : SyncEvents :=
  (framesLoop.turns (beforeFrames hw state input)).foldl (fun events turn => events.add (turnEvents turn)) events

/-- The events of a run of the loop, on top of those before it. -/
def countRun (hw : TxHardware σ) (state : LoopState σ) (events : SyncEvents) : List LoopInput → SyncEvents
  | [] => events
  | input :: inputs =>
    countRun hw (event_loop_iteration hw state input) (countIteration hw state events input) inputs

/-- The accumulator has counted the events, and every reported frame has been
consumed. -/
structure Counted (state : LoopState σ) (events : SyncEvents) : Prop where
  counters_eq : state.app.accumulator.counters = events.counters
  ready_eq : state.app.stats.hdlc_frame_ready = events.consumed

/-- A reset of clear counters changes none of them. -/
theorem counters_init_of_clear {accumulator : HdlcSyncAccumulator} {events : SyncEvents}
    (h : accumulator.counters = events.counters) (hclear : CountersClear accumulator) :
    (hdlc_sync_acc_init HDLC_FLAG_BYTE).counters = events.counters :=
  (show _ = SyncEvents.none.counters from rfl).trans (hclear.symm.trans h)

theorem Counted.receiveByte {state : LoopState σ} {events : SyncEvents} (h : Counted state events) (rx_byte : UInt8) :
    Counted (receiveByte state rx_byte) events := by
  have hbyte := counters_process_byte state.app.accumulator rx_byte
  obtain ⟨idle, full, hledger, -⟩ := rxLedger_receiveByte state rx_byte
  refine ⟨?_, (congrArg RxLedger.hdlc_frame_ready hledger).trans h.ready_eq⟩
  unfold event_loop.receiveByte
  simp only
  split
  · exact h.counters_eq
  · split
    · rename_i accumulator hprocess
      rw [hprocess] at hbyte
      exact hbyte.trans h.counters_eq
    · rename_i accumulator hprocess
      rw [hprocess] at hbyte
      exact hbyte.trans h.counters_eq

theorem Counted.drain_rx_until_empty {state : LoopState σ} {events : SyncEvents} (h : Counted state events)
    (rx : List UInt8) : Counted (drain_rx_until_empty state rx) events := by
  unfold event_loop.drain_rx_until_empty
  induction rx generalizing state with
  | nil => exact h
  | cons rx_byte rx ih => exact ih (h.receiveByte rx_byte)

theorem Counted.serveTransmit {state : LoopState σ} {events : SyncEvents} (h : Counted state events)
    (datagram : Option (List UInt8)) : Counted (serveTransmit hw state datagram) events where
  counters_eq := by
    rw [(serveTransmit_keeps state datagram).2]
    exact h.counters_eq
  ready_eq := (congrArg RxLedger.hdlc_frame_ready (rxLedger_serveTransmit state datagram)).trans h.ready_eq

theorem Counted.beforeTimeout {state : LoopState σ} {events : SyncEvents} (h : Counted state events)
    (input : LoopInput) : Counted (beforeTimeout hw state input) events := by
  have hearly := h.drain_rx_until_empty input.rx_early
  have htransmit := @Counted.serveTransmit σ hw
    (update_rx_drain_stats (event_loop.drain_rx_until_empty state input.rx_early) input.rx_early.length input.early_us)
    events ⟨hearly.counters_eq, hearly.ready_eq⟩ input.datagram
  have hdrain := htransmit.drain_rx_until_empty input.rx
  exact ⟨hdrain.counters_eq, hdrain.ready_eq⟩

theorem Counted.poll_hdlc_idle_timeout {state : LoopState σ} {events : SyncEvents} (h : Counted state events)
    (now_us : Nat) (hclear : idleTimeoutDue state now_us → CountersClear state.app.accumulator) :
    Counted (poll_hdlc_idle_timeout state now_us) events := by
  unfold event_loop.poll_hdlc_idle_timeout
  simp only
  split
  · rename_i hdue
    exact ⟨counters_init_of_clear h.counters_eq (hclear hdue), h.ready_eq⟩
  · exact h

theorem Counted.poll_hdlc_no_progress {state : LoopState σ} {events : SyncEvents} (h : Counted state events)
    (hclear : noProgressDue state → CountersClear state.app.accumulator) :
    Counted (poll_hdlc_no_progress state) events := by
  unfold event_loop.poll_hdlc_no_progress
  simp only
  by_cases hbusy : state.app.accumulator.state ≠ .HDLC_SYNC_STATE_HUNTING ∨
      state.app.accumulator.candidate_valid = true ∨ state.app.reconstructed_frame.length > 0
  · rw [if_neg (not_not.mpr hbusy)]
    by_cases hdue : noProgressDue state
    · rw [if_pos ⟨hdue.2.1, hbusy, hdue.2.2.1, hdue.2.2.2⟩]
      exact ⟨counters_init_of_clear h.counters_eq (hclear hdue), h.ready_eq⟩
    · rw [if_neg (fun hguard => hdue ⟨hbusy, hguard.1, hguard.2.2.1, hguard.2.2.2⟩)]
      exact ⟨h.counters_eq, h.ready_eq⟩
  · rw [if_neg (fun hguard => hbusy hguard.2.1)]
    exact ⟨h.counters_eq, h.ready_eq⟩

/-- A decoded or rejected frame has been consumed and counted. -/
theorem Counted.decode_hdlc_to_udp_tx {state : LoopState σ} {events : SyncEvents} (h : Counted state events)
    (hvalid : state.app.accumulator.candidate_valid = true) (hend : 0 < state.app.accumulator.candidate_end)
    (hpos : 0 < state.app.accumulator.position)
    (hclear : (hdlc_decode state.app.reconstructed_frame TX_BUF_SIZE true).isOk = false →
      HDLC_DECODE_FAIL_STREAK_LIMIT ≤ nextFailStreak state.runtime.hdlc_decode_fail_streak →
      CountersClear (hdlc_sync_acc_consume_candidate state.app.accumulator false)) :
    Counted (decode_hdlc_to_udp_tx state)
      (events.add (consumeEvents state.app.accumulator
        (hdlc_decode state.app.reconstructed_frame TX_BUF_SIZE true).isOk)) := by
  have hdropped : ∀ accept, 0 < min (state.app.accumulator.consumed accept) state.app.accumulator.position := by
    intro accept
    have hconsumed : 0 < state.app.accumulator.consumed accept := by
      cases accept with
      | true => exact hend
      | false => exact Nat.succ_pos _
    omega
  have hconsume := fun accept => counters_consume hvalid (hdropped accept) h.counters_eq
  have hready := h.ready_eq
  unfold event_loop.decode_hdlc_to_udp_tx
  simp only
  cases hdecode : hdlc_decode state.app.reconstructed_frame TX_BUF_SIZE true with
  | ok payload => exact ⟨hconsume true, congrArg (· + 1) hready⟩
  | error error =>
    simp only
    unfold rejectDecoded
    simp only
    split
    · rename_i hstreak
      rw [hdecode] at hclear
      exact ⟨counters_init_of_clear (hconsume false) (hclear rfl hstreak), congrArg (· + 1) hready⟩
    · exact ⟨hconsume false, congrArg (· + 1) hready⟩

theorem Counted.drainTurn_inl {state next : LoopState σ} {events : SyncEvents} (h : Counted state events)
    (hkeeps : TurnKeepsCounters state) (hturn : drainTurn state = .inl next) :
    Counted next (events.add (turnEvents state)) := by
  have hpoll := counters_poll state.app.reconstructed_frame h.counters_eq
  unfold drainTurn at hturn
  simp only at hturn
  split at hturn
  · rename_i hready
    cases hturn
    obtain ⟨hvalid, hend, hpos⟩ := hdlc_sync_acc_poll_frame_ready hready
    rw [turnEvents, if_pos hready, ← SyncEvents.add_assoc]
    refine @Counted.decode_hdlc_to_udp_tx σ _ _ ?_ hvalid hend hpos (hkeeps.1 hready)
    exact ⟨hpoll, h.ready_eq⟩
  · split at hturn <;> cases hturn

theorem Counted.drainTurn_inr {state last : LoopState σ} {events : SyncEvents} (h : Counted state events)
    (hkeeps : TurnKeepsCounters state) (hturn : drainTurn state = .inr last) :
    Counted last (events.add (turnEvents state)) := by
  have hpoll := counters_poll state.app.reconstructed_frame h.counters_eq
  unfold drainTurn at hturn
  simp only at hturn
  split at hturn
  · cases hturn
  · rename_i hready
    rw [turnEvents, if_neg hready]
    split at hturn
    · rename_i herror
      cases hturn
      exact ⟨counters_init_of_clear hpoll (hkeeps.2 hready herror), h.ready_eq⟩
    · cases hturn
      exact ⟨hpoll, h.ready_eq⟩

theorem Counted.drain_hdlc_frames_to_udp {state : LoopState σ} {events : SyncEvents} (h : Counted state events)
    (hkeeps : ∀ turn ∈ framesLoop.turns state, TurnKeepsCounters turn) :
    Counted (drain_hdlc_frames_to_udp state)
      ((framesLoop.turns state).foldl (fun events turn => events.add (turnEvents turn)) events) := by
  unfold event_loop.drain_hdlc_frames_to_udp
  induction state using Loop.Terminating.induction framesLoop generalizing events with
  | leave state last hleave =>
    rw [Loop.Terminating.run_of_inr hleave, Loop.Terminating.turns_of_inr hleave]
    exact h.drainTurn_inr (hkeeps state (Loop.Terminating.mem_turns_self framesLoop state)) hleave
  | turn state next hturn ih =>
    rw [Loop.Terminating.run_of_inl hturn, Loop.Terminating.turns_of_inl hturn]
    apply ih (h.drainTurn_inl (hkeeps state (Loop.Terminating.mem_turns_self framesLoop state)) hturn)
    intro turn hmem
    apply hkeeps
    rw [Loop.Terminating.turns_of_inl hturn]
    exact List.mem_cons_of_mem _ hmem

/-- The statistics report what the accumulator has counted. -/
structure Reported (state : LoopState σ) (events : SyncEvents) : Prop extends Counted state events where
  syncing_eq : state.app.stats.sync_lookahead_wait_syncing = events.waits_syncing % 2 ^ 32
  synced_eq : state.app.stats.sync_lookahead_wait_synced = events.waits_synced % 2 ^ 32
  consume_eq : state.app.stats.sync_candidate_consume = events.consumed % 2 ^ 32
  hardcaps_eq : state.app.stats.sync_hardcap_drop_events = events.hardcaps % 2 ^ 32
  bytes_eq : state.app.stats.sync_hardcap_drop_bytes = events.hardcap_bytes % 2 ^ 32

theorem Counted.finishIteration {state : LoopState σ} {events : SyncEvents} (h : Counted state events)
    (input : LoopInput) : Reported (finishIteration hw state input) events := by
  obtain ⟨hstats, -, haccumulator⟩ := @poll_and_dispatch_events_keeps_decoder σ hw
    (countRxStall (update_statistics state) input.rx_stall) input.events
  have hstall : (countRxStall (update_statistics state) input.rx_stall).app.accumulator = state.app.accumulator ∧
      ∃ rx_fifo_stall_events, (countRxStall (update_statistics state) input.rx_stall).app.stats =
        { (update_statistics state).app.stats with rx_fifo_stall_events } := by
    unfold countRxStall
    split <;> exact ⟨rfl, _, rfl⟩
  obtain ⟨hsame, stalls, hcopied⟩ := hstall
  rw [hcopied] at hstats
  have hcounters := h.counters_eq
  simp only [HdlcSyncAccumulator.counters, SyncEvents.counters, SyncCounters.mk.injEq] at hcounters
  obtain ⟨hsyncing, hsynced, hconsume, hhardcaps, hbytes⟩ := hcounters
  have hfinal : (event_loop.finishIteration hw state input).app.stats =
      { (update_statistics state).app.stats with rx_fifo_stall_events := stalls } := hstats
  refine ⟨⟨?_, ?_⟩, ?_, ?_, ?_, ?_, ?_⟩
  · simp only [event_loop.finishIteration, haccumulator, hsame]
    exact h.counters_eq
  · rw [hfinal]
    exact h.ready_eq
  · simp only [hfinal, update_statistics, hsyncing, UInt32.toNat_ofNat']
  · simp only [hfinal, update_statistics, hsynced, UInt32.toNat_ofNat']
  · simp only [hfinal, update_statistics, hconsume, UInt32.toNat_ofNat']
  · simp only [hfinal, update_statistics, hhardcaps, UInt32.toNat_ofNat']
  · simp only [hfinal, update_statistics, hbytes, UInt32.toNat_ofNat']

theorem Counted.iteration {state : LoopState σ} {events : SyncEvents} (h : Counted state events) {input : LoopInput}
    (hkeeps : KeepsCounters hw state input) :
    Reported (event_loop_iteration hw state input) (countIteration hw state events input) := by
  rw [event_loop_iteration_eq]
  apply Counted.finishIteration
  apply Counted.poll_hdlc_no_progress _ hkeeps.progress
  apply Counted.drain_hdlc_frames_to_udp _ hkeeps.turns
  exact (h.beforeTimeout input).poll_hdlc_idle_timeout input.now_us hkeeps.timeout

theorem countRun_append (state : LoopState σ) (events : SyncEvents) (inputs rest : List LoopInput) :
    countRun hw state events (inputs ++ rest) =
      countRun hw (event_loop_run hw state inputs) (countRun hw state events inputs) rest := by
  induction inputs generalizing state events with
  | nil => rfl
  | cons input inputs ih => exact ih _ _

theorem event_loop_run_concat (state : LoopState σ) (inputs : List LoopInput) (input : LoopInput) :
    event_loop_run hw state (inputs ++ [input]) = event_loop_iteration hw (event_loop_run hw state inputs) input := by
  rw [event_loop_run, List.foldl_append]
  rfl

theorem le_countIteration (state : LoopState σ) (events : SyncEvents) (input : LoopInput) :
    SyncEvents.Le events (countIteration hw state events input) := by
  unfold countIteration
  generalize framesLoop.turns (beforeFrames hw state input) = turns
  induction turns generalizing events with
  | nil => exact .refl events
  | cons turn turns ih =>
    have hadd : SyncEvents.Le events (events.add (turnEvents turn)) :=
      ⟨Nat.le_add_right _ _, Nat.le_add_right _ _, Nat.le_add_right _ _, Nat.le_add_right _ _, Nat.le_add_right _ _⟩
    exact hadd.trans (ih _)

theorem le_countRun (state : LoopState σ) (events : SyncEvents) (inputs : List LoopInput) :
    SyncEvents.Le events (countRun hw state events inputs) := by
  induction inputs generalizing state events with
  | nil => exact .refl events
  | cons input inputs ih => exact (le_countIteration state events input).trans (ih _ _)

theorem reported_boot (v24_config : V24Config) (tx_rts_holdoff_us : Nat) (pio : σ) :
    Reported (LoopState.boot v24_config tx_rts_holdoff_us pio) .none :=
  ⟨⟨rfl, rfl⟩, rfl, rfl, rfl, rfl, rfl⟩

/-- A run without a reset of counted events reports all of them. -/
theorem reported_run {state : LoopState σ} (h : Reported state .none) {inputs : List LoopInput}
    (hkeeps : ∀ done input, done ++ [input] <+: inputs → KeepsCounters hw (event_loop_run hw state done) input) :
    Reported (event_loop_run hw state inputs) (countRun hw state .none inputs) := by
  induction inputs using List.reverseRecOn with
  | nil => exact h
  | append_singleton inputs input ih =>
    have hbefore := ih (fun done other hdone => hkeeps done other (hdone.trans (List.prefix_append inputs [input])))
    rw [event_loop_run_concat, countRun_append]
    exact hbefore.toCounted.iteration (hkeeps inputs input (List.prefix_refl _))

/-- As long as no recovery path resets counters that are not zero, and below
2 ^ 32 events of each kind, the reported counters never decrease from one
iteration to the next, and the consumed candidates are the reported frames. -/
theorem sync_counters_cumulative (hw : TxHardware σ) (v24_config : V24Config) (tx_rts_holdoff_us : Nat) (pio : σ)
    (inputs : List LoopInput)
    (hkeeps : ∀ done input, done ++ [input] <+: inputs →
      KeepsCounters hw (event_loop_run hw (.boot v24_config tx_rts_holdoff_us pio) done) input)
    (hbelow : (countRun hw (.boot v24_config tx_rts_holdoff_us pio) .none inputs).Below (2 ^ 32))
    (done : List LoopInput) (input : LoopInput) (hdone : done ++ [input] <+: inputs) :
    let before := (event_loop_run hw (.boot v24_config tx_rts_holdoff_us pio) done).app.stats
    let after := (event_loop_run hw (.boot v24_config tx_rts_holdoff_us pio) (done ++ [input])).app.stats
    before.sync_lookahead_wait_syncing ≤ after.sync_lookahead_wait_syncing ∧
    before.sync_lookahead_wait_synced ≤ after.sync_lookahead_wait_synced ∧
    before.sync_candidate_consume ≤ after.sync_candidate_consume ∧
    before.sync_hardcap_drop_events ≤ after.sync_hardcap_drop_events ∧
    before.sync_hardcap_drop_bytes ≤ after.sync_hardcap_drop_bytes ∧
    after.sync_candidate_consume = after.hdlc_frame_ready := by
  have hboot := reported_boot v24_config tx_rts_holdoff_us pio
  have hshorter : done <+: inputs := (List.prefix_append done [input]).trans hdone
  have hbefore := @reported_run σ hw _ hboot done
    (fun first other hfirst => hkeeps first other (hfirst.trans hshorter))
  have hafter := @reported_run σ hw _ hboot (done ++ [input])
    (fun first other hfirst => hkeeps first other (hfirst.trans hdone))
  obtain ⟨rest, hrest⟩ := hdone
  rw [← hrest, countRun_append] at hbelow
  have hbound := hbelow.of_le (le_countRun _ _ rest)
  have hle := @le_countRun σ hw (event_loop_run hw (.boot v24_config tx_rts_holdoff_us pio) done)
    (countRun hw (.boot v24_config tx_rts_holdoff_us pio) .none done) [input]
  rw [← countRun_append] at hle
  have hsmaller := hbound.of_le hle
  intro before after
  refine ⟨?_, ?_, ?_, ?_, ?_, ?_⟩
  · rw [hbefore.syncing_eq, hafter.syncing_eq, Nat.mod_eq_of_lt hsmaller.waits_syncing,
      Nat.mod_eq_of_lt hbound.waits_syncing]
    exact hle.waits_syncing
  · rw [hbefore.synced_eq, hafter.synced_eq, Nat.mod_eq_of_lt hsmaller.waits_synced,
      Nat.mod_eq_of_lt hbound.waits_synced]
    exact hle.waits_synced
  · rw [hbefore.consume_eq, hafter.consume_eq, Nat.mod_eq_of_lt hsmaller.consumed, Nat.mod_eq_of_lt hbound.consumed]
    exact hle.consumed
  · rw [hbefore.hardcaps_eq, hafter.hardcaps_eq, Nat.mod_eq_of_lt hsmaller.hardcaps, Nat.mod_eq_of_lt hbound.hardcaps]
    exact hle.hardcaps
  · rw [hbefore.bytes_eq, hafter.bytes_eq, Nat.mod_eq_of_lt hsmaller.hardcap_bytes,
      Nat.mod_eq_of_lt hbound.hardcap_bytes]
    exact hle.hardcap_bytes
  · rw [hafter.consume_eq, hafter.ready_eq, Nat.mod_eq_of_lt hbound.consumed]

/-- An iteration that receives the bytes and nothing else. -/
def LoopInput.received (rx : List UInt8) (now_us : Nat) : LoopInput := { LoopInput.idle with rx, now_us }

theorem keepsCounters_one_frame :
    KeepsCounters idleTx (.boot { baudrate := 9600, external_clock := false } 4305 ())
      (.received [0x7E, 0x41, 0x42, 0x7E] 1) where
  timeout := by decide +kernel
  turns := by decide +kernel
  progress := by decide +kernel

/-- One frame that is consumed. -/
theorem sync_counters_cumulative_one_frame :
    let boot : LoopState Unit := .boot { baudrate := 9600, external_clock := false } 4305 ()
    let after := (event_loop_run idleTx boot [.received [0x7E, 0x41, 0x42, 0x7E] 1]).app.stats
    after.sync_candidate_consume = 1 ∧ after.sync_candidate_consume = after.hdlc_frame_ready := by
  refine ⟨by decide +kernel, ?_⟩
  refine (sync_counters_cumulative idleTx _ _ _ [.received [0x7E, 0x41, 0x42, 0x7E] 1] ?_ ?_ [] _
    (List.prefix_refl _)).2.2.2.2.2
  · rintro done input ⟨rest, hrest⟩
    cases done with
    | nil =>
      cases hrest
      exact keepsCounters_one_frame
    | cons first done => simp at hrest
  · constructor <;> decide +kernel

/-- Twenty milliseconds of silence behind a frame take its count away. -/
theorem sync_counters_reset :
    let boot : LoopState Unit := .boot { baudrate := 9600, external_clock := false } 4305 ()
    let before := (event_loop_run idleTx boot [.received [0x7E, 0x41, 0x42, 0x7E] 1]).app.stats
    let after :=
      (event_loop_run idleTx boot [.received [0x7E, 0x41, 0x42, 0x7E] 1, .received [] 20002]).app.stats
    before.sync_candidate_consume = 1 ∧ after.sync_candidate_consume = 0 ∧ after.hdlc_frame_ready = 1 := by
  decide +kernel

end ether2ser.event_loop
