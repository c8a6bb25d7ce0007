import Ether2Ser.System.EventLoop.Halves
import Ether2Ser.System.EventLoop.IdleFilter

open Bits
open ether2ser.hdlc ether2ser.hdlc_common ether2ser.hdlc_sync ether2ser.pio_tx_rx_driver

namespace ether2ser.event_loop

variable {σ : Type} {hw : TxHardware σ}

/-- The serial bytes of a run. -/
def serialBytes (inputs : List LoopInput) : List UInt8 := inputs.flatMap fun input => input.rx_early ++ input.rx

/-- The accumulators that `hdlc_sync_acc_poll` is called on in a run of the
loop. -/
def loopPolls (hw : TxHardware σ) (state : LoopState σ) : List LoopInput → List HdlcSyncAccumulator
  | [] => []
  | input :: inputs =>
    (framesLoop.turns (beforeFrames hw state input)).map (·.app.accumulator) ++
      loopPolls hw (event_loop_iteration hw state input) inputs

/-- How often the loop has given up on a frame because nothing, or too much, has
arrived. -/
def LoopState.resyncs (state : LoopState σ) : Nat :=
  state.app.stats.resync_idle_timeout_count + state.app.stats.resync_no_progress_count

theorem resyncs_of_rxHalf_eq {state next : LoopState σ} (h : next.rxHalf = state.rxHalf) :
    next.resyncs = state.resyncs := by
  simp only [LoopState.rxHalf, RxHalf.mk.injEq] at h
  rw [LoopState.resyncs, h.2.2.2.2.2.2.1, h.2.2.2.2.2.2.2.1, LoopState.resyncs]

theorem resyncs_drain_rx_until_empty (state : LoopState σ) (rx : List UInt8) :
    (drain_rx_until_empty state rx).resyncs = state.resyncs := by
  unfold drain_rx_until_empty
  induction rx generalizing state with
  | nil => rfl
  | cons rx_byte rx ih =>
    rw [List.foldl_cons, ih]
    unfold receiveByte
    simp only
    split
    · rfl
    · split <;> rfl

theorem resyncs_drain_hdlc_frames_to_udp (state : LoopState σ) :
    (drain_hdlc_frames_to_udp state).resyncs = state.resyncs := by
  have hdecode : ∀ state : LoopState σ, (decode_hdlc_to_udp_tx state).resyncs = state.resyncs := by
    intro state
    unfold decode_hdlc_to_udp_tx
    simp only
    split
    · rfl
    · unfold rejectDecoded
      simp only
      split <;> rfl
  obtain ⟨last, hlast, hexit⟩ := framesLoop.exists_exit (fun turn : LoopState σ => turn.resyncs = state.resyncs)
    (by
      intro turn next hturn hbody
      change drainTurn turn = .inl next at hbody
      unfold drainTurn at hbody
      simp only at hbody
      split at hbody
      · cases hbody
        exact (hdecode _).trans hturn
      · split at hbody <;> cases hbody)
    rfl
  change drainTurn last = .inr (drain_hdlc_frames_to_udp state) at hexit
  unfold drainTurn at hexit
  simp only at hexit
  split at hexit
  · cases hexit
  · split at hexit
    · injection hexit with hexit
      rw [← hexit]
      exact hlast
    · injection hexit with hexit
      rw [← hexit]
      exact hlast

/-- The idle timeout counts a resync, or it does nothing. -/
theorem poll_hdlc_idle_timeout_cases (state : LoopState σ) (now_us : Nat) :
    poll_hdlc_idle_timeout state now_us = state ∨
      (poll_hdlc_idle_timeout state now_us).resyncs = state.resyncs + 1 := by
  unfold poll_hdlc_idle_timeout
  simp only
  split
  · right
    simp only [LoopState.resyncs, AppCtx.resync]
    omega
  · exact .inl rfl

theorem poll_hdlc_no_progress_cases (state : LoopState σ) :
    (∃ last_frame_ready_bytes,
        poll_hdlc_no_progress state = { state with runtime := { state.runtime with last_frame_ready_bytes } }) ∨
      (poll_hdlc_no_progress state).resyncs = state.resyncs + 1 := by
  unfold poll_hdlc_no_progress
  simp only
  split_ifs
  all_goals first
    | exact .inl ⟨_, rfl⟩
    | exact .inr rfl

/-- An iteration that counts no resync keeps its frame. -/
structure Undisturbed (hw : TxHardware σ) (state : LoopState σ) (input : LoopInput) : Prop where
  no_timeout : beforeFrames hw state input = beforeTimeout hw state input
  no_give_up : ∃ last_frame_ready_bytes,
    poll_hdlc_no_progress (drain_hdlc_frames_to_udp (beforeFrames hw state input)) =
      { drain_hdlc_frames_to_udp (beforeFrames hw state input) with
        runtime := { (drain_hdlc_frames_to_udp (beforeFrames hw state input)).runtime with last_frame_ready_bytes } }

/-- Resyncs are only ever counted up. -/
theorem resyncs_iteration (state : LoopState σ) {input : LoopInput} (hkeeps : KeepsSettings input.events) :
    state.resyncs ≤ (event_loop_iteration hw state input).resyncs ∧
      ((event_loop_iteration hw state input).resyncs = state.resyncs → Undisturbed hw state input) := by
  have hbefore : (beforeTimeout hw state input).resyncs = state.resyncs := by
    calc (beforeTimeout hw state input).resyncs
        = (drain_rx_until_empty (beforeDrain hw state input) input.rx).resyncs := rfl
      _ = (beforeDrain hw state input).resyncs := resyncs_drain_rx_until_empty _ _
      _ = (update_rx_drain_stats (drain_rx_until_empty state input.rx_early) input.rx_early.length
            input.early_us).resyncs := resyncs_of_rxHalf_eq (rxHalf_serveTransmit _ _)
      _ = (drain_rx_until_empty state input.rx_early).resyncs := rfl
      _ = state.resyncs := resyncs_drain_rx_until_empty _ _
  have hdrained := resyncs_drain_hdlc_frames_to_udp (beforeFrames hw state input)
  have hfinish : (event_loop_iteration hw state input).resyncs =
      (poll_hdlc_no_progress (drain_hdlc_frames_to_udp (beforeFrames hw state input))).resyncs := by
    rw [event_loop_iteration_eq]
    exact resyncs_of_rxHalf_eq (rxHalf_finishIteration _ hkeeps)
  rw [hfinish]
  obtain hidle | hcounted := poll_hdlc_idle_timeout_cases (beforeTimeout hw state input) input.now_us
  · have hkept : (beforeFrames hw state input).resyncs = state.resyncs :=
      (congrArg LoopState.resyncs hidle).trans hbefore
    obtain ⟨ready_bytes, hready⟩ | hcounted :=
      poll_hdlc_no_progress_cases (drain_hdlc_frames_to_udp (beforeFrames hw state input))
    · have hsame : (poll_hdlc_no_progress (drain_hdlc_frames_to_udp (beforeFrames hw state input))).resyncs =
          state.resyncs := by
        rw [hready]
        exact hdrained.trans hkept
      exact ⟨Nat.le_of_eq hsame.symm, fun _ => ⟨hidle, ready_bytes, hready⟩⟩
    · rw [hcounted, hdrained, hkept]
      exact ⟨Nat.le_succ _, fun hsame => absurd hsame (Nat.succ_ne_self _)⟩
  · have hkept : (beforeFrames hw state input).resyncs = state.resyncs + 1 :=
      hcounted.trans (congrArg (· + 1) hbefore)
    obtain ⟨ready_bytes, hready⟩ | hcounted :=
      poll_hdlc_no_progress_cases (drain_hdlc_frames_to_udp (beforeFrames hw state input))
    · have hsame : (poll_hdlc_no_progress (drain_hdlc_frames_to_udp (beforeFrames hw state input))).resyncs =
          state.resyncs + 1 := by
        rw [hready]
        exact hdrained.trans hkept
      rw [hsame]
      exact ⟨Nat.le_succ _, fun hsame => absurd hsame (Nat.succ_ne_self _)⟩
    · rw [hcounted, hdrained, hkept]
      exact ⟨by omega, fun hsame => absurd hsame (by omega)⟩

theorem resyncs_run (state : LoopState σ) {inputs : List LoopInput}
    (hkeeps : ∀ input ∈ inputs, KeepsSettings input.events) :
    state.resyncs ≤ (event_loop_run hw state inputs).resyncs := by
  unfold event_loop_run
  induction inputs generalizing state with
  | nil => exact Nat.le_refl _
  | cons input inputs ih =>
    exact (resyncs_iteration state (hkeeps input List.mem_cons_self)).1.trans
      (ih _ fun later hmem => hkeeps later (List.mem_cons_of_mem _ hmem))

/-- A run that counts no resync begins with an undisturbed iteration and goes on
without a resync. -/
theorem undisturbed_of_resyncs {state : LoopState σ} {input : LoopInput} {inputs : List LoopInput}
    (hkeeps : ∀ later ∈ input :: inputs, KeepsSettings later.events)
    (hresyncs : (event_loop_run hw state (input :: inputs)).resyncs = state.resyncs) :
    Undisturbed hw state input ∧
      (event_loop_run hw (event_loop_iteration hw state input) inputs).resyncs =
        (event_loop_iteration hw state input).resyncs := by
  obtain ⟨hfirst, hlater⟩ := List.forall_mem_cons.mp hkeeps
  obtain ⟨hle, hquiet⟩ := @resyncs_iteration σ hw state input hfirst
  have hrest := @resyncs_run σ hw (event_loop_iteration hw state input) inputs hlater
  change (event_loop_run hw (event_loop_iteration hw state input) inputs).resyncs = _ at hresyncs
  have hsame : (event_loop_iteration hw state input).resyncs = state.resyncs := by omega
  exact ⟨hquiet hsame, hresyncs.trans hsame.symm⟩

theorem keptBatch_of_internal {state : LoopState σ} (hinternal : state.app.v24_config.external_clock = false)
    (batch : List UInt8) : keptBatch state batch = batch := by
  have hkept := keptBatches_of_internal hinternal [batch]
  rw [keptBatches, List.cons.injEq] at hkept
  exact hkept.1

/-- The receive path is in step with the line as far as its accumulator and its
frame are. -/
theorem LoopState.Tracks.congr {state next : LoopState σ} {unread : List UInt8} {slack lead : Nat}
    {payloads : List (List UInt8)} (h : state.Tracks unread slack lead payloads)
    (haccumulator : next.app.accumulator = state.app.accumulator)
    (hframe : next.app.reconstructed_frame = state.app.reconstructed_frame) :
    next.Tracks unread slack lead payloads where
  line := by
    rw [haccumulator, hframe]
    exact h.line
  capacity_le := by
    rw [hframe]
    exact h.capacity_le

/-- On the internal clock, both receive drains of an iteration append their bytes
to the accumulator. -/
theorem beforeTimeout_eq (state : LoopState σ) (input : LoopInput)
    (hinternal : state.app.v24_config.external_clock = false) :
    (beforeTimeout hw state input).app.accumulator =
        process_bytes state.app.accumulator (input.rx_early ++ input.rx) ∧
      (beforeTimeout hw state input).app.reconstructed_frame = state.app.reconstructed_frame ∧
      (beforeTimeout hw state input).app.udp_tx = state.app.udp_tx ∧
      (beforeTimeout hw state input).app.v24_config.external_clock = false := by
  obtain ⟨haccumulator, hconfig, hframe, hudp, -⟩ := drain_rx_until_empty_eq state input.rx_early
  have hserved := @rxHalf_serveTransmit σ hw
    (update_rx_drain_stats (drain_rx_until_empty state input.rx_early) input.rx_early.length input.early_us)
    input.datagram
  change (beforeDrain hw state input).rxHalf = _ at hserved
  simp only [LoopState.rxHalf, RxHalf.mk.injEq, update_rx_drain_stats] at hserved
  obtain ⟨hclock, hbuffer, hpartly, hsent, -⟩ := hserved
  rw [hconfig, hinternal] at hclock
  obtain ⟨haccumulator', hconfig', hframe', hudp', -⟩ := drain_rx_until_empty_eq (beforeDrain hw state input) input.rx
  refine ⟨?_, hframe'.trans (hpartly.trans hframe), hudp'.trans (hsent.trans hudp), ?_⟩
  · calc (beforeTimeout hw state input).app.accumulator
        = process_bytes (beforeDrain hw state input).app.accumulator input.rx := by
          rw [← keptBatch_of_internal hclock input.rx]
          exact haccumulator'
      _ = process_bytes (process_bytes state.app.accumulator input.rx_early) input.rx := by
          rw [hbuffer, haccumulator, keptBatch_of_internal hinternal]
      _ = process_bytes state.app.accumulator (input.rx_early ++ input.rx) := List.foldl_append.symm
  · exact (congrArg V24Config.external_clock hconfig').trans hclock

/-- An undisturbed iteration sends the next payloads of the line and stays in
step behind them. -/
theorem LoopState.Tracks.iteration {state : LoopState σ} {input : LoopInput} {unread : List UInt8}
    {payloads : List (List UInt8)}
    (h : state.Tracks (input.rx_early ++ input.rx ++ unread) 0 RX_HDLC_SYNC_MAX_BUFFER_SIZE payloads)
    (hinternal : state.app.v24_config.external_clock = false) (hkeeps : KeepsSettings input.events)
    (hundisturbed : Undisturbed hw state input)
    (hclear : ∀ turn ∈ framesLoop.turns (beforeFrames hw state input), PollClear turn.app.accumulator) :
    ∃ taken rest, payloads = taken ++ rest ∧
      (event_loop_iteration hw state input).Tracks unread 0 RX_HDLC_SYNC_MAX_BUFFER_SIZE rest ∧
      (event_loop_iteration hw state input).app.udp_tx = state.app.udp_tx ++ taken ∧
      (event_loop_iteration hw state input).app.v24_config.external_clock = false := by
  obtain ⟨haccumulator, hframe, hudp, hclock⟩ := @beforeTimeout_eq σ hw state input hinternal
  rw [hundisturbed.no_timeout] at hclear
  have hkept := keptBatch_of_internal hinternal (input.rx_early ++ input.rx)
  obtain ⟨hdrain, -, hsame, -⟩ := drain_rx_until_empty_eq state (input.rx_early ++ input.rx)
  rw [hkept] at hdrain
  have hroom := (hclear _ (Loop.Terminating.mem_turns_self framesLoop _)).1
  rw [haccumulator, ← hdrain] at hroom
  rw [← hkept] at h
  obtain ⟨hslack, hread⟩ := h.drain_rx_until_empty hroom
  have hbefore := hread.congr (haccumulator.trans hdrain.symm) (hframe.trans hsame.symm)
  obtain ⟨taken, rest, hpayloads, hdrained, hsent⟩ :=
    LoopState.Tracks.drain_hdlc_frames_to_udp hslack (beforeTimeout hw state input) hbefore hclear
  rw [List.map_id, hudp] at hsent
  have hconfig := (drain_hdlc_frames_to_udp_keeps (beforeTimeout hw state input)).1
  obtain ⟨ready_bytes, hready⟩ := hundisturbed.no_give_up
  rw [hundisturbed.no_timeout] at hready
  have hfinish := @rxHalf_finishIteration σ hw
    (poll_hdlc_no_progress (event_loop.drain_hdlc_frames_to_udp (beforeFrames hw state input))) input hkeeps
  rw [← event_loop_iteration_eq, hundisturbed.no_timeout, hready] at hfinish
  simp only [LoopState.rxHalf, RxHalf.mk.injEq] at hfinish
  obtain ⟨hexternal, hbuffer, hpartly, hpayload, -⟩ := hfinish
  refine ⟨taken, rest, hpayloads, hdrained.congr hbuffer hpartly, hpayload.trans hsent, ?_⟩
  rw [hexternal, hconfig]
  exact hclock

/-- A run that counts no resync sends the payloads of the line in order, and all
of those whose last byte has been read. -/
theorem LoopState.Tracks.run {state : LoopState σ} {inputs : List LoopInput} {unread : List UInt8}
    {payloads : List (List UInt8)}
    (h : state.Tracks (serialBytes inputs ++ unread) 0 RX_HDLC_SYNC_MAX_BUFFER_SIZE payloads)
    (hinternal : state.app.v24_config.external_clock = false) (hkeeps : ∀ input ∈ inputs, KeepsSettings input.events)
    (hresyncs : (event_loop_run hw state inputs).resyncs = state.resyncs)
    (hclear : ∀ accumulator ∈ loopPolls hw state inputs, PollClear accumulator) :
    ∃ taken rest, payloads = taken ++ rest ∧
      (event_loop_run hw state inputs).Tracks unread 0 RX_HDLC_SYNC_MAX_BUFFER_SIZE rest ∧
      (event_loop_run hw state inputs).app.udp_tx = state.app.udp_tx ++ taken := by
  induction inputs generalizing state payloads with
  | nil => exact ⟨[], payloads, rfl, h, (List.append_nil _).symm⟩
  | cons input inputs ih =>
    obtain ⟨hfirst, hlater⟩ := List.forall_mem_cons.mp hkeeps
    obtain ⟨hundisturbed, hquiet⟩ := undisturbed_of_resyncs hkeeps hresyncs
    rw [loopPolls] at hclear
    rw [serialBytes, List.flatMap_cons, List.append_assoc] at h
    obtain ⟨taken, rest, hpayloads, htracks, hsent, hclock⟩ := h.iteration hinternal hfirst hundisturbed
      fun turn hmem => hclear _ (List.mem_append_left _ (List.mem_map_of_mem hmem))
    obtain ⟨taken', rest', hrest', htracks', hsent'⟩ := ih htracks hclock hlater hquiet
      fun accumulator hmem => hclear _ (List.mem_append_right _ hmem)
    refine ⟨taken ++ taken', rest', ?_, htracks', ?_⟩
    · rw [hpayloads, hrest', List.append_assoc]
    · rw [← List.append_assoc, ← hsent]
      exact hsent'

end ether2ser.event_loop
