import Ether2Ser.System.EventLoop.Delivery
import Ether2Ser.System.EventLoop.Throttle

open Bits Words
open ether2ser.hdlc ether2ser.hdlc_common ether2ser.hdlc_sync ether2ser.pio_tx_rx_driver ether2ser.tx_queue

namespace ether2ser.event_loop

variable {σ : Type} {hw : TxHardware σ} {first second : LoopState σ}

/-- The receive paths of two loops are in the same state, and so are their idle
filters. -/
structure SameFiltered (first second : LoopState σ) : Prop where
  receive : SameReceive first second
  external_clock : first.app.v24_config.external_clock = second.app.v24_config.external_clock
  hunt_idle_run_length : first.runtime.hunt_idle_run_length = second.runtime.hunt_idle_run_length

theorem SameFiltered.of_rxHalf {next : LoopState σ} (h : SameFiltered first second)
    (hsame : next.rxHalf = first.rxHalf) : SameFiltered next second := by
  simp only [LoopState.rxHalf, RxHalf.mk.injEq] at hsame
  obtain ⟨hclock, haccumulator, hframe, hudp, -, -, -, -, hstreak, -, -, hrun⟩ := hsame
  exact
    { receive :=
        { accumulator := haccumulator.trans h.receive.accumulator
          reconstructed_frame := hframe.trans h.receive.reconstructed_frame
          udp_tx := hudp.trans h.receive.udp_tx
          hdlc_decode_fail_streak := hstreak.trans h.receive.hdlc_decode_fail_streak }
      external_clock := hclock.trans h.external_clock
      hunt_idle_run_length := hrun.trans h.hunt_idle_run_length }

theorem SameFiltered.receiveByte (h : SameFiltered first second) (rx_byte : UInt8) :
    SameFiltered (receiveByte first rx_byte) (receiveByte second rx_byte) := by
  have hdrop : event_loop_should_drop_hunt_idle_byte first.app rx_byte first.runtime.hunt_idle_run_length =
      event_loop_should_drop_hunt_idle_byte second.app rx_byte second.runtime.hunt_idle_run_length := by
    unfold event_loop_should_drop_hunt_idle_byte
    rw [h.external_clock, h.receive.accumulator, h.hunt_idle_run_length]
  obtain ⟨hreceive, hclock, hrun⟩ := h
  unfold event_loop.receiveByte
  simp only [hdrop, hreceive.accumulator]
  split
  · exact ⟨⟨rfl, hreceive.reconstructed_frame, hreceive.udp_tx, hreceive.hdlc_decode_fail_streak⟩, hclock, rfl⟩
  · split <;>
      exact ⟨⟨rfl, hreceive.reconstructed_frame, hreceive.udp_tx, hreceive.hdlc_decode_fail_streak⟩, hclock, rfl⟩

theorem SameFiltered.drain_rx_until_empty (h : SameFiltered first second) (rx : List UInt8) :
    SameFiltered (drain_rx_until_empty first rx) (drain_rx_until_empty second rx) := by
  unfold event_loop.drain_rx_until_empty
  induction rx generalizing first second with
  | nil => exact h
  | cons rx_byte rx ih => exact ih (h.receiveByte rx_byte)

theorem SameFiltered.drain_hdlc_frames_to_udp (h : SameFiltered first second) :
    SameFiltered (drain_hdlc_frames_to_udp first) (drain_hdlc_frames_to_udp second) := by
  obtain ⟨hconfig, hrun⟩ := drain_hdlc_frames_to_udp_keeps first
  obtain ⟨hconfig', hrun'⟩ := drain_hdlc_frames_to_udp_keeps second
  refine ⟨h.receive.drain_hdlc_frames_to_udp, ?_, ?_⟩
  · rw [hconfig, hconfig', h.external_clock]
  · rw [hrun, hrun', h.hunt_idle_run_length]

/-- The bytes of an iteration. -/
def LoopInput.batch (input : LoopInput) : List UInt8 := input.rx_early ++ input.rx

/-- An undisturbed iteration receives one batch. -/
theorem SameFiltered.iteration (h : SameFiltered first second) {input : LoopInput} (hkeeps : KeepsSettings input.events)
    (hundisturbed : Undisturbed hw first input) :
    SameFiltered (event_loop_iteration hw first input) (receiveBatch second input.batch) := by
  have hearly : SameFiltered (beforeDrain hw first input)
      (event_loop.drain_rx_until_empty second input.rx_early) := by
    obtain ⟨hreceive, hclock, hrun⟩ := h.drain_rx_until_empty input.rx_early
    refine SameFiltered.of_rxHalf ?_ (rxHalf_serveTransmit _ _)
    exact ⟨{ hreceive with }, hclock, hrun⟩
  have hbatch : SameFiltered (beforeTimeout hw first input) (event_loop.drain_rx_until_empty second input.batch) := by
    obtain ⟨hreceive, hclock, hrun⟩ := hearly.drain_rx_until_empty input.rx
    rw [LoopInput.batch, event_loop.drain_rx_until_empty, List.foldl_append]
    exact ⟨{ hreceive with }, hclock, hrun⟩
  obtain ⟨hreceive, hclock, hrun⟩ := hbatch.drain_hdlc_frames_to_udp
  obtain ⟨ready_bytes, hready⟩ := hundisturbed.no_give_up
  rw [hundisturbed.no_timeout] at hready
  rw [event_loop_iteration_eq, hundisturbed.no_timeout, hready]
  refine SameFiltered.of_rxHalf ?_ (rxHalf_finishIteration _ hkeeps)
  exact ⟨{ hreceive with }, hclock, hrun⟩

theorem SameFiltered.run (h : SameFiltered first second) {inputs : List LoopInput}
    (hkeeps : ∀ input ∈ inputs, KeepsSettings input.events)
    (hresyncs : (event_loop_run hw first inputs).resyncs = first.resyncs) :
    SameFiltered (event_loop_run hw first inputs) (receiveBatches second (inputs.map LoopInput.batch)) := by
  induction inputs generalizing first second with
  | nil => exact h
  | cons input inputs ih =>
    obtain ⟨hfirst, hlater⟩ := List.forall_mem_cons.mp hkeeps
    obtain ⟨hundisturbed, hquiet⟩ := undisturbed_of_resyncs hkeeps hresyncs
    exact ih (h.iteration hfirst hundisturbed) hlater hquiet

/-- As long as no setting of the serial port changes and no resync is counted, the
event loop receives what arrives in an iteration as one batch: its accumulator, its
frame and the datagrams it has sent are those of a receiver that reads the batches
and nothing else, on either clock. -/
theorem event_loop_receives_batches (v24_config : V24Config) (tx_rts_holdoff_us : Nat) (pio : σ)
    {inputs : List LoopInput} (hkeeps : ∀ input ∈ inputs, KeepsSettings input.events)
    (hresyncs : (event_loop_run hw (.boot v24_config tx_rts_holdoff_us pio) inputs).resyncs = 0) :
    SameReceive (event_loop_run hw (.boot v24_config tx_rts_holdoff_us pio) inputs)
      (receiveBatches (.boot v24_config tx_rts_holdoff_us pio) (inputs.map LoopInput.batch)) :=
  (SameFiltered.run ⟨⟨rfl, rfl, rfl, rfl⟩, rfl, rfl⟩ hkeeps hresyncs).receive

theorem event_loop_receives_batches_one :
    SameReceive
      (event_loop_run txLine (.boot { baudrate := 9600, external_clock := true } 4305 (.boot []))
        [{ LoopInput.idle with rx_early := [0, 0, 0, 0x7E], rx := [2, 0xC1, 0xB2, 0x7E] }])
      (receiveBatches (.boot { baudrate := 9600, external_clock := true } 4305 (.boot []))
        [[0, 0, 0, 0x7E, 2, 0xC1, 0xB2, 0x7E]]) :=
  event_loop_receives_batches _ _ _ (by decide) (by decide +kernel)

/-- With some bytes of the line still to come, a batch-wise receiver has sent the
first payloads, and is in step with the others. -/
theorem LoopState.Tracks.receiveBatches_ahead {state : LoopState σ} {batches : List (List UInt8)}
    {unread : List UInt8} {payloads : List (List UInt8)}
    (h : state.Tracks ((keptBatches state batches).flatten ++ unread) 0 RX_HDLC_SYNC_MAX_BUFFER_SIZE payloads)
    (hclear : ∀ accumulator ∈ polledAccumulators state batches, PollClear accumulator) :
    ∃ taken rest, payloads = taken ++ rest ∧
      (event_loop.receiveBatches state batches).Tracks unread 0 RX_HDLC_SYNC_MAX_BUFFER_SIZE rest ∧
      (event_loop.receiveBatches state batches).app.udp_tx = state.app.udp_tx ++ taken := by
  induction batches generalizing state payloads with
  | nil => exact ⟨[], payloads, rfl, h, (List.append_nil _).symm⟩
  | cons batch batches ih =>
    rw [keptBatches, List.flatten_cons, List.append_assoc] at h
    rw [polledAccumulators] at hclear
    have hturns : ∀ turn ∈ framesLoop.turns (event_loop.drain_rx_until_empty state batch),
        PollClear turn.app.accumulator :=
      fun turn hmem => hclear _ (List.mem_append_left _ (List.mem_map_of_mem hmem))
    obtain ⟨hslack, hread⟩ := h.drain_rx_until_empty (hturns _ (Loop.Terminating.mem_turns_self framesLoop _)).1
    obtain ⟨taken, rest, hpayloads, hdrained, hsent⟩ :=
      LoopState.Tracks.drain_hdlc_frames_to_udp hslack _ hread hturns
    obtain ⟨-, -, -, hudp, -⟩ := drain_rx_until_empty_eq state batch
    rw [List.map_id, hudp] at hsent
    obtain ⟨taken', rest', hrest, htracks, hlast⟩ :=
      @ih (receiveBatch state batch) rest hdrained fun accumulator hmem => hclear _ (List.mem_append_right _ hmem)
    refine ⟨taken ++ taken', rest', by rw [hpayloads, hrest, List.append_assoc], htracks, ?_⟩
    rw [← List.append_assoc, ← hsent]
    exact hlast

/-- What a filter that drops only idle bytes leaves is a line of the same frames,
also with some bytes of it still to come. -/
theorem exists_keptBatches_ahead {ts : List (Transmission true)} {lastGap : Nat} {state : LoopState σ}
    {batches : List (List UInt8)} {unread : List UInt8}
    (hbits : bytesBits true (batches.flatten ++ unread) = streamBits ts lastGap)
    (hstart : state.runtime.hunt_idle_run_length = 0)
    (hidle : ∀ step ∈ (runSteps state batches).zipIdx, kept step.1 = false → IdleByte ts lastGap step.2) :
    ∃ (ts' : List (Transmission true)) (lastGap' : Nat),
      bytesBits true ((keptBatches state batches).flatten ++ unread) = streamBits ts' lastGap' ∧
      ts'.map (·.payload) = ts.map (·.payload) ∧ ts'.map (·.frame) = ts.map (·.frame) := by
  have hlength : ((runSteps state batches).map kept).length = batches.flatten.length := by
    rw [List.length_map, length_runSteps]
  have hselect : (keptBatches state batches).flatten ++ unread =
      select ((runSteps state batches).map kept ++ List.replicate unread.length true) (batches.flatten ++ unread) := by
    rw [flatten_keptBatches, select_append hlength, select_of_all (List.length_replicate)]
    exact fun mark hmem => List.eq_of_mem_replicate hmem
  rw [hselect]
  apply exists_select_bytes hbits
  · rw [List.length_append, List.length_append, hlength, List.length_replicate]
  intro i hdropped
  have hread : i < ((runSteps state batches).map kept).length := by
    by_contra hbehind
    rw [List.getElem?_append_right (Nat.le_of_not_lt hbehind)] at hdropped
    have hmark := List.eq_of_mem_replicate (List.mem_of_getElem? hdropped)
    cases hmark
  rw [List.getElem?_append_left hread, List.getElem?_map, Option.map_eq_some_iff] at hdropped
  obtain ⟨step, hstep, hkept⟩ := hdropped
  refine ⟨hidle (step, i) (List.mem_zipIdx_iff_getElem?.mpr hstep) hkept, ?_⟩
  have hmeets := ((kept_eq_false_iff step).mp hkept).2
  have hnothing : IdleBehind state [] := fun hrun => absurd hrun (by omega)
  obtain ⟨byte, hlast, hbyte⟩ := hnothing.runSteps hstep (Nat.lt_of_lt_of_le Nat.zero_lt_two hmeets.2.1)
  rw [List.nil_append] at hlast
  rw [hlength] at hread
  cases i with
  | zero => simp at hlast
  | succ k =>
    refine ⟨k, rfl, byte, ?_, ?_⟩
    · rw [List.getLast?_eq_getElem?, List.length_take, Nat.min_eq_left (Nat.le_of_lt hread),
        List.getElem?_take_of_lt (by omega)] at hlast
      rw [List.getElem?_append_left (by omega)]
      exact hlast
    · rcases hbyte with rfl | rfl <;> decide

end ether2ser.event_loop
