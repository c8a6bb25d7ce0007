import Ether2Ser.Drivers.TxQueue.TckLine
import Ether2Ser.System.EventLoop.Halves

open Bits Signals
open ether2ser.error ether2ser.hdlc_common ether2ser.hdlc_encoder ether2ser.pio_tx_rx_driver ether2ser.tx_queue

namespace ether2ser.event_loop

variable {σ : Type} {hw : TxHardware σ}

/-- The datagrams of a run whose enqueue is recorded as successful. -/
def acceptedDatagrams (hw : TxHardware σ) (state : LoopState σ) : List LoopInput → List (List UInt8)
  | [] => []
  | input :: inputs =>
    let next := event_loop_iteration hw state input
    (if next.app.enqueue_results = state.app.enqueue_results ++ [.E2S_OK] then input.datagram.toList else []) ++
      acceptedDatagrams hw next inputs

/-- The queue and the driver of a transmit half, with the frames accepted so
far. -/
def TxHalf.txWorld (half : TxHalf σ) (enqueued : List (List UInt8)) : TxWorld σ where
  queue := half.tx_queue
  driver := half.driver
  enqueued := enqueued

theorem txHalf_txWorld_driver (state : LoopState σ) (enqueued : List (List UInt8)) :
    (state.txHalf.txWorld enqueued).driver = state.app.driver :=
  rfl

/-- The transmit half hands over the frames of the accepted datagrams, and its
driver keeps an invariant of its own. -/
structure Forwards (invariant : TxDriver σ → Prop) (half : TxHalf σ) (accepted : List (List UInt8)) : Prop where
  handover : ∃ completed waiting done tried segment,
    Handover (half.txWorld (accepted.map (encodedFrame true))) completed waiting done tried segment
  driver : invariant half.driver
  fits : ∀ payload ∈ accepted, (encodedFrame true payload).length ≤ TX_FRAME_MAX_SIZE_BYTE

section

variable {invariant : TxDriver σ → Prop} {half : TxHalf σ} {accepted : List (List UInt8)}

theorem TxHalf.poll_invariant (hinvariant : DriverInvariant hw invariant) (hdriver : invariant half.driver) :
    invariant (half.poll hw).driver := by
  have hdrained := hinvariant.drain (poll_queue_stats half.tx_queue) TX_QUEUE_DRAIN_CHUNK_SIZE hdriver
  unfold TxHalf.poll poll_tx_pipeline
  simp only
  generalize tx_queue_drain hw (poll_queue_stats half.tx_queue) TX_QUEUE_DRAIN_CHUNK_SIZE half.driver = result
    at hdrained
  obtain ⟨bytes_drained, queue, driver⟩ := result
  dsimp only at hdrained ⊢
  split
  · exact hinvariant.poll (hinvariant.elapse hdrained)
  · exact hdrained

theorem TxHalf.serve_invariant (hinvariant : DriverInvariant hw invariant) (hdriver : invariant half.driver)
    (datagram : Option (List UInt8)) : invariant (half.serve hw datagram).driver := by
  have hpoll := TxHalf.poll_invariant hinvariant hdriver
  unfold TxHalf.serve
  simp only
  split
  · exact hpoll
  · cases datagram with
    | none => exact hpoll
    | some payload => exact hpoll

theorem Forwards.poll (h : Forwards invariant half accepted) (hinvariant : DriverInvariant hw invariant) :
    Forwards invariant (half.poll hw) accepted := by
  obtain ⟨completed, waiting, done, tried, segment, hhandover⟩ := h.handover
  obtain ⟨completed', waiting', done', tried', segment', hdrained⟩ :=
    @Handover.drain σ hw _ _ _ _ _ _ hhandover.poll_queue_stats TX_QUEUE_DRAIN_CHUNK_SIZE
  refine ⟨?_, TxHalf.poll_invariant hinvariant h.driver, h.fits⟩
  unfold TxHalf.poll poll_tx_pipeline
  simp only [TxWorld.drain, TxHalf.txWorld] at hdrained ⊢
  generalize tx_queue_drain hw (poll_queue_stats half.tx_queue) TX_QUEUE_DRAIN_CHUNK_SIZE half.driver = result
    at hdrained
  obtain ⟨bytes_drained, queue, driver⟩ := result
  dsimp only at hdrained ⊢
  split
  · obtain ⟨pause, hpause, hquiet⟩ := records_elapse hw driver
    obtain ⟨events, hpolled, hstill⟩ := records_tx_poll hw (driver.elapse hw)
    exact ⟨_, _, _, _, _, hdrained.quiet (hpause.trans hpolled) (hquiet.append hstill)⟩
  · exact ⟨_, _, _, _, _, hdrained⟩

theorem Forwards.enqueue (h : Forwards invariant half accepted) (payload : List UInt8) :
    Forwards invariant (half.enqueue payload)
      (accepted ++
        if (half.enqueue payload).enqueue_results = half.enqueue_results ++ [.E2S_OK] then [payload] else []) := by
  obtain ⟨completed, waiting, done, tried, segment, hhandover⟩ := h.handover
  obtain ⟨waiting', hnext⟩ := hhandover.enqueue payload
  unfold TxHalf.enqueue
  obtain ⟨queue, hok, hencode, -⟩ | ⟨error, hne, herror, -⟩ := hhandover.accounts.keeps.enqueue payload
  · simp only [TxHalf.txWorld] at hok
    rw [TxWorld.enqueue] at hnext
    simp only [TxHalf.txWorld, hok, hencode, if_true] at hnext ⊢
    refine ⟨⟨completed, waiting', done, tried, segment, ?_⟩, h.driver, ?_⟩
    · rw [List.map_append]
      exact hnext
    · intro other hmem
      rcases List.mem_append.mp hmem with hmem | hmem
      · exact h.fits other hmem
      · rw [List.mem_singleton.mp hmem]
        by_contra hlong
        rw [hdlc_encode_eq, if_neg hlong] at hencode
        cases hencode
  · simp only [TxHalf.txWorld] at herror
    simp only [herror]
    rw [if_neg (by simpa using hne), List.append_nil]
    exact ⟨⟨completed, waiting, done, tried, segment, hhandover⟩, h.driver, h.fits⟩

/-- The transmit half of an iteration accepts its datagram or leaves it. -/
theorem Forwards.serve (h : Forwards invariant half accepted) (hinvariant : DriverInvariant hw invariant)
    (datagram : Option (List UInt8)) :
    Forwards invariant (half.serve hw datagram)
      (accepted ++
        if (half.serve hw datagram).enqueue_results = half.enqueue_results ++ [.E2S_OK] then datagram.toList
        else []) := by
  have hpoll := h.poll hinvariant
  have hresults : (half.poll hw).enqueue_results = half.enqueue_results := rfl
  have hleft : ¬ half.enqueue_results = half.enqueue_results ++ [.E2S_OK] := by simp
  unfold TxHalf.serve
  rw [← hresults] at hleft ⊢
  generalize half.poll hw = polled at hpoll hleft
  by_cases hthrottled : polled.udp_rx_throttled = true
  · simp only [hthrottled, if_true]
    rw [if_neg hleft, List.append_nil]
    exact hpoll
  · simp only [hthrottled, Bool.false_eq_true, if_false]
    cases datagram with
    | none =>
      rw [Option.elim_none, if_neg hleft, List.append_nil]
      exact hpoll
    | some payload => exact hpoll.enqueue payload

end

/-- The calls of the driver only add to its trace. -/
theorem trace_prefix_invariant (hw : TxHardware σ) (past : List TxEvent) :
    DriverInvariant hw fun driver => past <+: driver.trace where
  elapse := fun h => h.trans (List.prefix_append _ _)
  put := by
    intro byte accepted driver driver' h hput
    obtain ⟨events, hrecords, -⟩ := records_tx_put hput
    rw [hrecords.trace_eq]
    exact h.trans (List.prefix_append _ _)
  reset := fun h => h.trans (List.prefix_append _ _)
  poll := by
    intro driver h
    obtain ⟨events, hrecords, -⟩ := records_tx_poll hw driver
    rw [hrecords.trace_eq]
    exact h.trans (List.prefix_append _ _)

/-- An iteration without events only adds to the trace of the driver. -/
theorem trace_event_loop_iteration (state : LoopState σ) {input : LoopInput} (hkeeps : KeepsSettings input.events) :
    state.app.driver.trace <+: (event_loop_iteration hw state input).app.driver.trace := by
  have hserved := TxHalf.serve_invariant (trace_prefix_invariant hw state.app.driver.trace)
    (List.prefix_refl state.txHalf.driver.trace) input.datagram
  rw [← txHalf_event_loop_iteration state hkeeps] at hserved
  exact hserved

theorem forwards_boot {invariant : TxDriver σ → Prop} (v24_config : V24Config) {tx_rts_holdoff_us : Nat} {pio : σ}
    (hboot : invariant (.boot tx_rts_holdoff_us pio)) :
    Forwards invariant (LoopState.boot v24_config tx_rts_holdoff_us pio).txHalf [] where
  handover := ⟨_, _, _, _, _, handover_boot tx_rts_holdoff_us pio⟩
  driver := hboot
  fits := fun _ hmem => absurd hmem List.not_mem_nil

/-- What the transmit half keeps along a run of the loop. -/
theorem Forwards.run {invariant : TxDriver σ → Prop} {state : LoopState σ} {accepted : List (List UInt8)}
    (h : Forwards invariant state.txHalf accepted) (hinvariant : DriverInvariant hw invariant)
    {inputs : List LoopInput} (hkeeps : ∀ input ∈ inputs, KeepsSettings input.events) :
    Forwards invariant (event_loop_run hw state inputs).txHalf (accepted ++ acceptedDatagrams hw state inputs) := by
  induction inputs generalizing state accepted with
  | nil =>
    rw [acceptedDatagrams, List.append_nil]
    exact h
  | cons input inputs ih =>
    have hiteration := @txHalf_event_loop_iteration σ hw state input (hkeeps input List.mem_cons_self)
    have hserved := h.serve hinvariant input.datagram
    rw [← hiteration] at hserved
    rw [acceptedDatagrams, ← List.append_assoc]
    exact ih hserved fun later hmem => hkeeps later (List.mem_cons_of_mem _ hmem)

/-- Every run of the loop in which no setting of the serial port changes, over any
hardware: the frames of the accepted datagrams are handed over in order, each
whole after the attempts that CTS edges have cut short. No CTS edge costs more
than one restart, and no restart as much as a whole frame. -/
theorem event_loop_hands_over (hw : TxHardware σ) (v24_config : V24Config) (tx_rts_holdoff_us : Nat) (pio : σ)
    {inputs : List LoopInput} (hkeeps : ∀ input ∈ inputs, KeepsSettings input.events) :
    ∃ world completed waiting done tried segment,
      world = (event_loop_run hw (.boot v24_config tx_rts_holdoff_us pio) inputs).txHalf.txWorld
        ((acceptedDatagrams hw (.boot v24_config tx_rts_holdoff_us pio) inputs).map (encodedFrame true)) ∧
      Handover world completed waiting done tried segment ∧
      (tx_queue_is_empty world.queue = true ↔ world.enqueued = completed) ∧
      world.driver.trace.count .reset ≤ world.driver.trace.count .cts ∧
      (world.driver.trace.filterMap handedByte).length ≤
        world.enqueued.flatten.length + world.driver.trace.count .reset * (TX_FRAME_MAX_SIZE_BYTE - 1) := by
  have hany : DriverInvariant hw fun _ => True :=
    ⟨fun _ => trivial, fun _ _ => trivial, fun _ => trivial, fun _ => trivial⟩
  have hforwards := (@forwards_boot σ (fun _ => True) v24_config tx_rts_holdoff_us pio trivial).run hany hkeeps
  rw [List.nil_append] at hforwards
  obtain ⟨completed, waiting, done, tried, segment, h⟩ := hforwards.handover
  refine ⟨_, completed, waiting, done, tried, segment, rfl, h, h.accounts.is_empty_iff, h.counts ?_⟩
  intro frame hmem
  obtain ⟨payload, hpayload, rfl⟩ := List.mem_map.mp hmem
  exact hforwards.fits payload hpayload

/-- A datagram, and a line on which CTS falls while its frame is handed over. -/
def restartedInputs : List LoopInput := [{ LoopInput.idle with datagram := some [2, 3, 4, 5] }, .idle, .idle]

def restartedSchedule : List (Nat × List Bool) := List.replicate 10 (0, [true]) ++ [(0, [false, true])]

theorem event_loop_hands_over_one :
    (event_loop_run tckHardware
        (.boot { baudrate := 9600, external_clock := false } 4305 (.boot true restartedSchedule))
        restartedInputs).app.driver.trace.count .reset = 1 ∧
      1 ≤ (event_loop_run tckHardware
        (.boot { baudrate := 9600, external_clock := false } 4305 (.boot true restartedSchedule))
        restartedInputs).app.driver.trace.count .cts := by
  have hone : (event_loop_run tckHardware
      (.boot { baudrate := 9600, external_clock := false } 4305 (.boot true restartedSchedule))
      restartedInputs).app.driver.trace.count .reset = 1 := by decide +kernel
  obtain ⟨world, _, _, _, _, _, rfl, -, -, hle, -⟩ :=
    @event_loop_hands_over _ tckHardware { baudrate := 9600, external_clock := false } 4305
      (.boot true restartedSchedule) restartedInputs (by decide)
  rw [txHalf_txWorld_driver] at hle
  exact ⟨hone, hone.ge.trans hle⟩

/-- The line carries the frames of the accepted datagrams bit by bit. What is not
on it yet is in the state machine and in the queue, and every sample can be
followed by a receiver. -/
structure OnTckLine (half : TxHalf TckLine) (accepted : List (List UInt8)) : Prop where
  readable : (Reader.steady false).Readable half.driver.pio.waveform
  bits : ∃ rest, (Reader.steady false).bits half.driver.pio.waveform ++
      (unclocked half.driver.pio.tx ++ bytesBits true rest) = bytesBits true (accepted.flatMap (encodedFrame true)) ∧
    (tx_queue_is_empty half.tx_queue = true → rest = [])

theorem Forwards.onTckLine {half : TxHalf TckLine} {accepted : List (List UInt8)}
    (h : Forwards (LineAgrees Clocked) half accepted) (hreset : .reset ∉ half.driver.trace) :
    OnTckLine half accepted := by
  obtain ⟨completed, waiting, done, tried, segment, hhandover⟩ := h.handover
  obtain ⟨bytes, rest, hclocked, hbytes, hall⟩ := LineAgrees.frames h.driver hhandover hreset
  refine ⟨hclocked.readable, rest, ?_, hall⟩
  change bytes ++ rest = (accepted.map (encodedFrame true)).flatten at hbytes
  rw [← List.append_assoc, List.flatMap_def, ← hbytes, bytesBits_append, ← hclocked.bits_eq]
  rfl

theorem forwards_tck_run (v24_config : V24Config) (tx_rts_holdoff_us : Nat) (cts : Bool)
    (schedule : List (Nat × List Bool)) {inputs : List LoopInput}
    (hkeeps : ∀ input ∈ inputs, KeepsSettings input.events) :
    Forwards (LineAgrees Clocked)
      (event_loop_run tckHardware (.boot v24_config tx_rts_holdoff_us (.boot cts schedule)) inputs).txHalf
      (acceptedDatagrams tckHardware (.boot v24_config tx_rts_holdoff_us (.boot cts schedule)) inputs) :=
  (forwards_boot v24_config (lineAgrees_boot (clocked_boot cts schedule) tx_rts_holdoff_us)).run
    takes_tckHardware.lineAgrees_invariant hkeeps

/-- The bridge on its internal clock: as long as no setting of the serial port changes
and no frame is restarted, the accepted datagrams are on the line in order, without a
gap or a cut. -/
theorem tck_frames_on_line (v24_config : V24Config) (tx_rts_holdoff_us : Nat) (cts : Bool)
    (schedule : List (Nat × List Bool)) {inputs : List LoopInput}
    (hkeeps : ∀ input ∈ inputs, KeepsSettings input.events)
    (hreset : .reset ∉ (event_loop_run tckHardware (.boot v24_config tx_rts_holdoff_us (.boot cts schedule))
      inputs).app.driver.trace) :
    OnTckLine (event_loop_run tckHardware (.boot v24_config tx_rts_holdoff_us (.boot cts schedule)) inputs).txHalf
      (acceptedDatagrams tckHardware (.boot v24_config tx_rts_holdoff_us (.boot cts schedule)) inputs) :=
  (forwards_tck_run v24_config tx_rts_holdoff_us cts schedule hkeeps).onTckLine hreset

/-- One datagram, and the cycles in which the first bits of its frame are on the
line. -/
def firstBitsInputs : List LoopInput := [{ LoopInput.idle with datagram := some [2] }, .idle]

def firstBitsSchedule : List (Nat × List Bool) := List.replicate 9 (0, [true, true, true, true])

theorem tck_frames_on_line_one :
    OnTckLine
      (event_loop_run tckHardware
        (.boot { baudrate := 9600, external_clock := false } 4305 (.boot true firstBitsSchedule))
        firstBitsInputs).txHalf
      (acceptedDatagrams tckHardware
        (.boot { baudrate := 9600, external_clock := false } 4305 (.boot true firstBitsSchedule)) firstBitsInputs) :=
  tck_frames_on_line _ _ _ _ (by decide) (by decide +kernel)

end ether2ser.event_loop
