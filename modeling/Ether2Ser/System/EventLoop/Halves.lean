import Ether2Ser.System.EventLoop.Ledger

open ether2ser.error ether2ser.hdlc_common ether2ser.hdlc_decoder ether2ser.hdlc_sync ether2ser.pio_tx_rx_driver
open ether2ser.tx_queue

namespace ether2ser.event_loop

variable {σ τ : Type} {hw : TxHardware σ}

/-- What the transmit half of the loop works on. -/
structure TxHalf (σ : Type) where
  tx_queue : TxQueue
  driver : TxDriver σ
  enqueue_results : List E2sError
  udp_rx_throttled : Bool

def LoopState.txHalf (state : LoopState σ) : TxHalf σ where
  tx_queue := state.app.tx_queue
  driver := state.app.driver
  enqueue_results := state.app.enqueue_results
  udp_rx_throttled := state.runtime.udp_rx_throttled

/-- What the receive half of the loop works on. -/
structure RxHalf where
  external_clock : Bool
  accumulator : HdlcSyncAccumulator
  reconstructed_frame : HdlcFrame
  udp_tx : List (List UInt8)
  serial_rx_bytes : Nat
  hdlc_decode_ok : Nat
  resync_idle_timeout_count : Nat
  resync_no_progress_count : Nat
  hdlc_decode_fail_streak : Nat
  last_rx_byte_us : Nat
  last_frame_ready_bytes : Nat
  hunt_idle_run_length : Nat

def LoopState.rxHalf (state : LoopState σ) : RxHalf where
  external_clock := state.app.v24_config.external_clock
  accumulator := state.app.accumulator
  reconstructed_frame := state.app.reconstructed_frame
  udp_tx := state.app.udp_tx
  serial_rx_bytes := state.app.stats.serial_rx_bytes
  hdlc_decode_ok := state.app.stats.hdlc_decode_ok
  resync_idle_timeout_count := state.app.stats.resync_idle_timeout_count
  resync_no_progress_count := state.app.stats.resync_no_progress_count
  hdlc_decode_fail_streak := state.runtime.hdlc_decode_fail_streak
  last_rx_byte_us := state.runtime.last_rx_byte_us
  last_frame_ready_bytes := state.runtime.last_frame_ready_bytes
  hunt_idle_run_length := state.runtime.hunt_idle_run_length

/-- The hysteresis of the throttle. -/
def throttledAfter (udp_rx_throttled : Bool) (tx_q_used : Nat) : Bool :=
  if !udp_rx_throttled ∧ tx_q_used ≥ TX_QUEUE_HIGH_WM then true
  else if udp_rx_throttled ∧ tx_q_used ≤ TX_QUEUE_LOW_WM then false
  else udp_rx_throttled

/-- The transmit half of an iteration up to the throttle. -/
def TxHalf.poll (hw : TxHardware σ) (half : TxHalf σ) : TxHalf σ :=
  let (_, tx_queue, driver) := poll_tx_pipeline hw half.tx_queue half.driver
  { half with
    tx_queue
    driver
    udp_rx_throttled := throttledAfter half.udp_rx_throttled (tx_queue_get_count tx_queue) }

def TxHalf.enqueue (half : TxHalf σ) (payload : List UInt8) : TxHalf σ :=
  let (enqueue_result, tx_queue) := tx_queue_enqueue_udp_frame half.tx_queue payload
  { half with tx_queue, enqueue_results := half.enqueue_results ++ [enqueue_result] }

/-- The transmit half of an iteration. -/
def TxHalf.serve (hw : TxHardware σ) (half : TxHalf σ) (datagram : Option (List UInt8)) : TxHalf σ :=
  let half := half.poll hw
  if half.udp_rx_throttled then half else datagram.elim half half.enqueue

/-- No event changes a setting of the serial port. -/
def KeepsSettings (events : List DataPathEvent) : Prop := ∀ event ∈ events, event = .other

instance (events : List DataPathEvent) : Decidable (KeepsSettings events) := inferInstanceAs (Decidable (∀ _ ∈ _, _))

/-- The serial side of what an iteration meets. -/
def LoopInput.serial (input : LoopInput) : LoopInput := { input with datagram := none, rx_stall := false, events := [] }

theorem poll_and_dispatch_events_of_other {events : List DataPathEvent} (hother : ∀ event ∈ events, event = .other)
    (state : LoopState σ) : poll_and_dispatch_events hw state events = state := by
  have hdispatch : ∀ taken : List DataPathEvent, (∀ event ∈ taken, event = .other) →
      taken.foldl (event_dispatch hw) state.app = state.app := by
    intro taken htaken
    induction taken with
    | nil => rfl
    | cons event taken ih =>
      rw [List.foldl_cons, htaken event List.mem_cons_self]
      exact ih fun later hmem => htaken later (List.mem_cons_of_mem _ hmem)
  unfold poll_and_dispatch_events
  simp only
  rw [hdispatch _ fun event hmem => hother event (List.mem_of_mem_take hmem)]

section

theorem txHalf_receiveByte (state : LoopState σ) (rx_byte : UInt8) :
    (receiveByte state rx_byte).txHalf = state.txHalf := by
  unfold receiveByte
  simp only
  split
  · rfl
  · split <;> rfl

theorem txHalf_drain_rx_until_empty (state : LoopState σ) (rx : List UInt8) :
    (drain_rx_until_empty state rx).txHalf = state.txHalf := by
  unfold drain_rx_until_empty
  induction rx generalizing state with
  | nil => rfl
  | cons rx_byte rx ih => exact (ih _).trans (txHalf_receiveByte state rx_byte)

theorem txHalf_decode_hdlc_to_udp_tx (state : LoopState σ) : (decode_hdlc_to_udp_tx state).txHalf = state.txHalf := by
  unfold decode_hdlc_to_udp_tx
  simp only
  split
  · rfl
  · unfold rejectDecoded
    simp only
    split <;> rfl

theorem txHalf_drain_hdlc_frames_to_udp (state : LoopState σ) :
    (drain_hdlc_frames_to_udp state).txHalf = state.txHalf := by
  obtain ⟨last, hlast, hexit⟩ := framesLoop.exists_exit (fun turn : LoopState σ => turn.txHalf = state.txHalf)
    (by
      intro turn next hturn hbody
      change drainTurn turn = .inl next at hbody
      unfold drainTurn at hbody
      simp only at hbody
      split at hbody
      · cases hbody
        exact (txHalf_decode_hdlc_to_udp_tx _).trans hturn
      · split at hbody <;> cases hbody)
    rfl
  change drainTurn last = .inr (drain_hdlc_frames_to_udp state) at hexit
  unfold drainTurn at hexit
  simp only at hexit
  split at hexit
  · cases hexit
  · split at hexit
    · injection hexit with hexit
      rw [← hexit]
      exact hlast
    · injection hexit with hexit
      rw [← hexit]
      exact hlast

theorem txHalf_poll_hdlc_idle_timeout (state : LoopState σ) (now_us : Nat) :
    (poll_hdlc_idle_timeout state now_us).txHalf = state.txHalf := by
  unfold poll_hdlc_idle_timeout
  simp only
  split <;> rfl

theorem txHalf_poll_hdlc_no_progress (state : LoopState σ) : (poll_hdlc_no_progress state).txHalf = state.txHalf := by
  unfold poll_hdlc_no_progress
  simp only
  split_ifs <;> rfl

theorem txHalf_countRxStall (state : LoopState σ) (rx_stall : Bool) :
    (countRxStall state rx_stall).txHalf = state.txHalf := by
  unfold countRxStall
  split <;> rfl

theorem txHalf_update_udp_rx_throttle_state (state : LoopState σ) :
    (update_udp_rx_throttle_state state).txHalf =
      { state.txHalf with
        udp_rx_throttled :=
          throttledAfter state.runtime.udp_rx_throttled (tx_queue_get_count state.app.tx_queue) } := by
  unfold update_udp_rx_throttle_state throttledAfter
  simp only
  split_ifs <;> rfl

theorem txHalf_pollTxPipeline (state : LoopState σ) :
    (pollTxPipeline hw state).txHalf =
      { state.txHalf with
        tx_queue := (poll_tx_pipeline hw state.app.tx_queue state.app.driver).2.1
        driver := (poll_tx_pipeline hw state.app.tx_queue state.app.driver).2.2 } := by
  unfold pollTxPipeline
  simp only [LoopState.txHalf]
  split <;> rfl

theorem txHalf_serveTransmit (state : LoopState σ) (datagram : Option (List UInt8)) :
    (serveTransmit hw state datagram).txHalf = state.txHalf.serve hw datagram := by
  have hpoll : (update_udp_rx_throttle_state (pollTxPipeline hw state)).txHalf = state.txHalf.poll hw := by
    have hpipeline := @txHalf_pollTxPipeline σ hw state
    have hflag := congrArg TxHalf.udp_rx_throttled hpipeline
    simp only [LoopState.txHalf] at hflag
    rw [txHalf_update_udp_rx_throttle_state, hpipeline, hflag]
    rfl
  have henqueue : ∀ (state : LoopState σ) (payload : List UInt8),
      (poll_and_enqueue_udp_rx state (some payload)).txHalf = state.txHalf.enqueue payload := by
    intro state payload
    unfold poll_and_enqueue_udp_rx
    simp only
    split_ifs <;> rfl
  unfold serveTransmit TxHalf.serve
  simp only
  rw [← hpoll]
  generalize update_udp_rx_throttle_state (pollTxPipeline hw state) = throttled
  have hflag : throttled.txHalf.udp_rx_throttled = throttled.runtime.udp_rx_throttled := rfl
  rw [hflag]
  cases throttled.runtime.udp_rx_throttled with
  | true => rfl
  | false =>
    cases datagram with
    | none => rfl
    | some payload => exact henqueue throttled payload

/-- The transmit half of an iteration takes nothing from the receive half. -/
theorem txHalf_event_loop_iteration (state : LoopState σ) {input : LoopInput} (hkeeps : KeepsSettings input.events) :
    (event_loop_iteration hw state input).txHalf = state.txHalf.serve hw input.datagram := by
  have hfinish : ∀ state : LoopState σ, (finishIteration hw state input).txHalf = state.txHalf := by
    intro state
    rw [finishIteration, poll_and_dispatch_events_of_other hkeeps]
    exact txHalf_countRxStall _ _
  rw [event_loop_iteration_eq, hfinish, txHalf_poll_hdlc_no_progress, txHalf_drain_hdlc_frames_to_udp, beforeFrames,
    txHalf_poll_hdlc_idle_timeout]
  calc (drain_rx_until_empty (beforeDrain hw state input) input.rx).txHalf
      = (beforeDrain hw state input).txHalf := txHalf_drain_rx_until_empty _ _
    _ = (drain_rx_until_empty state input.rx_early).txHalf.serve hw input.datagram := txHalf_serveTransmit _ _
    _ = state.txHalf.serve hw input.datagram := by rw [txHalf_drain_rx_until_empty]

theorem txHalf_event_loop_run (state : LoopState σ) {inputs : List LoopInput}
    (hkeeps : ∀ input ∈ inputs, KeepsSettings input.events) :
    (event_loop_run hw state inputs).txHalf = (inputs.map (·.datagram)).foldl (TxHalf.serve hw) state.txHalf := by
  unfold event_loop_run
  induction inputs generalizing state with
  | nil => rfl
  | cons input inputs ih =>
    rw [List.foldl_cons, List.map_cons, List.foldl_cons, ← txHalf_event_loop_iteration state
      (hkeeps input List.mem_cons_self)]
    exact ih _ fun other hmem => hkeeps other (List.mem_cons_of_mem _ hmem)

end

/-- Two loops, over any two transmitters, whose receive halves are in the same
state. -/
def SameRx (first : LoopState σ) (second : LoopState τ) : Prop := first.rxHalf = second.rxHalf

section

variable {first : LoopState σ} {second : LoopState τ}

theorem SameRx.receiveByte (h : SameRx first second) (rx_byte : UInt8) :
    SameRx (receiveByte first rx_byte) (receiveByte second rx_byte) := by
  simp only [SameRx, LoopState.rxHalf, RxHalf.mk.injEq] at h
  obtain ⟨hclock, haccumulator, hframe, hudp, hbytes, hok, hidle, hprogress, hstreak, hlast, hready, hrun⟩ := h
  have hdrop : event_loop_should_drop_hunt_idle_byte first.app rx_byte first.runtime.hunt_idle_run_length =
      event_loop_should_drop_hunt_idle_byte second.app rx_byte second.runtime.hunt_idle_run_length := by
    unfold event_loop_should_drop_hunt_idle_byte
    rw [hclock, haccumulator, hrun]
  unfold event_loop.receiveByte
  simp only [hdrop, haccumulator]
  split
  · simp only [SameRx, LoopState.rxHalf, hclock, hframe, hudp, hbytes, hok, hidle, hprogress, hstreak, hlast, hready]
  · split <;>
      simp only [SameRx, LoopState.rxHalf, hclock, hframe, hudp, hbytes, hok, hidle, hprogress, hstreak, hlast, hready]

theorem SameRx.drain_rx_until_empty (h : SameRx first second) (rx : List UInt8) :
    SameRx (drain_rx_until_empty first rx) (drain_rx_until_empty second rx) := by
  unfold event_loop.drain_rx_until_empty
  induction rx generalizing first second with
  | nil => exact h
  | cons rx_byte rx ih => exact ih (h.receiveByte rx_byte)

theorem SameRx.update_rx_drain_stats (h : SameRx first second) (rx_drained now_us : Nat) :
    SameRx (update_rx_drain_stats first rx_drained now_us) (update_rx_drain_stats second rx_drained now_us) := by
  simp only [SameRx, LoopState.rxHalf, RxHalf.mk.injEq] at h
  obtain ⟨hclock, haccumulator, hframe, hudp, hbytes, hok, hidle, hprogress, hstreak, hlast, hready, hrun⟩ := h
  simp only [SameRx, LoopState.rxHalf, event_loop.update_rx_drain_stats, hclock, haccumulator, hframe, hudp, hbytes,
    hok, hidle, hprogress, hstreak, hlast, hready, hrun]

theorem SameRx.poll_hdlc_idle_timeout (h : SameRx first second) (now_us : Nat) :
    SameRx (poll_hdlc_idle_timeout first now_us) (poll_hdlc_idle_timeout second now_us) := by
  have hsame := h
  simp only [SameRx, LoopState.rxHalf, RxHalf.mk.injEq] at h
  obtain ⟨hclock, haccumulator, hframe, hudp, hbytes, hok, hidle, hprogress, hstreak, hlast, hready, hrun⟩ := h
  unfold event_loop.poll_hdlc_idle_timeout
  simp only [haccumulator, hframe, hlast]
  split
  · simp only [SameRx, LoopState.rxHalf, AppCtx.resync, hclock, hudp, hbytes, hok, hidle, hprogress, hready, hrun]
  · exact hsame

theorem SameRx.decode_hdlc_to_udp_tx (h : SameRx first second) :
    SameRx (decode_hdlc_to_udp_tx first) (decode_hdlc_to_udp_tx second) := by
  simp only [SameRx, LoopState.rxHalf, RxHalf.mk.injEq] at h
  obtain ⟨hclock, haccumulator, hframe, hudp, hbytes, hok, hidle, hprogress, hstreak, hlast, hready, hrun⟩ := h
  unfold event_loop.decode_hdlc_to_udp_tx
  simp only [hframe]
  split
  · simp only [SameRx, LoopState.rxHalf, acceptDecoded, hclock, haccumulator, hudp, hbytes, hok, hidle, hprogress,
      hlast, hrun]
  · unfold rejectDecoded
    simp only [hstreak]
    split <;>
      simp only [SameRx, LoopState.rxHalf, hclock, haccumulator, hudp, hbytes, hok, hidle, hprogress, hlast, hrun]

theorem SameRx.drain_hdlc_frames_to_udp (h : SameRx first second) :
    SameRx (drain_hdlc_frames_to_udp first) (drain_hdlc_frames_to_udp second) := by
  refine Loop.Terminating.run_related ?_ h
  intro first second h
  change Sum.LiftRel SameRx SameRx (drainTurn first) (drainTurn second)
  simp only [SameRx, LoopState.rxHalf, RxHalf.mk.injEq] at h
  obtain ⟨hclock, haccumulator, hframe, hudp, hbytes, hok, hidle, hprogress, hstreak, hlast, hready, hrun⟩ := h
  have hpolled : ∀ (accumulator : HdlcSyncAccumulator) (reconstructed_frame : HdlcFrame),
      SameRx { first with app := { first.app with accumulator, reconstructed_frame } }
        { second with app := { second.app with accumulator, reconstructed_frame } } := by
    intro accumulator reconstructed_frame
    simp only [SameRx, LoopState.rxHalf, hclock, hudp, hbytes, hok, hidle, hprogress, hstreak, hlast, hready, hrun]
  unfold drainTurn
  simp only [haccumulator, hframe]
  split
  · exact .inl (SameRx.decode_hdlc_to_udp_tx (hpolled _ _))
  · split
    · exact .inr (hpolled _ _)
    · exact .inr (hpolled _ _)

theorem SameRx.poll_hdlc_no_progress (h : SameRx first second) :
    SameRx (poll_hdlc_no_progress first) (poll_hdlc_no_progress second) := by
  simp only [SameRx, LoopState.rxHalf, RxHalf.mk.injEq] at h
  obtain ⟨hclock, haccumulator, hframe, hudp, hbytes, hok, hidle, hprogress, hstreak, hlast, hready, hrun⟩ := h
  unfold event_loop.poll_hdlc_no_progress
  simp only [hclock, haccumulator, hframe, hbytes, hok, hready]
  split_ifs <;>
    simp only [SameRx, LoopState.rxHalf, AppCtx.resync, hclock, haccumulator, hframe, hudp, hbytes, hok, hidle,
      hprogress, hstreak, hlast, hrun]

/-- The transmit half leaves the receive half alone. -/
theorem rxHalf_serveTransmit (state : LoopState σ) (datagram : Option (List UInt8)) :
    (serveTransmit hw state datagram).rxHalf = state.rxHalf := by
  have hthrottle : (update_udp_rx_throttle_state (pollTxPipeline hw state)).rxHalf = state.rxHalf := by
    have hpipeline : (pollTxPipeline hw state).rxHalf = state.rxHalf := by
      unfold pollTxPipeline
      simp only [LoopState.rxHalf]
      split <;> rfl
    rw [← hpipeline]
    unfold update_udp_rx_throttle_state
    simp only
    split_ifs <;> rfl
  unfold serveTransmit
  generalize update_udp_rx_throttle_state (pollTxPipeline hw state) = throttled at hthrottle ⊢
  simp only
  split
  · rw [← hthrottle]
    unfold poll_and_enqueue_udp_rx
    cases datagram with
    | none => rfl
    | some payload =>
      simp only
      split_ifs <;> rfl
  · exact hthrottle

theorem rxHalf_finishIteration (state : LoopState σ) {input : LoopInput} (hkeeps : KeepsSettings input.events) :
    (finishIteration hw state input).rxHalf = state.rxHalf := by
  have hstall : (countRxStall (update_statistics state) input.rx_stall).rxHalf = state.rxHalf := by
    unfold countRxStall
    split <;> rfl
  rw [finishIteration, poll_and_dispatch_events_of_other hkeeps]
  exact hstall

/-- The receive half of an iteration takes nothing from the transmit half. -/
theorem SameRx.iteration {hw' : TxHardware τ} (h : SameRx first second) {input input' : LoopInput}
    (hkeeps : KeepsSettings input.events) (hkeeps' : KeepsSettings input'.events)
    (hserial : input.serial = input'.serial) :
    SameRx (event_loop_iteration hw first input) (event_loop_iteration hw' second input') := by
  simp only [LoopInput.serial, LoopInput.mk.injEq] at hserial
  obtain ⟨hearly, hearly_us, -, hrx, hnow_us, -⟩ := hserial
  have hbefore : SameRx (beforeDrain hw first input) (beforeDrain hw' second input') := by
    rw [SameRx, beforeDrain, rxHalf_serveTransmit, beforeDrain, rxHalf_serveTransmit, hearly, hearly_us]
    exact (h.drain_rx_until_empty _).update_rx_drain_stats _ _
  have hframes : SameRx (beforeFrames hw first input) (beforeFrames hw' second input') := by
    rw [beforeFrames, beforeFrames, hrx, hnow_us]
    exact ((hbefore.drain_rx_until_empty _).update_rx_drain_stats _ _).poll_hdlc_idle_timeout _
  rw [event_loop_iteration_eq, event_loop_iteration_eq, SameRx, rxHalf_finishIteration _ hkeeps,
    rxHalf_finishIteration _ hkeeps']
  exact hframes.drain_hdlc_frames_to_udp.poll_hdlc_no_progress

theorem SameRx.run {hw' : TxHardware τ} (h : SameRx first second) {inputs inputs' : List LoopInput}
    (hkeeps : ∀ input ∈ inputs, KeepsSettings input.events) (hkeeps' : ∀ input ∈ inputs', KeepsSettings input.events)
    (hserial : inputs.map LoopInput.serial = inputs'.map LoopInput.serial) :
    SameRx (event_loop_run hw first inputs) (event_loop_run hw' second inputs') := by
  unfold event_loop_run
  induction inputs generalizing first second inputs' with
  | nil =>
    rw [List.map_nil] at hserial
    rw [List.map_eq_nil_iff.mp hserial.symm]
    exact h
  | cons input inputs ih =>
    cases inputs' with
    | nil => cases hserial
    | cons input' inputs' =>
      simp only [List.map_cons, List.cons.injEq] at hserial
      exact ih (h.iteration (hkeeps input List.mem_cons_self) (hkeeps' input' List.mem_cons_self) hserial.1)
        (fun later hmem => hkeeps later (List.mem_cons_of_mem _ hmem))
        (fun later hmem => hkeeps' later (List.mem_cons_of_mem _ hmem)) hserial.2

end

/-- The bridge is full duplex: while the settings stay as they are, what the
transmit half does depends on the datagrams alone, and what the receive half does
on the serial bytes and their times alone, whatever the transmitter does. -/
theorem full_duplex (hw : TxHardware σ) (hw' : TxHardware τ) (v24_config : V24Config)
    (tx_rts_holdoff_us tx_rts_holdoff_us' : Nat) (pio : σ) (pio' : τ) {inputs inputs' : List LoopInput}
    (hkeeps : ∀ input ∈ inputs, KeepsSettings input.events) (hkeeps' : ∀ input ∈ inputs', KeepsSettings input.events) :
    (inputs.map (·.datagram) = inputs'.map (·.datagram) →
      (event_loop_run hw (.boot v24_config tx_rts_holdoff_us pio) inputs).txHalf =
        (event_loop_run hw (.boot v24_config tx_rts_holdoff_us pio) inputs').txHalf) ∧
    (inputs.map LoopInput.serial = inputs'.map LoopInput.serial →
      (event_loop_run hw (.boot v24_config tx_rts_holdoff_us pio) inputs).rxHalf =
        (event_loop_run hw' (.boot v24_config tx_rts_holdoff_us' pio') inputs').rxHalf) := by
  constructor
  · intro hdatagrams
    rw [txHalf_event_loop_run _ hkeeps, txHalf_event_loop_run _ hkeeps', hdatagrams]
  · intro hserial
    have hboot : SameRx (LoopState.boot v24_config tx_rts_holdoff_us pio)
        (LoopState.boot v24_config tx_rts_holdoff_us' pio') := rfl
    exact hboot.run hkeeps hkeeps' hserial

/-- An iteration with traffic in both directions, and in one of them. -/
theorem full_duplex_one :
    (event_loop_run txLine (.boot { baudrate := 9600, external_clock := false } 4305 (.boot []))
        [{ LoopInput.idle with datagram := some [2], rx := [0x7E, 2, 0xC1] }]).txHalf =
      (event_loop_run txLine (.boot { baudrate := 9600, external_clock := false } 4305 (.boot []))
        [{ LoopInput.idle with datagram := some [2] }]).txHalf ∧
    (event_loop_run txLine (.boot { baudrate := 9600, external_clock := false } 4305 (.boot []))
        [{ LoopInput.idle with datagram := some [2], rx := [0x7E, 2, 0xC1] }]).rxHalf =
      (event_loop_run txLine (.boot { baudrate := 9600, external_clock := false } 200 (.boot []))
        [{ LoopInput.idle with rx := [0x7E, 2, 0xC1] }]).rxHalf :=
  ⟨(full_duplex txLine txLine { baudrate := 9600, external_clock := false } 4305 200 (.boot []) (.boot [])
      (by decide) (by decide)).1 rfl,
    (full_duplex txLine txLine { baudrate := 9600, external_clock := false } 4305 200 (.boot []) (.boot [])
      (by decide) (by decide)).2 rfl⟩

end ether2ser.event_loop
