import Ether2Ser.System.EventLoop

open ether2ser.error ether2ser.hdlc ether2ser.hdlc_common ether2ser.hdlc_sync ether2ser.pio_tx_rx_driver
open ether2ser.tx_queue

namespace ether2ser.event_loop

variable {σ : Type} {hw : TxHardware σ}

/-- What the loop keeps about the datagrams on their way to the serial line. -/
structure TxLedger where
  tx_queue : TxQueue
  udp_rx_frames : Nat
  hdlc_tx_frames : Nat
  tx_queue_drop_frames : Nat
  enqueue_results : List E2sError

def LoopState.ledger (state : LoopState σ) : TxLedger where
  tx_queue := state.app.tx_queue
  udp_rx_frames := state.app.stats.udp_rx_frames
  hdlc_tx_frames := state.app.stats.hdlc_tx_frames
  tx_queue_drop_frames := state.app.stats.tx_queue_drop_frames
  enqueue_results := state.app.enqueue_results

theorem ledger_receiveByte (state : LoopState σ) (rx_byte : UInt8) :
    (receiveByte state rx_byte).ledger = state.ledger := by
  unfold receiveByte
  simp only
  split
  · rfl
  · split <;> rfl

theorem ledger_drain_rx_until_empty (state : LoopState σ) (rx : List UInt8) :
    (drain_rx_until_empty state rx).ledger = state.ledger := by
  unfold drain_rx_until_empty
  induction rx generalizing state with
  | nil => rfl
  | cons rx_byte rx ih => exact (ih _).trans (ledger_receiveByte state rx_byte)

theorem ledger_poll_hdlc_idle_timeout (state : LoopState σ) (now_us : Nat) :
    (poll_hdlc_idle_timeout state now_us).ledger = state.ledger := by
  unfold poll_hdlc_idle_timeout
  simp only
  split <;> rfl

theorem ledger_decode_hdlc_to_udp_tx (state : LoopState σ) : (decode_hdlc_to_udp_tx state).ledger = state.ledger := by
  unfold decode_hdlc_to_udp_tx
  simp only
  split
  · rfl
  · unfold rejectDecoded
    simp only
    split <;> rfl

theorem ledger_drainTurn_inl {state next : LoopState σ} (hturn : drainTurn state = .inl next) :
    next.ledger = state.ledger := by
  unfold drainTurn at hturn
  simp only at hturn
  split at hturn
  · cases hturn
    exact ledger_decode_hdlc_to_udp_tx _
  · split at hturn <;> cases hturn

theorem ledger_drainTurn_inr {state last : LoopState σ} (hturn : drainTurn state = .inr last) :
    last.ledger = state.ledger := by
  unfold drainTurn at hturn
  simp only at hturn
  split at hturn
  · cases hturn
  · split at hturn
    · cases hturn
      rfl
    · cases hturn
      rfl

theorem ledger_drain_hdlc_frames_to_udp (state : LoopState σ) :
    (drain_hdlc_frames_to_udp state).ledger = state.ledger := by
  obtain ⟨last, hlast, hexit⟩ := framesLoop.exists_exit (fun turn : LoopState σ => turn.ledger = state.ledger)
    (fun turn next hturn hbody => (ledger_drainTurn_inl hbody).trans hturn) rfl
  exact (ledger_drainTurn_inr hexit).trans hlast

theorem ledger_poll_hdlc_no_progress (state : LoopState σ) : (poll_hdlc_no_progress state).ledger = state.ledger := by
  unfold poll_hdlc_no_progress
  simp only
  split_ifs <;> rfl

/-- An event changes only the V.24 settings and the driver. -/
theorem event_dispatch_frame (app : AppCtx σ) (event : DataPathEvent) :
    ∃ v24_config driver, event_dispatch hw app event = { app with v24_config, driver } := by
  cases event with
  | set_v24_baudrate baudrate =>
    unfold event_dispatch
    simp only
    split <;> exact ⟨_, _, rfl⟩
  | set_v24_polarities => exact ⟨app.v24_config, _, rfl⟩
  | set_v24_clock_mode external_clock =>
    unfold event_dispatch
    simp only
    split <;> exact ⟨_, _, rfl⟩
  | other => exact ⟨app.v24_config, app.driver, rfl⟩

theorem foldl_event_dispatch_frame (events : List DataPathEvent) (app : AppCtx σ) :
    ∃ v24_config driver, events.foldl (event_dispatch hw) app = { app with v24_config, driver } := by
  induction events generalizing app with
  | nil => exact ⟨app.v24_config, app.driver, rfl⟩
  | cons event events ih =>
    obtain ⟨v24_config, driver, hevent⟩ := @event_dispatch_frame σ hw app event
    obtain ⟨v24_config', driver', hevents⟩ := ih (event_dispatch hw app event)
    exact ⟨v24_config', driver', by rw [List.foldl_cons, hevents, hevent]⟩

theorem ledger_foldl_event_dispatch (app : AppCtx σ) (runtime : EventLoopRuntime) (events : List DataPathEvent) :
    (LoopState.mk (events.foldl (event_dispatch hw) app) runtime).ledger = (LoopState.mk app runtime).ledger := by
  obtain ⟨v24_config, driver, hevents⟩ := @foldl_event_dispatch_frame σ hw events app
  rw [hevents]
  rfl

/-- Nothing that came in was dropped, and the queue is at most at its high
watermark. -/
structure NothingDropped (ledger : TxLedger) : Prop where
  keeps : ∃ waiting, Keeps ledger.tx_queue waiting ∧ waiting.length ≤ TX_QUEUE_HIGH_WM
  all_ok : ∀ result ∈ ledger.enqueue_results, result = .E2S_OK
  frames_eq : ledger.udp_rx_frames = ledger.hdlc_tx_frames
  no_drop : ledger.tx_queue_drop_frames = 0

theorem NothingDropped.count_le {ledger : TxLedger} (h : NothingDropped ledger) :
    tx_queue_get_count ledger.tx_queue ≤ TX_QUEUE_HIGH_WM := by
  obtain ⟨waiting, hkeeps, hle⟩ := h.keeps
  exact hkeeps.count_eq.trans_le hle

/-- A drain takes at most one frame out of the ring buffer. -/
theorem DrainStep.length_le {queue : TxQueue} {waiting rest : List (List UInt8)} {bytes_to_drain : Nat}
    {driver : TxDriver σ} {result : Nat × TxQueue × TxDriver σ}
    (hstep : DrainStep hw queue waiting bytes_to_drain driver result rest) : rest.length ≤ waiting.length := by
  cases hstep with
  | restart _ => exact Nat.le_refl _
  | idle _ _ => exact Nat.le_refl _
  | send hserves _ _ =>
    cases hserves with
    | current _ => exact Nat.le_refl _
    | next _ hwaiting _ =>
      rw [hwaiting]
      exact Nat.le_succ _

theorem NothingDropped.pollTxPipeline {state : LoopState σ} (h : NothingDropped state.ledger) :
    NothingDropped (pollTxPipeline hw state).ledger := by
  obtain ⟨waiting, hkeeps, hle⟩ := h.keeps
  obtain ⟨rest, hstep, hrest⟩ := @Keeps.drain σ hw _ _ hkeeps.poll_queue_stats TX_QUEUE_DRAIN_CHUNK_SIZE
    state.app.driver
  have hqueue : (poll_tx_pipeline hw state.app.tx_queue state.app.driver).2.1 =
      (tx_queue_drain hw (poll_queue_stats state.app.tx_queue) TX_QUEUE_DRAIN_CHUNK_SIZE state.app.driver).2.1 := by
    unfold poll_tx_pipeline
    simp only
    split <;> rfl
  refine ⟨⟨rest, ?_, (DrainStep.length_le hstep).trans hle⟩, h.all_ok, h.frames_eq, h.no_drop⟩
  simp only [event_loop.pollTxPipeline, LoopState.ledger]
  rw [hqueue]
  exact hrest

theorem ledger_update_udp_rx_throttle_state (state : LoopState σ) :
    (update_udp_rx_throttle_state state).ledger = state.ledger := by
  unfold update_udp_rx_throttle_state
  simp only
  split_ifs <;> rfl

/-- The hysteresis lets a datagram in only below the high watermark. -/
theorem count_lt_of_not_throttled {state : LoopState σ}
    (hopen : (update_udp_rx_throttle_state state).runtime.udp_rx_throttled = false) :
    tx_queue_get_count state.app.tx_queue < TX_QUEUE_HIGH_WM := by
  unfold update_udp_rx_throttle_state at hopen
  simp only at hopen
  split at hopen
  · simp at hopen
  · rename_i hbelow
    split at hopen
    · rename_i hlow
      exact Nat.lt_of_le_of_lt hlow.2 (by decide)
    · rw [hopen] at hbelow
      simpa using hbelow

/-- The largest datagram without IP fragmentation. -/
def MAX_UDP_PAYLOAD : Nat := 1472

theorem NothingDropped.poll_and_enqueue {state : LoopState σ} {datagram : Option (List UInt8)}
    (h : NothingDropped state.ledger) (hroom : tx_queue_get_count state.app.tx_queue < TX_QUEUE_HIGH_WM)
    (hsize : ∀ payload, datagram = some payload → payload.length ≤ MAX_UDP_PAYLOAD) :
    NothingDropped (poll_and_enqueue_udp_rx state datagram).ledger := by
  obtain ⟨waiting, hkeeps, hle⟩ := h.keeps
  unfold poll_and_enqueue_udp_rx
  cases datagram with
  | none => exact h
  | some payload =>
    have hcount : waiting.length < TX_QUEUE_HIGH_WM := hkeeps.count_eq ▸ hroom
    obtain ⟨queue, hok, -, hnext, -⟩ | ⟨error, -, -, htoo_long⟩ := hkeeps.enqueue payload
    · have hresult : tx_queue_enqueue_udp_frame state.app.tx_queue payload = (.E2S_OK, queue) := hok
      simp only [hresult, if_true]
      refine ⟨⟨_, hnext, ?_⟩, ?_, ?_, h.no_drop⟩
      · rw [List.length_append, List.length_singleton]
        exact hcount
      · intro result hmem
        rcases List.mem_append.mp hmem with hmem | hmem
        · exact h.all_ok result hmem
        · exact List.mem_singleton.mp hmem
      · exact congrArg (· + 1) h.frames_eq
    · have hlong := htoo_long (hcount.trans (by decide))
      have hbound := length_encodedFrame_le true payload
      have hpayload := hsize payload rfl
      simp only [TX_FRAME_MAX_SIZE_BYTE, MAX_UDP_PAYLOAD] at hlong hpayload
      omega

theorem NothingDropped.serveTransmit {state : LoopState σ} {datagram : Option (List UInt8)}
    (h : NothingDropped state.ledger)
    (hsize : ∀ payload, datagram = some payload → payload.length ≤ MAX_UDP_PAYLOAD) :
    NothingDropped (serveTransmit hw state datagram).ledger := by
  have hthrottle : NothingDropped (update_udp_rx_throttle_state (event_loop.pollTxPipeline hw state)).ledger := by
    rw [ledger_update_udp_rx_throttle_state]
    exact h.pollTxPipeline
  have hroom : (update_udp_rx_throttle_state (event_loop.pollTxPipeline hw state)).runtime.udp_rx_throttled = false →
      tx_queue_get_count (update_udp_rx_throttle_state (event_loop.pollTxPipeline hw state)).app.tx_queue <
        TX_QUEUE_HIGH_WM := by
    intro hopen
    have hqueue := congrArg TxLedger.tx_queue
      (ledger_update_udp_rx_throttle_state (event_loop.pollTxPipeline hw state))
    simp only [LoopState.ledger] at hqueue
    rw [hqueue]
    exact count_lt_of_not_throttled hopen
  unfold event_loop.serveTransmit
  simp only
  generalize update_udp_rx_throttle_state (event_loop.pollTxPipeline hw state) = throttled at hthrottle hroom ⊢
  split
  · rename_i hopen
    exact hthrottle.poll_and_enqueue (hroom (by simpa using hopen)) hsize
  · exact ⟨hthrottle.keeps, hthrottle.all_ok, hthrottle.frames_eq, hthrottle.no_drop⟩

theorem ledger_update_rx_drain_stats (state : LoopState σ) (rx_drained now_us : Nat) :
    (update_rx_drain_stats state rx_drained now_us).ledger = state.ledger := rfl

theorem ledger_update_statistics (state : LoopState σ) : (update_statistics state).ledger = state.ledger := rfl

theorem ledger_countRxStall (state : LoopState σ) (rx_stall : Bool) :
    (countRxStall state rx_stall).ledger = state.ledger := by
  unfold countRxStall
  split <;> rfl

theorem ledger_work_done (state : LoopState σ) (work_done : Bool) :
    LoopState.ledger { state with runtime := { state.runtime with work_done } } = state.ledger := rfl

theorem ledger_poll_and_dispatch_events (state : LoopState σ) (events : List DataPathEvent) :
    (poll_and_dispatch_events hw state events).ledger = state.ledger :=
  ledger_foldl_event_dispatch state.app state.runtime _

/-- Outside the transmit half, an iteration leaves the ledger alone. -/
theorem ledger_event_loop_iteration (state : LoopState σ) (input : LoopInput) :
    (event_loop_iteration hw state input).ledger =
      (serveTransmit hw (update_rx_drain_stats (drain_rx_until_empty state input.rx_early) input.rx_early.length
        input.early_us) input.datagram).ledger := by
  unfold event_loop_iteration
  simp only
  rw [ledger_work_done, ledger_poll_and_dispatch_events, ledger_countRxStall, ledger_update_statistics,
    ledger_poll_hdlc_no_progress, ledger_drain_hdlc_frames_to_udp, ledger_poll_hdlc_idle_timeout,
    ledger_update_rx_drain_stats, ledger_drain_rx_until_empty]

theorem NothingDropped.iteration {state : LoopState σ} {input : LoopInput} (h : NothingDropped state.ledger)
    (hsize : ∀ payload, input.datagram = some payload → payload.length ≤ MAX_UDP_PAYLOAD) :
    NothingDropped (event_loop_iteration hw state input).ledger := by
  rw [ledger_event_loop_iteration]
  refine NothingDropped.serveTransmit ?_ hsize
  have hdrained := ledger_drain_rx_until_empty state input.rx_early
  rw [← hdrained] at h
  exact ⟨h.keeps, h.all_ok, h.frames_eq, h.no_drop⟩

theorem nothingDropped_run {state : LoopState σ} {inputs : List LoopInput} (h : NothingDropped state.ledger)
    (hsize : ∀ input ∈ inputs, ∀ payload, input.datagram = some payload → payload.length ≤ MAX_UDP_PAYLOAD) :
    NothingDropped (event_loop_run hw state inputs).ledger := by
  unfold event_loop_run
  induction inputs generalizing state with
  | nil => exact h
  | cons input inputs ih =>
    exact ih (h.iteration (hsize input List.mem_cons_self))
      (fun other hmem => hsize other (List.mem_cons_of_mem _ hmem))

theorem nothingDropped_boot (v24_config : V24Config) (tx_rts_holdoff_us : Nat) (pio : σ) :
    NothingDropped (LoopState.boot v24_config tx_rts_holdoff_us pio).ledger where
  keeps := ⟨[], keeps_tx_queue_init, Nat.zero_le _⟩
  all_ok := by simp [LoopState.boot, LoopState.ledger]
  frames_eq := rfl
  no_drop := rfl

/-- No accepted datagram is lost on the way to the serial queue: after every run
of the loop, and in the middle of its next iteration, the ring buffer is within
the high watermark and every enqueue has succeeded. -/
theorem no_datagram_dropped (hw : TxHardware σ) (v24_config : V24Config) (tx_rts_holdoff_us : Nat) (pio : σ)
    (inputs : List LoopInput)
    (hsize : ∀ input ∈ inputs, ∀ payload, input.datagram = some payload → payload.length ≤ MAX_UDP_PAYLOAD) :
    let state := event_loop_run hw (.boot v24_config tx_rts_holdoff_us pio) inputs
    tx_queue_get_count state.app.tx_queue ≤ TX_QUEUE_HIGH_WM ∧
      (∀ rx_early, tx_queue_get_count (pollTxPipeline hw (drain_rx_until_empty state rx_early)).app.tx_queue ≤
        TX_QUEUE_HIGH_WM) ∧
      (∀ result ∈ state.app.enqueue_results, result = .E2S_OK) ∧
      state.app.stats.udp_rx_frames = state.app.stats.hdlc_tx_frames ∧ state.app.stats.tx_queue_drop_frames = 0 := by
  intro state
  have hrun : NothingDropped state.ledger :=
    nothingDropped_run (nothingDropped_boot v24_config tx_rts_holdoff_us pio) hsize
  refine ⟨hrun.count_le, ?_, hrun.all_ok, hrun.frames_eq, hrun.no_drop⟩
  intro rx_early
  rw [← ledger_drain_rx_until_empty state rx_early] at hrun
  exact hrun.pollTxPipeline.count_le

/-- An iteration in which nothing arrives. -/
def LoopInput.idle : LoopInput where
  rx_early := []
  early_us := 0
  datagram := none
  rx := []
  now_us := 0
  rx_stall := false
  events := []

/-- One datagram, and an iteration that starts to send it. -/
theorem no_datagram_dropped_one :
    let state := event_loop_run txLine (.boot { baudrate := 9600, external_clock := true } 4305 (.boot []))
      [{ LoopInput.idle with datagram := some [2] }, .idle]
    state.app.enqueue_results = [.E2S_OK] ∧ state.app.stats.udp_rx_frames = state.app.stats.hdlc_tx_frames :=
  ⟨by decide +kernel, (no_datagram_dropped txLine _ _ _ _ (by decide)).2.2.2.1⟩

end ether2ser.event_loop
