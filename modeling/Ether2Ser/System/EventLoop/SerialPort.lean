import Mathlib.Data.List.ReduceOption
import Ether2Ser.Drivers.PioTxRx.InTime
import Ether2Ser.Hdlc.Stream.Held
import Ether2Ser.System.EventLoop.Batches

open Bits Signals
open ether2ser.hdlc ether2ser.hdlc_common ether2ser.hdlc_sync ether2ser.pio_tx_rx_driver ether2ser.tx_queue

namespace ether2ser.event_loop

variable {σ : Type} {hw : TxHardware σ}

/-- What an iteration meets, with the serial port in place of the bytes that are
read: in both drains a sample of the line, or a call of `rx_get`, one after the
other, and the samples until the stall flag is looked at. -/
structure PortInput where
  early : List (Option Line)
  early_us : Nat
  datagram : Option (List UInt8)
  drain : List (Option Line)
  now_us : Nat
  late : List Line
  events : List DataPathEvent
  deriving DecidableEq, Repr

def PortInput.lines (input : PortInput) : List Line := (input.early ++ input.drain).reduceOption ++ input.late

def drainAction : Option Line → RxAction
  | some line => .sample line
  | none => .rx_get

/-- The bytes that are read in some actions. -/
def readBy (rx : RxWorld) (actions : List RxAction) : List UInt8 := (rx.run actions).received.drop rx.received.length

/-- The loop and the receiver that it reads. -/
structure SerialLoop (σ : Type) where
  rx : RxWorld
  loop : LoopState σ

/-- What the loop meets when `rx_clock_poll_stall` has the given result. -/
def SerialLoop.input (port : SerialLoop σ) (input : PortInput) (rx_stall : Bool) : LoopInput where
  rx_early := readBy port.rx (input.early.map drainAction)
  early_us := input.early_us
  datagram := input.datagram
  rx := readBy (port.rx.run (input.early.map drainAction)) (input.drain.map drainAction)
  now_us := input.now_us
  rx_stall := rx_stall
  events := input.events

/-- `poll_hdlc_no_progress` gives up, which resets the receiver. -/
def SerialLoop.givesUp (hw : TxHardware σ) (port : SerialLoop σ) (input : PortInput) : Bool :=
  let state := drain_hdlc_frames_to_udp (beforeFrames hw port.loop (port.input input false))
  (poll_hdlc_no_progress state).app.stats.resync_no_progress_count != state.app.stats.resync_no_progress_count

/-- What happens to the receiver in an iteration until its stall flag is looked
at. -/
def SerialLoop.actions (hw : TxHardware σ) (port : SerialLoop σ) (input : PortInput) : List RxAction :=
  (input.early.map drainAction ++ input.drain.map drainAction) ++
    ((if port.givesUp hw input then [.rx_clock_hard_reset] else []) ++ input.late.map .sample)

/-- What the loop meets in an iteration. -/
def SerialLoop.met (hw : TxHardware σ) (port : SerialLoop σ) (input : PortInput) : LoopInput :=
  port.input input (rx_clock_poll_stall (port.rx.run (port.actions hw input)).rx).1

def serialIteration (hw : TxHardware σ) (port : SerialLoop σ) (input : PortInput) : SerialLoop σ where
  rx := (port.rx.run (port.actions hw input)).step .rx_clock_poll_stall
  loop := event_loop_iteration hw port.loop (port.met hw input)

def serialRun (hw : TxHardware σ) (port : SerialLoop σ) (inputs : List PortInput) : SerialLoop σ :=
  inputs.foldl (serialIteration hw) port

/-- What the loop meets in a run, and what happens to the receiver. -/
def metInputs (hw : TxHardware σ) (port : SerialLoop σ) : List PortInput → List LoopInput
  | [] => []
  | input :: inputs => port.met hw input :: metInputs hw (serialIteration hw port input) inputs

def portActions (hw : TxHardware σ) (port : SerialLoop σ) : List PortInput → List RxAction
  | [] => []
  | input :: inputs =>
    port.actions hw input ++ .rx_clock_poll_stall :: portActions hw (serialIteration hw port input) inputs

theorem serialRun_eq (port : SerialLoop σ) (inputs : List PortInput) :
    serialRun hw port inputs =
      { rx := port.rx.run (portActions hw port inputs)
        loop := event_loop_run hw port.loop (metInputs hw port inputs) } := by
  unfold serialRun
  induction inputs generalizing port with
  | nil => rfl
  | cons input inputs ih =>
    rw [List.foldl_cons, ih, portActions, metInputs]
    rw [RxWorld.run, RxWorld.run, List.foldl_append]
    rfl

theorem filterMap_line?_drainAction (drain : List (Option Line)) :
    (drain.map drainAction).filterMap RxAction.line? = drain.reduceOption := by
  rw [List.filterMap_map]
  apply List.filterMap_congr
  intro action _
  cases action <;> rfl

theorem filterMap_line?_actions (port : SerialLoop σ) (input : PortInput) :
    (port.actions hw input).filterMap RxAction.line? = input.lines := by
  have hlate : (input.late.map RxAction.sample).filterMap RxAction.line? = input.late := by
    rw [List.filterMap_map]
    exact List.filterMap_some
  have hreset : (if port.givesUp hw input then [RxAction.rx_clock_hard_reset] else []).filterMap RxAction.line? =
      [] := by
    split <;> rfl
  rw [SerialLoop.actions, List.filterMap_append, List.filterMap_append, List.filterMap_append,
    filterMap_line?_drainAction, filterMap_line?_drainAction, hreset, hlate, PortInput.lines, List.reduceOption_append]
  rfl

theorem filterMap_line?_portActions (port : SerialLoop σ) (inputs : List PortInput) :
    (portActions hw port inputs).filterMap RxAction.line? = inputs.flatMap PortInput.lines := by
  induction inputs generalizing port with
  | nil => rfl
  | cons input inputs ih =>
    rw [portActions, List.filterMap_append, filterMap_line?_actions, List.flatMap_cons, ← ih]
    rfl

/-- Without a reset, what has been received is only added to. -/
theorem received_run (world : RxWorld) {actions : List RxAction} (hreset : .rx_clock_hard_reset ∉ actions) :
    (world.run actions).received = world.received ++ readBy world actions := by
  have hprefix : world.received <+: (world.run actions).received := by
    induction actions generalizing world with
    | nil => exact List.prefix_refl _
    | cons action actions ih =>
      rw [List.mem_cons, not_or] at hreset
      refine List.IsPrefix.trans ?_ (ih (world.step action) hreset.2)
      cases action with
      | sample line => exact List.prefix_refl _
      | rx_get =>
        unfold RxWorld.step
        dsimp only
        split
        · exact List.prefix_refl _
        · exact List.prefix_append _ _
      | rx_clock_poll_stall => exact List.prefix_refl _
      | rx_clock_hard_reset => exact absurd rfl hreset.1
  obtain ⟨read, hread⟩ := hprefix
  rw [readBy, ← hread, List.drop_left]

theorem received_run_samples (world : RxWorld) (lines : List Line) :
    (world.run (lines.map .sample)).received = world.received := by
  induction lines generalizing world with
  | nil => rfl
  | cons line lines ih => exact ih (world.step (.sample line))

theorem hard_reset_not_mem_drain (drain : List (Option Line)) : .rx_clock_hard_reset ∉ drain.map drainAction := by
  rw [List.mem_map]
  rintro ⟨action, -, hreset⟩
  cases action <;> cases hreset

/-- An iteration that counts no resync leaves the receiver running. -/
theorem Undisturbed.givesUp_eq_false {port : SerialLoop σ} {input : PortInput}
    (h : Undisturbed hw port.loop (port.met hw input)) : port.givesUp hw input = false := by
  obtain ⟨ready_bytes, hready⟩ := h.no_give_up
  change poll_hdlc_no_progress (drain_hdlc_frames_to_udp (beforeFrames hw port.loop (port.input input false))) = _
    at hready
  rw [SerialLoop.givesUp]
  simp only [hready]
  exact bne_self_eq_false' _

/-- What the loop meets is what is received. -/
theorem Undisturbed.received {port : SerialLoop σ} {input : PortInput}
    (h : Undisturbed hw port.loop (port.met hw input)) :
    .rx_clock_hard_reset ∉ port.actions hw input ∧
      (serialIteration hw port input).rx.received =
        port.rx.received ++ ((port.met hw input).rx_early ++ (port.met hw input).rx) := by
  have hactions : port.actions hw input =
      input.early.map drainAction ++ (input.drain.map drainAction ++ input.late.map .sample) := by
    rw [SerialLoop.actions, h.givesUp_eq_false]
    exact List.append_assoc ..
  have hearly := hard_reset_not_mem_drain input.early
  have hdrain := hard_reset_not_mem_drain input.drain
  refine ⟨?_, ?_⟩
  · rw [hactions, List.mem_append, List.mem_append, not_or, not_or]
    refine ⟨hearly, hdrain, ?_⟩
    rw [List.mem_map]
    rintro ⟨line, -, hreset⟩
    cases hreset
  · calc (serialIteration hw port input).rx.received
        = (((port.rx.run (input.early.map drainAction)).run (input.drain.map drainAction)).run
            (input.late.map .sample)).received := by
          simp only [serialIteration, hactions, RxWorld.step, RxWorld.run, List.foldl_append]
      _ = port.rx.received ++ (readBy port.rx (input.early.map drainAction) ++
            readBy (port.rx.run (input.early.map drainAction)) (input.drain.map drainAction)) := by
          rw [received_run_samples, received_run _ hdrain, received_run _ hearly, List.append_assoc]

/-- A run that counts no resync never resets the receiver, and the loop meets all
that is received. -/
theorem received_serialRun {port : SerialLoop σ} {inputs : List PortInput}
    (hkeeps : ∀ input ∈ metInputs hw port inputs, KeepsSettings input.events)
    (hresyncs : (serialRun hw port inputs).loop.resyncs = port.loop.resyncs) :
    .rx_clock_hard_reset ∉ portActions hw port inputs ∧
      (serialRun hw port inputs).rx.received = port.rx.received ++ serialBytes (metInputs hw port inputs) := by
  induction inputs generalizing port with
  | nil => exact ⟨List.not_mem_nil, (List.append_nil _).symm⟩
  | cons input inputs ih =>
    rw [metInputs] at hkeeps
    rw [serialRun_eq, metInputs] at hresyncs
    obtain ⟨hundisturbed, hquiet⟩ := undisturbed_of_resyncs hkeeps hresyncs
    obtain ⟨hactions, hreceived⟩ := hundisturbed.received
    obtain ⟨hreset, hread⟩ := @ih (serialIteration hw port input)
      (fun later hmem => hkeeps later (List.mem_cons_of_mem _ hmem)) (by rw [serialRun_eq]; exact hquiet)
    refine ⟨?_, ?_⟩
    · rw [portActions, List.mem_append, List.mem_cons, not_or, not_or]
      exact ⟨hactions, RxAction.noConfusion, hreset⟩
    · change (serialRun hw (serialIteration hw port input) inputs).rx.received = _
      rw [hread, hreceived, metInputs, serialBytes, serialBytes, List.flatMap_cons, List.append_assoc]

theorem keepsSettings_metInputs (port : SerialLoop σ) {inputs : List PortInput}
    (hkeeps : ∀ input ∈ inputs, KeepsSettings input.events) :
    ∀ input ∈ metInputs hw port inputs, KeepsSettings input.events := by
  induction inputs generalizing port with
  | nil => exact fun _ hmem => absurd hmem List.not_mem_nil
  | cons input inputs ih =>
    rw [metInputs, List.forall_mem_cons]
    rw [List.forall_mem_cons] at hkeeps
    exact ⟨hkeeps.1, ih _ hkeeps.2⟩

/-- A run of the bridge from boot, by what it meets. -/
structure Reception (σ : Type) where
  v24_config : V24Config
  tx_rts_holdoff_us : Nat
  pio : σ
  inputs : List PortInput

def Reception.boot (r : Reception σ) : SerialLoop σ where
  rx := .boot
  loop := .boot r.v24_config r.tx_rts_holdoff_us r.pio

def Reception.last (hw : TxHardware σ) (r : Reception σ) : SerialLoop σ := serialRun hw r.boot r.inputs

def Reception.actions (hw : TxHardware σ) (r : Reception σ) : List RxAction := portActions hw r.boot r.inputs

def Reception.met (hw : TxHardware σ) (r : Reception σ) : List LoopInput := metInputs hw r.boot r.inputs

/-- The samples of the line. -/
def Reception.lines (r : Reception σ) : List Line := r.inputs.flatMap PortInput.lines

/-- The bytes that the loop has met, as the batches that its iterations receive. -/
def Reception.batches (hw : TxHardware σ) (r : Reception σ) : List (List UInt8) := (r.met hw).map LoopInput.batch

/-- The receiver can follow the line and is read in time, no setting of the serial
port changes, no resync is counted, and no poll meets the hard cap or the exhaustive
search. -/
structure Reception.Healthy (hw : TxHardware σ) (r : Reception σ) : Prop where
  keeps : ∀ input ∈ r.inputs, KeepsSettings input.events
  readable : (Reader.steady false).Readable r.lines
  in_time : RxWorld.boot.InTime 0 (r.actions hw)
  no_resync : (r.last hw).loop.resyncs = 0
  clear : ∀ accumulator ∈ polledAccumulators r.boot.loop (r.batches hw), PollClear accumulator

theorem Reception.Healthy.sound {r : Reception σ} (h : r.Healthy hw) :
    (r.last hw).rx.Sound (RxWorld.boot.sinceEmptyRun 0 (r.actions hw)) := by
  have hreadable := h.readable
  rw [lines, ← filterMap_line?_portActions r.boot] at hreadable
  have hsound := sound_boot.run hreadable h.in_time
  rw [last, serialRun_eq]
  exact hsound

/-- What the loop has met and what the receiver still holds are the data on the
line. -/
theorem Reception.Healthy.bits_eq {r : Reception σ} (h : r.Healthy hw) :
    bytesBits true (r.batches hw).flatten ++
        ((r.last hw).rx.rx.gathered rx_clock_config ++ (r.last hw).rx.reader.fallen.toList) =
      (Reader.steady false).bits r.lines := by
  obtain ⟨hreset, hreceived⟩ := received_serialRun (keepsSettings_metInputs _ h.keeps) h.no_resync
  have hcomplete := h.sound.complete.bits_eq
  obtain ⟨hbefore, hlines⟩ := lines_of_no_hard_reset hreset .boot
  rw [filterMap_line?_portActions] at hlines
  have hrun : (r.last hw).rx = RxWorld.boot.run (portActions hw r.boot r.inputs) := by
    rw [last, serialRun_eq]
    rfl
  rw [show (r.last hw).rx.received = _ from hreceived, congrArg RxWorld.before hrun, hbefore,
    congrArg RxWorld.lines hrun, hlines] at hcomplete
  exact hcomplete

/-- Where the bytes that the loop has met and some unread ones make a stream, its
payloads are sent in order, and all of them if nothing is unread. -/
theorem Reception.Healthy.sent {r : Reception σ} (h : r.Healthy hw) {ts : List (Transmission true)}
    {lastGap other : Nat} (hsize : ∀ t ∈ ts, t.frame.length ≤ HDLC_SYNC_MAX_REASONABLE_FRAME_SIZE_BYTES)
    (hidle : ∀ step ∈ (runSteps r.boot.loop (r.batches hw)).zipIdx, kept step.1 = false → IdleByte ts lastGap step.2)
    {unread : List UInt8} (hbits : bytesBits true ((r.batches hw).flatten ++ unread) = streamBits ts other) :
    (r.last hw).loop.app.udp_tx <+: ts.map (·.payload) ∧
      (unread = [] → (r.last hw).loop.app.udp_tx = ts.map (·.payload)) := by
  have hinside : ∀ step ∈ (runSteps r.boot.loop (r.batches hw)).zipIdx, kept step.1 = false →
      IdleByte ts other step.2 := by
    intro step hmem hdropped
    apply (hidle step hmem hdropped).of_gap
    have hlt := (List.getElem?_eq_some_iff.mp (List.mem_zipIdx_iff_getElem?.mp hmem)).1
    rw [length_runSteps] at hlt
    rw [← hbits, length_bytesBits, List.length_append]
    omega
  obtain ⟨ts', lastGap', hkept, hpayloads, hframes⟩ := exists_keptBatches_ahead hbits rfl hinside
  have hfits : ∀ t ∈ ts', t.frame.length ≤ HDLC_SYNC_MAX_REASONABLE_FRAME_SIZE_BYTES := by
    intro t hmem
    have hframe : t.frame ∈ ts.map (·.frame) := hframes ▸ List.mem_map_of_mem hmem
    obtain ⟨u, hu, hsame⟩ := List.mem_map.mp hframe
    rw [← hsame]
    exact hsize u hu
  have htracks : r.boot.loop.Tracks ((keptBatches r.boot.loop (r.batches hw)).flatten ++ unread) 0
      RX_HDLC_SYNC_MAX_BUFFER_SIZE (ts'.map (·.payload)) := LoopState.tracks_boot hkept hfits _ _ _ _
  obtain ⟨taken, rest, hsplit, hbehind, hsent⟩ := htracks.receiveBatches_ahead h.clear
  have hresyncs := h.no_resync
  rw [last, serialRun_eq] at hresyncs ⊢
  have hsame := SameFiltered.run ⟨⟨rfl, rfl, rfl, rfl⟩, rfl, rfl⟩ (keepsSettings_metInputs r.boot h.keeps) hresyncs
  have hudp : (event_loop_run hw r.boot.loop (metInputs hw r.boot r.inputs)).app.udp_tx = taken :=
    hsame.receive.udp_tx.trans hsent
  rw [hudp, ← hpayloads, hsplit]
  refine ⟨List.prefix_append _ _, fun hread => ?_⟩
  rw [hread] at hbehind
  rw [hdlc_sync.Tracks.payloads_eq_nil hbehind.line, List.append_nil]

/-- The payloads of a stream that the line carries are sent in order, and all of
them once enough of its last gap has been read over. -/
theorem Reception.Healthy.delivers {r : Reception σ} (h : r.Healthy hw) {ts : List (Transmission true)} {lastGap : Nat}
    {behind : List Bool} (hsize : ∀ t ∈ ts, t.frame.length ≤ HDLC_SYNC_MAX_REASONABLE_FRAME_SIZE_BYTES)
    (hline : (Reader.steady false).bits r.lines ++ behind = streamBits ts lastGap)
    (hidle : ∀ step ∈ (runSteps r.boot.loop (r.batches hw)).zipIdx, kept step.1 = false → IdleByte ts lastGap step.2) :
    (r.last hw).loop.app.udp_tx <+: ts.map (·.payload) ∧
      (pio_tx_rx_driver.CHAR_BIT + RxWorld.boot.sinceEmptyRun 0 (r.actions hw) + behind.length ≤ lastGap →
        (r.last hw).loop.app.udp_tx = ts.map (·.payload)) := by
  have hbits := h.bits_eq
  generalize hheld : (r.last hw).rx.rx.gathered rx_clock_config ++ (r.last hw).rx.reader.fallen.toList = held at hbits
  rw [← hbits, List.append_assoc] at hline
  refine ⟨?_, fun hover => ?_⟩
  · have hpadded : bytesBits true ((r.batches hw).flatten ++ packBits true (held ++ behind)) =
        streamBits ts (lastGap + padLength (held ++ behind).length) := by
      rw [bytesBits_append, bytesBits_packBits, ← List.append_assoc, hline, streamBits_append_replicate]
    exact (h.sent hsize hidle hpadded).1
  · have hlength : (held ++ behind).length ≤ lastGap := by
      have hpending := h.sound.pending_le
      rw [RxWorld.pending, ← List.length_append, hheld] at hpending
      rw [List.length_append]
      omega
    have hread : bytesBits true (r.batches hw).flatten = streamBits ts (lastGap - (held ++ behind).length) := by
      rw [← Nat.sub_add_cancel hlength, ← streamBits_append_replicate] at hline
      exact (List.append_inj' hline (by rw [List.length_replicate])).1
    rw [← List.append_nil (r.batches hw).flatten] at hread
    exact (h.sent hsize hidle hread).2 rfl

/-- The receive path from the line to UDP, on either clock: as long as the
reception is healthy and the idle filter drops idle bytes only, no stall is reported
and the payloads of the frames on the line are handed to `w5500_udp_tx` in order, all
of them once the loop has read over enough of the idle line behind the last frame. -/
theorem serial_port_delivers {r : Reception σ} (h : r.Healthy hw) {ts : List (Transmission true)} {lastGap : Nat}
    {behind : List Bool} (hsize : ∀ t ∈ ts, t.frame.length ≤ HDLC_SYNC_MAX_REASONABLE_FRAME_SIZE_BYTES)
    (hline : (Reader.steady false).bits r.lines ++ behind = streamBits ts lastGap)
    (hidle : ∀ step ∈ (runSteps r.boot.loop (r.batches hw)).zipIdx, kept step.1 = false → IdleByte ts lastGap step.2) :
    ¬ (r.last hw).rx.Stalled ∧ (r.last hw).loop.app.udp_tx <+: ts.map (·.payload) ∧
      (pio_tx_rx_driver.CHAR_BIT + RxWorld.boot.sinceEmptyRun 0 (r.actions hw) + behind.length ≤ lastGap →
        (r.last hw).loop.app.udp_tx = ts.map (·.payload)) :=
  ⟨h.sound.not_stalled, h.delivers hsize hline hidle⟩

/-- Some bits on the line, four samples each. -/
def sampleBits (bits : List Bool) : List (Option Line) :=
  bits.flatMap fun data =>
    [some { clock := true, data }, some { clock := true, data }, some { clock := false, data },
      some { clock := false, data }]

/-- A frame between idle bytes on an external clock, which the filter drops but
for two. -/
def oneReception : Reception TxLine where
  v24_config := { baudrate := 9600, external_clock := true }
  tx_rts_holdoff_us := 4305
  pio := .boot []
  inputs :=
    [{ early := sampleBits (bytesBits true [0, 0, 0, 0, 0]) ++ List.replicate 6 none
       early_us := 1
       datagram := none
       drain := []
       now_us := 2
       late := []
       events := [] },
     { early := sampleBits (bytesBits true [0x7E, 2, 0xC1]) ++ List.replicate 4 none
       early_us := 3
       datagram := none
       drain := sampleBits (bytesBits true [0xB2, 0x7E, 0, 0]) ++ List.replicate 5 none
       now_us := 4
       late := []
       events := [] }]

theorem healthy_oneReception : oneReception.Healthy txLine where
  keeps := by decide
  readable := by decide +kernel
  in_time := by decide +kernel
  no_resync := by decide +kernel
  clear := by decide +kernel

theorem serial_port_delivers_one :
    (oneReception.last txLine).loop.app.udp_tx = [Transmission.exact true 40 [2]].map (·.payload) := by
  have hline :
      (Reader.steady false).bits oneReception.lines ++ [] = streamBits [Transmission.exact true 40 [2]] 16 := by
    decide +kernel
  exact (serial_port_delivers healthy_oneReception (by decide) hline (by decide +kernel)).2.2 (by decide +kernel)

end ether2ser.event_loop
