import Ether2Ser.Drivers.PioTxRx.Receive
import Ether2Ser.Hdlc.Stream.Held
import Ether2Ser.System.EventLoop.Delivery
import Ether2Ser.System.EventLoop.Transmit

open Bits Pio Signals
open ether2ser.hdlc ether2ser.hdlc_common ether2ser.hdlc_encoder ether2ser.hdlc_sync ether2ser.pio_tx_rx_driver
open ether2ser.tx_queue

namespace ether2ser.event_loop

/-- Two bridges back to back: the loop of a sender on its internal clock, the
samples that the serial port of a receiver takes of its line, and the loop of the
receiver over any transmitter of its own. -/
structure BackToBack (σ : Type) where
  sender_config : V24Config
  sender_holdoff_us : Nat
  cts : Bool
  schedule : List (Nat × List Bool)
  sent : List LoopInput
  samples : List (Line × Nat)
  port : List RxAction
  receiver_config : V24Config
  receiver_holdoff_us : Nat
  pio : σ
  read : List LoopInput

variable {σ : Type} {hw : TxHardware σ}

def BackToBack.senderBoot (b : BackToBack σ) : LoopState TckLine :=
  .boot b.sender_config b.sender_holdoff_us (.boot b.cts b.schedule)

def BackToBack.sender (b : BackToBack σ) : LoopState TckLine := event_loop_run tckHardware b.senderBoot b.sent

/-- The datagrams that the sender has accepted. -/
def BackToBack.accepted (b : BackToBack σ) : List (List UInt8) := acceptedDatagrams tckHardware b.senderBoot b.sent

def BackToBack.rx (b : BackToBack σ) : RxWorld := RxWorld.boot.run b.port

def BackToBack.receiverBoot (b : BackToBack σ) : LoopState σ := .boot b.receiver_config b.receiver_holdoff_us b.pio

def BackToBack.receiver (hw : TxHardware σ) (b : BackToBack σ) : LoopState σ := event_loop_run hw b.receiverBoot b.read

/-- The port samples the line of the sender at least as fast as it is driven, and the
loop, on its internal clock, reads what the port has received. No setting of either
serial port changes and neither side reports trouble: no frame restarted on a CTS
edge, no stall of the receive FIFO, no resync, and no poll that meets the hard cap or
the exhaustive search. -/
structure BackToBack.Healthy (hw : TxHardware σ) (b : BackToBack σ) : Prop where
  sent_keeps : ∀ input ∈ b.sent, KeepsSettings input.events
  read_keeps : ∀ input ∈ b.read, KeepsSettings input.events
  internal : b.receiver_config.external_clock = false
  sampled : b.port.filterMap RxAction.line? = stretch b.samples
  wired : b.samples.map Prod.fst <+: b.sender.app.driver.pio.waveform
  passed_on : serialBytes b.read = b.rx.received
  no_restart : .reset ∉ b.sender.app.driver.trace
  no_hard_reset : .rx_clock_hard_reset ∉ b.port
  no_stall : ¬ b.rx.Stalled
  no_resync : (b.receiver hw).resyncs = 0
  clear : ∀ accumulator ∈ loopPolls hw b.receiverBoot b.read, PollClear accumulator

/-- Nothing is on its way any more. -/
structure BackToBack.Drained (b : BackToBack σ) : Prop where
  queue : tx_queue_is_empty b.sender.app.tx_queue = true
  tx : unclocked b.sender.app.driver.pio.tx = []
  line : b.samples.map Prod.fst = b.sender.app.driver.pio.waveform
  rx : b.rx.rx.gathered rx_clock_config = []
  last : b.rx.reader.fallen = none

/-- The bytes that the port has received, with the bits behind them, are the
frames of the accepted datagrams. -/
theorem BackToBack.Healthy.received {b : BackToBack σ} (h : b.Healthy hw) :
    ∃ behind, bytesBits true b.rx.received ++ behind = bytesBits true (b.accepted.flatMap (encodedFrame true)) ∧
      (b.Drained → behind = []) := by
  have hforwards : Forwards (LineAgrees Clocked) b.sender.txHalf b.accepted :=
    forwards_tck_run b.sender_config b.sender_holdoff_us b.cts b.schedule h.sent_keeps
  obtain ⟨hreadable, rest, hbits, hall⟩ := hforwards.onTckLine h.no_restart
  change (Reader.steady false).Readable b.sender.app.driver.pio.waveform at hreadable
  change (Reader.steady false).bits b.sender.app.driver.pio.waveform ++
    (unclocked b.sender.app.driver.pio.tx ++ bytesBits true rest) = _ at hbits
  obtain ⟨ahead, hwired⟩ := h.wired
  rw [← hwired, Reader.readable_append] at hreadable
  have hsamples := hreadable.1.stretch
  rw [← h.sampled] at hsamples
  have hcomplete := (complete_boot.run hsamples h.no_stall).bits_eq
  obtain ⟨hbefore, hlines⟩ := lines_of_no_hard_reset h.no_hard_reset .boot
  rw [hbefore, hlines, h.sampled] at hcomplete
  change bytesBits true b.rx.received ++ (b.rx.rx.gathered rx_clock_config ++ b.rx.reader.fallen.toList) =
    (Reader.steady false).bits (stretch b.samples) at hcomplete
  rw [Reader.bits_stretch] at hcomplete
  rw [← hwired, Reader.bits_append, ← hcomplete, List.append_assoc, List.append_assoc] at hbits
  refine ⟨_, hbits, ?_⟩
  intro hdrained
  have hahead : ahead = [] := by
    rw [hdrained.line] at hwired
    exact List.append_right_eq_self.mp hwired
  rw [hdrained.rx, hdrained.last, hahead, hdrained.tx, hall hdrained.queue]
  rfl

/-- End to end, from the datagrams that one healthy bridge accepts to those that
another one hands to `w5500_udp_tx`: nothing is lost, changed, repeated or reordered,
and once nothing is on its way any more, everything has arrived. -/
theorem bridge_delivers_in_order {b : BackToBack σ} (h : b.Healthy hw) :
    (b.receiver hw).app.udp_tx <+: b.accepted ∧ (b.Drained → (b.receiver hw).app.udp_tx = b.accepted) := by
  obtain ⟨behind, hbits, hdrained⟩ := h.received
  have hfits : ∀ payload ∈ b.accepted, (encodedFrame true payload).length ≤ TX_FRAME_MAX_SIZE_BYTE :=
    (forwards_tck_run b.sender_config b.sender_holdoff_us b.cts b.schedule h.sent_keeps).fits
  have hstream := streamBits_exact true b.accepted
  have hsize : ∀ t ∈ b.accepted.map (Transmission.exact true 0),
      t.frame.length ≤ HDLC_SYNC_MAX_REASONABLE_FRAME_SIZE_BYTES := by
    intro t hmem
    obtain ⟨payload, hpayload, rfl⟩ := List.mem_map.mp hmem
    exact hfits payload hpayload
  have hbytes : b.rx.received ++ packBits true behind = b.accepted.flatMap (encodedFrame true) := by
    rw [← packBits_bytesBits_append, hbits, ← List.append_nil (bytesBits _ _), packBits_bytesBits_append]
    exact List.append_nil _
  have hboot : b.receiverBoot.Tracks (serialBytes b.read ++ packBits true behind) 0 RX_HDLC_SYNC_MAX_BUFFER_SIZE
      b.accepted := by
    rw [h.passed_on, hbytes]
    nth_rewrite 2 [← map_payload_exact true b.accepted]
    exact LoopState.tracks_boot hstream.symm hsize _ _ _ _
  obtain ⟨taken, rest, haccepted, htracks, hsent⟩ := hboot.run h.internal h.read_keeps h.no_resync h.clear
  have hudp : (b.receiver hw).app.udp_tx = taken := hsent
  rw [hudp]
  refine ⟨⟨rest, haccepted.symm⟩, fun hdone => ?_⟩
  rw [hdrained hdone] at htracks
  rw [haccepted, hdlc_sync.Tracks.payloads_eq_nil htracks.line, List.append_nil]

/-- The frame of one datagram, and the line that carries it: a wait for the first
byte with the clock high, then eight cycles a bit. -/
def oneFrame : List UInt8 := [0x7E, 2, 0xC1, 0xB2, 0x7E]

def oneFrameLine : List Line :=
  List.replicate 2 { clock := false, data := false } ++ List.replicate 3 { clock := true, data := false } ++
    (bytesBits true oneFrame).flatMap fun data =>
      List.replicate 2 { clock := true, data } ++ List.replicate 6 { clock := false, data }

/-- One datagram from end to end. -/
def oneDatagram : BackToBack TxLine where
  sender_config := { baudrate := 9600, external_clock := false }
  sender_holdoff_us := 4305
  cts := true
  schedule := List.replicate 10 (0, [true]) ++ [(0, List.replicate 315 true)]
  sent := [{ LoopInput.idle with datagram := some [2] }, .idle, .idle]
  samples := oneFrameLine.map fun line => (line, 0)
  port := oneFrameLine.map .sample ++ List.replicate 5 .rx_get
  receiver_config := { baudrate := 9600, external_clock := false }
  receiver_holdoff_us := 4305
  pio := .boot []
  read := [{ LoopInput.idle with rx := oneFrame }]

theorem oneDatagram_sent :
    oneDatagram.samples.map Prod.fst = oneDatagram.sender.app.driver.pio.waveform ∧
      .reset ∉ oneDatagram.sender.app.driver.trace ∧ tx_queue_is_empty oneDatagram.sender.app.tx_queue = true ∧
      unclocked oneDatagram.sender.app.driver.pio.tx = [] := by
  decide +kernel

theorem oneDatagram_read :
    serialBytes oneDatagram.read = oneDatagram.rx.received ∧ ¬ oneDatagram.rx.Stalled ∧
      oneDatagram.rx.rx.gathered rx_clock_config = [] ∧ oneDatagram.rx.reader.fallen = none := by
  decide +kernel

theorem healthy_oneDatagram : oneDatagram.Healthy txLine where
  sent_keeps := by decide
  read_keeps := by decide
  internal := rfl
  sampled := by decide +kernel
  wired := by
    rw [oneDatagram_sent.1]
  passed_on := oneDatagram_read.1
  no_restart := oneDatagram_sent.2.1
  no_hard_reset := by decide +kernel
  no_stall := oneDatagram_read.2.1
  no_resync := by decide +kernel
  clear := by decide +kernel

theorem bridge_delivers_in_order_one : (oneDatagram.receiver txLine).app.udp_tx = oneDatagram.accepted :=
  (bridge_delivers_in_order healthy_oneDatagram).2
    ⟨oneDatagram_sent.2.2.1, oneDatagram_sent.2.2.2, oneDatagram_sent.1, oneDatagram_read.2.2.1,
      oneDatagram_read.2.2.2⟩

end ether2ser.event_loop
