import Ether2Ser.System.EventLoop.ExternalClock
import Ether2Ser.System.EventLoop.SerialPort

open Bits Signals
open ether2ser.hdlc ether2ser.hdlc_common ether2ser.hdlc_encoder ether2ser.hdlc_sync ether2ser.pio_tx_rx_driver
open ether2ser.tx_queue

namespace ether2ser.event_loop

/-- Two bridges on external clocks with a pair of modems between them: the loop of
the sender with the clock of its modem, the receive path of the other bridge, the
idle bits that its modem has clocked in behind the sender's, and the bits that it
has yet to pass on. -/
structure ModemLink (σ : Type) where
  sender_config : V24Config
  sender_holdoff_us : Nat
  cts : Bool
  schedule : List (Nat × List (Bool × Bool))
  sent : List LoopInput
  idle : Nat
  later : List Bool
  receiver : Reception σ

variable {σ : Type} {hw : TxHardware σ}

def ModemLink.senderBoot (link : ModemLink σ) : LoopState XckLine :=
  .boot link.sender_config link.sender_holdoff_us (.boot link.cts link.schedule)

def ModemLink.sender (link : ModemLink σ) : LoopState XckLine := event_loop_run xckHardware link.senderBoot link.sent

/-- The datagrams that the sender has accepted. -/
def ModemLink.accepted (link : ModemLink σ) : List (List UInt8) :=
  acceptedDatagrams xckHardware link.senderBoot link.sent

/-- The sender has nothing left to send. -/
def ModemLink.Drained (link : ModemLink σ) : Prop :=
  tx_queue_is_empty link.sender.app.tx_queue = true ∧ unshifted link.sender.app.driver.pio.tx = []

/-- The bits on the line of the sender, as its modem samples them, and on the line
of the receiver. -/
def ModemLink.sentBits (link : ModemLink σ) : List Bool :=
  (Reader.steady false).bits link.sender.app.driver.pio.waveform

def ModemLink.readBits (link : ModemLink σ) : List Bool := (Reader.steady false).bits link.receiver.lines

/-- The modems pass on what they sample, and idle bits once the sender has nothing
left. The sender restarts no frame and waits between two frames only, at a clock
that it can follow; the reception of the receiver is healthy and its idle filter
drops idle bytes only, whichever way frames of the accepted datagrams lie on its
line. No setting of either serial port changes. -/
structure ModemLink.Healthy (hw : TxHardware σ) (link : ModemLink σ) : Prop where
  sent_keeps : ∀ input ∈ link.sent, KeepsSettings input.events
  no_restart : .reset ∉ link.sender.app.driver.trace
  lasts : xckPace.Lasts xckLeast (link.sender.app.driver.pio.waveform.map Line.clock)
  waits : ∀ count ∈ link.sender.app.driver.pio.waits, BetweenFrames link.accepted count
  carried : link.readBits ++ link.later = link.sentBits ++ List.replicate link.idle false
  settled : link.idle = 0 ∨ link.Drained
  receiver : link.receiver.Healthy hw
  only_idle : ∀ (ts : List (Transmission true)) (lastGap : Nat), ts.map (·.payload) = link.accepted →
    link.readBits ++ link.later <+: streamBits ts lastGap →
      ∀ step ∈ (runSteps link.receiver.boot.loop (link.receiver.batches hw)).zipIdx, kept step.1 = false →
        IdleByte ts lastGap step.2

/-- The line of the receiver carries a stream of the accepted datagrams, with an
idle line behind the last one when the modem has clocked in idle bits. -/
theorem ModemLink.Healthy.stream {link : ModemLink σ} (h : link.Healthy hw) :
    ∃ (ts : List (Transmission true)) (lastGap : Nat) (behind : List Bool), ts.map (·.payload) = link.accepted ∧
      link.readBits ++ (link.later ++ behind) = streamBits ts lastGap ∧
      (0 < link.idle → behind = [] ∧ link.idle ≤ lastGap + 1) := by
  have hforwards :
      Forwards (LineAgrees (FollowsClock (BetweenFrames link.accepted))) link.sender.txHalf link.accepted :=
    forwards_xck_run _ (betweenFrames_zero _) link.sender_config link.sender_holdoff_us link.cts link.schedule
      h.sent_keeps
  obtain ⟨-, ts, lastGap, behind, hpayloads, hstream, hdone⟩ := hforwards.onXckLine h.no_restart h.lasts h.waits
  change link.sentBits ++ behind = _ at hstream
  rcases Nat.eq_zero_or_pos link.idle with hzero | hidle
  · have hcarried := h.carried
    rw [hzero, List.replicate_zero, List.append_nil] at hcarried
    refine ⟨ts, lastGap, behind, hpayloads, ?_, fun hpos => absurd hzero (Nat.ne_of_gt hpos)⟩
    rw [← List.append_assoc, hcarried, hstream]
  · obtain ⟨hempty, hnothing⟩ := h.settled.resolve_left (Nat.ne_of_gt hidle)
    have hleast : behind.length ≤ 1 := hdone hempty hnothing
    have hcontinued : link.sentBits ++ List.replicate link.idle false =
        streamBits ts (lastGap + (link.idle - behind.length)) := by
      cases behind with
      | nil =>
        rw [← streamBits_append_replicate, ← hstream, List.append_nil]
        rfl
      | cons bit rest =>
        have hrest : rest = [] := List.length_eq_zero_iff.mp (Nat.le_zero.mp (Nat.succ_le_succ_iff.mp hleast))
        subst hrest
        have hbit := getLastD_streamBits ts lastGap
        rw [← hstream, List.getLastD_concat] at hbit
        subst hbit
        obtain ⟨more, hmore⟩ := Nat.exists_eq_add_of_lt hidle
        rw [← streamBits_append_replicate, ← hstream, List.append_assoc]
        congr 1
        rw [hmore]
        simp [List.replicate_succ]
    refine ⟨ts, lastGap + (link.idle - behind.length), [], hpayloads, ?_, fun _ => ⟨rfl, by omega⟩⟩
    rw [List.append_nil, h.carried, hcontinued]

theorem ModemLink.Healthy.fits {link : ModemLink σ} (h : link.Healthy hw) {ts : List (Transmission true)}
    (hpayloads : ts.map (·.payload) = link.accepted) :
    ∀ t ∈ ts, t.frame.length ≤ HDLC_SYNC_MAX_REASONABLE_FRAME_SIZE_BYTES := by
  intro t hmem
  have haccepted : t.payload ∈ link.accepted := hpayloads ▸ List.mem_map_of_mem hmem
  rw [t.length_frame]
  exact (forwards_xck_run _ (betweenFrames_zero link.accepted) link.sender_config link.sender_holdoff_us link.cts
    link.schedule h.sent_keeps).fits t.payload haccepted

/-- End to end over a healthy synchronous line with modems: the datagrams that the
receiving bridge hands to `w5500_udp_tx` are a prefix of those the sending bridge has
accepted, in order and unchanged, and all of them once the receiver has read over
nine idle bits behind the last frame. -/
theorem modem_link_delivers_in_order {link : ModemLink σ} (h : link.Healthy hw) :
    (link.receiver.last hw).loop.app.udp_tx <+: link.accepted ∧
      (pio_tx_rx_driver.CHAR_BIT + 1 + RxWorld.boot.sinceEmptyRun 0 (link.receiver.actions hw) + link.later.length ≤
          link.idle →
        (link.receiver.last hw).loop.app.udp_tx = link.accepted) := by
  obtain ⟨ts, lastGap, behind, hpayloads, hstream, hidle⟩ := h.stream
  have honly := h.only_idle ts lastGap hpayloads ⟨behind, by rw [List.append_assoc, hstream]⟩
  have hsent := h.receiver.delivers (h.fits hpayloads) hstream honly
  rw [hpayloads] at hsent
  refine ⟨hsent.1, fun hover => hsent.2 ?_⟩
  obtain ⟨hnothing, hgap⟩ := hidle (by omega)
  rw [hnothing, List.append_nil]
  omega

/-- A period of a clock of fourteen cycles, with CTS high. -/
def clockPeriod : List (Bool × Bool) := List.replicate 7 (false, true) ++ List.replicate 7 (true, true)

/-- One datagram, sent at one clock period and then at eight for each call of the
driver, and read in one drain with the idle bits behind it. -/
def oneLink : ModemLink TxLine where
  sender_config := { baudrate := 9600, external_clock := true }
  sender_holdoff_us := 4305
  cts := true
  schedule :=
    List.replicate 8 (0, []) ++ List.replicate 4 (0, clockPeriod) ++
      List.replicate 5 (0, (List.replicate 8 clockPeriod).flatten)
  sent := { LoopInput.idle with datagram := some [2] } :: List.replicate 6 .idle
  idle := 9
  later := []
  receiver :=
    { v24_config := { baudrate := 9600, external_clock := true }
      tx_rts_holdoff_us := 4305
      pio := .boot []
      inputs :=
        [{ early := []
           early_us := 1
           datagram := none
           drain := sampleBits (bytesBits true [0x7E, 2, 0xC1, 0xB2, 0x7E, 0] ++ List.replicate 4 false) ++
             List.replicate 7 none
           now_us := 2
           late := []
           events := [] }] }

/-- The levels on the line of the sender: idle, the frame, and idle again. -/
def oneLinkLevels : List Bool :=
  [false] ++ bytesBits true [0x7E, 2, 0xC1, 0xB2, 0x7E] ++ List.replicate 3 false

theorem oneLink_keeps : ∀ step ∈ runSteps oneLink.receiver.boot.loop (oneLink.receiver.batches txLine),
    kept step = true := by
  decide +kernel

/-- Two cycles behind each rising edge of the clock the line takes its next level. -/
theorem waveform_oneLink : oneLink.sender.app.driver.pio.waveform =
    (oneLinkLevels.zip (oneLinkLevels.tail ++ [false])).flatMap fun (level, next) =>
      List.replicate 7 ⟨false, level⟩ ++ List.replicate 2 ⟨true, level⟩ ++ List.replicate 5 ⟨true, next⟩ := by
  decide +kernel

theorem healthy_oneLink : oneLink.Healthy txLine where
  sent_keeps := by decide
  no_restart := by decide +kernel
  lasts := by
    rw [waveform_oneLink]
    decide +kernel
  waits := by
    have hwaits : ∀ count ∈ oneLink.sender.app.driver.pio.waits, count = 40 := by decide +kernel
    have haccepted : oneLink.accepted = [[2]] := by decide +kernel
    intro count hmem
    rw [hwaits count hmem, haccepted]
    exact ⟨[[2]], [], rfl, by decide +kernel⟩
  carried := by
    rw [ModemLink.sentBits, waveform_oneLink]
    decide +kernel
  settled := .inr ⟨by decide +kernel, by decide +kernel⟩
  receiver :=
    { keeps := by decide
      readable := by decide +kernel
      in_time := by decide +kernel
      no_resync := by decide +kernel
      clear := by decide +kernel }
  only_idle := by
    intro ts lastGap _ _ step hmem hdropped
    have hstep := List.mem_of_getElem? (List.mem_zipIdx_iff_getElem?.mp hmem)
    rw [oneLink_keeps step.1 hstep] at hdropped
    cases hdropped

theorem modem_link_delivers_in_order_one : (oneLink.receiver.last txLine).loop.app.udp_tx = oneLink.accepted :=
  (modem_link_delivers_in_order healthy_oneLink).2 (by decide +kernel)

end ether2ser.event_loop
