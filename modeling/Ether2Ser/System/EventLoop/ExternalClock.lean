import Ether2Ser.Drivers.TxQueue.XckLine
import Ether2Ser.Hdlc.Stream.Held
import Ether2Ser.System.EventLoop.Transmit

open Bits Signals
open ether2ser.hdlc ether2ser.hdlc_encoder ether2ser.pio_tx_rx_driver ether2ser.tx_queue

namespace ether2ser.event_loop

/-- A number of bits behind which a frame ends, or before the first frame. -/
def BetweenFrames (accepted : List (List UInt8)) (count : Nat) : Prop :=
  ∃ whole behind, accepted = whole ++ behind ∧ count = (frameBits true whole).length

theorem betweenFrames_zero (accepted : List (List UInt8)) : BetweenFrames accepted 0 := ⟨[], accepted, rfl, rfl⟩

/-- The line carries the frames of the accepted datagrams, with idle bits between
them only. At most one bit has not been read when the queue and the state machine
have nothing left, and every sample can be followed by a receiver. -/
structure OnXckLine (half : TxHalf XckLine) (accepted : List (List UInt8)) : Prop where
  readable : (Reader.steady false).Readable half.driver.pio.waveform
  stream : ∃ (ts : List (Transmission true)) (lastGap : Nat) (behind : List Bool), ts.map (·.payload) = accepted ∧
    (Reader.steady false).bits half.driver.pio.waveform ++ behind = streamBits ts lastGap ∧
    (tx_queue_is_empty half.tx_queue = true → unshifted half.driver.pio.tx = [] → behind.length ≤ 1)

theorem Forwards.onXckLine {half : TxHalf XckLine} {accepted : List (List UInt8)}
    (h : Forwards (LineAgrees (FollowsClock (BetweenFrames accepted))) half accepted)
    (hreset : .reset ∉ half.driver.trace)
    (hlasts : xckPace.Lasts xckLeast (half.driver.pio.waveform.map Line.clock))
    (hwaits : ∀ count ∈ half.driver.pio.waits, BetweenFrames accepted count) : OnXckLine half accepted := by
  obtain ⟨completed, waiting, done, tried, segment, hhandover⟩ := h.handover
  obtain ⟨bytes, rest, hfollows, hbytes, hall⟩ := LineAgrees.frames h.driver hhandover hreset
  have hline := hfollows hlasts hwaits
  change Follows (BetweenFrames accepted) half.driver.pio bytes at hline
  obtain ⟨pending, -, hheld⟩ := hline.phase
  have hbits : half.driver.pio.sent ++ (unshifted half.driver.pio.tx ++ bytesBits true rest) =
      frameBits true accepted := by
    change bytes ++ rest = (accepted.map (encodedFrame true)).flatten at hbytes
    rw [← List.append_assoc, hline.sent_eq, ← bytesBits_append, hbytes, frameBits, List.flatMap_def]
  obtain ⟨ts, lastGap, behind, hpayloads, hstream, hdone⟩ :=
    @stream_of_held true _ _ _ _ hheld (fun _ hcount => hcount) ⟨_, hbits⟩
  refine ⟨hline.readable, ts, lastGap, (if pending then [half.driver.pio.tx.out_pin] else []) ++ behind, hpayloads, ?_,
    ?_⟩
  · rw [XckLine.levels, List.append_assoc] at hstream
    exact hstream
  · intro hempty hnothing
    rw [hall hempty, hnothing, bytesBits_nil, List.append_nil, List.append_nil] at hbits
    rw [hdone hbits, List.append_nil]
    split
    · exact Nat.le_refl 1
    · exact Nat.zero_le 1

theorem forwards_xck_run (mayHold : Nat → Prop) (hidle : mayHold 0) (v24_config : V24Config) (tx_rts_holdoff_us : Nat)
    (cts : Bool) (schedule : List (Nat × List (Bool × Bool))) {inputs : List LoopInput}
    (hkeeps : ∀ input ∈ inputs, KeepsSettings input.events) :
    Forwards (LineAgrees (FollowsClock mayHold))
      (event_loop_run xckHardware (.boot v24_config tx_rts_holdoff_us (.boot cts schedule)) inputs).txHalf
      (acceptedDatagrams xckHardware (.boot v24_config tx_rts_holdoff_us (.boot cts schedule)) inputs) :=
  (forwards_boot v24_config (lineAgrees_boot (fun _ _ => follows_boot hidle cts schedule) tx_rts_holdoff_us)).run
    (takes_xckHardware mayHold).lineAgrees_invariant hkeeps

/-- The bridge on an external clock whose levels last: as long as no setting of the
serial port changes, no frame is restarted, and CTS is low and the FIFO runs empty
between two frames only, the line carries the accepted datagrams in order, whole,
with idle bits between them. -/
theorem xck_frames_on_line (v24_config : V24Config) (tx_rts_holdoff_us : Nat) (cts : Bool)
    (schedule : List (Nat × List (Bool × Bool))) {inputs : List LoopInput}
    (hkeeps : ∀ input ∈ inputs, KeepsSettings input.events)
    (hreset : .reset ∉ (event_loop_run xckHardware (.boot v24_config tx_rts_holdoff_us (.boot cts schedule))
      inputs).app.driver.trace)
    (hlasts : xckPace.Lasts xckLeast
      ((event_loop_run xckHardware (.boot v24_config tx_rts_holdoff_us (.boot cts schedule))
        inputs).app.driver.pio.waveform.map Line.clock))
    (hwaits : ∀ count ∈ (event_loop_run xckHardware (.boot v24_config tx_rts_holdoff_us (.boot cts schedule))
      inputs).app.driver.pio.waits,
      BetweenFrames (acceptedDatagrams xckHardware (.boot v24_config tx_rts_holdoff_us (.boot cts schedule)) inputs)
        count) :
    OnXckLine (event_loop_run xckHardware (.boot v24_config tx_rts_holdoff_us (.boot cts schedule)) inputs).txHalf
      (acceptedDatagrams xckHardware (.boot v24_config tx_rts_holdoff_us (.boot cts schedule)) inputs) :=
  (forwards_xck_run _ (betweenFrames_zero _) v24_config tx_rts_holdoff_us cts schedule hkeeps).onXckLine hreset hlasts
    hwaits

/-- One datagram, and nine periods of a slow clock. -/
def slowClockInputs : List LoopInput := [{ LoopInput.idle with datagram := some [2] }, .idle]

def slowClockSchedule : List (Nat × List (Bool × Bool)) :=
  List.replicate 9 (0, List.replicate 7 (false, true) ++ List.replicate 7 (true, true))

theorem xck_frames_on_line_one :
    OnXckLine
      (event_loop_run xckHardware
        (.boot { baudrate := 9600, external_clock := true } 4305 (.boot true slowClockSchedule)) slowClockInputs).txHalf
      (acceptedDatagrams xckHardware
        (.boot { baudrate := 9600, external_clock := true } 4305 (.boot true slowClockSchedule)) slowClockInputs) := by
  have hfirst : ∀ count ∈ (event_loop_run xckHardware
      (.boot { baudrate := 9600, external_clock := true } 4305 (.boot true slowClockSchedule))
      slowClockInputs).app.driver.pio.waits, count = 0 := by decide +kernel
  refine xck_frames_on_line _ _ _ _ (by decide) (by decide +kernel) (by decide +kernel) ?_
  intro count hmem
  rw [hfirst count hmem]
  exact betweenFrames_zero _

end ether2ser.event_loop
