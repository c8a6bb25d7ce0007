import Ether2Ser.Drivers.PioTxRx.XckTxd
import Ether2Ser.Drivers.TxQueue.Line

open Bits Pio Signals
open ether2ser.pio_tx_rx_driver

namespace ether2ser.tx_queue

/-- The transmit state machine on an external clock: the clock with the data that
it has driven, the bits that it has shifted out, how many there were whenever it
waited for a byte or for CTS, and the level of CTS. The schedule has the
microseconds and the levels of the clock and of CTS, cycle by cycle, up to each
next call of the driver. After it, nothing moves. -/
structure XckLine where
  tx : Machine
  waveform : List Line
  sent : List Bool
  waits : List Nat
  cts : Bool
  schedule : List (Nat × List (Bool × Bool))
  deriving DecidableEq, Repr

/-- After `tx_clock_init_xck`. -/
def XckLine.boot (cts : Bool) (schedule : List (Nat × List (Bool × Bool))) : XckLine where
  tx := .init
  waveform := []
  sent := []
  waits := []
  cts := cts
  schedule := schedule

def XckLine.cycle (line : XckLine) (levels : Bool × Bool) : XckLine :=
  let (clock, cts) := levels
  let tx := line.tx.cycle xck_config (xckPins clock cts)
  { line with
    tx
    waveform := line.waveform ++ [{ clock, data := tx.out_pin }]
    sent := if line.tx.pc = 6 then line.sent ++ [tx.out_pin] else line.sent
    waits := if xckWaits line.tx cts then line.waits ++ [line.sent.length] else line.waits
    cts }

def XckLine.elapse (line : XckLine) : Interlude × XckLine :=
  match line.schedule with
  | [] => ({ us := 0, cts_edges := 0 }, line)
  | (us, levels) :: schedule =>
    ({ us, cts_edges := ctsEdges line.cts (levels.map Prod.snd) },
      { levels.foldl XckLine.cycle line with schedule })

/-- The state machine as the driver uses it. -/
def xckHardware : TxHardware XckLine :=
  pioHardware xck_config XckLine.tx (fun line tx => { line with tx }) XckLine.elapse

/-- What a reader has seen of the line. -/
def XckLine.reader (line : XckLine) : Reader := (Reader.steady false).run line.waveform

/-- A clock that has been low for long enough. -/
def xckPace : Pace where
  level := false
  samples := xckLeast

def XckLine.pace (line : XckLine) : Pace := xckPace.run (line.waveform.map Line.clock)

/-- The levels that have been read, with the one that the next falling edge will
read if it is pending. -/
def XckLine.levels (line : XckLine) (pending : Bool) : List Bool :=
  (Reader.steady false).bits line.waveform ++ if pending then [line.tx.out_pin] else []

/-- The line is in step with the clock: it has sent what was put, and everything
sent has been read once and for all, unless it was held. -/
structure Follows (mayHold : Nat → Prop) (line : XckLine) (bytes : List UInt8) : Prop where
  valid : XckValid line.tx
  agrees : line.pace.Agrees line.reader
  phase : ∃ pending, XckPhase (mayHold line.sent.length) line.tx.pc line.pace pending ∧
    Held mayHold false line.sent (line.levels pending)
  readable : (Reader.steady false).Readable line.waveform
  fallen : ∀ bit ∈ line.reader.fallen, line.tx.out_pin = bit
  out_eq : line.tx.out_pin = line.sent.getLastD false
  sent_eq : line.sent ++ unshifted line.tx = bytesBits true bytes

theorem follows_boot {mayHold : Nat → Prop} (hidle : mayHold 0) (cts : Bool)
    (schedule : List (Nat × List (Bool × Bool))) : Follows mayHold (.boot cts schedule) [] where
  valid := ⟨Nat.zero_le 8, rfl⟩
  agrees := ⟨rfl, Bool.noConfusion, fun _ hbit => by cases hbit⟩
  phase := ⟨false, .late (Nat.zero_le 2) hidle _, .start⟩
  readable := trivial
  fallen := fun _ hbit => by cases hbit
  out_eq := rfl
  sent_eq := rfl

section

variable {mayHold : Nat → Prop} {line : XckLine} {bytes : List UInt8} {clock cts : Bool}

theorem pace_cycle : (line.cycle (clock, cts)).pace = line.pace.next clock := by
  simp only [XckLine.pace, XckLine.cycle, List.map_append, Pace.run_append]
  rfl

theorem reader_cycle :
    (line.cycle (clock, cts)).reader = line.reader.next { clock, data := (line.cycle (clock, cts)).tx.out_pin } :=
  Reader.run_append _ _ _

theorem levels_cycle (pending : Bool) :
    (line.cycle (clock, cts)).levels pending =
      (Reader.steady false).bits line.waveform ++
        ((if line.reader.clock && !clock then [(line.cycle (clock, cts)).tx.out_pin] else []) ++
          if pending then [(line.cycle (clock, cts)).tx.out_pin] else []) := by
  simp only [XckLine.levels, XckLine.cycle, Reader.bits_append, Reader.bits, Reader.fallen_next, List.append_nil,
    List.append_assoc]
  rfl

/-- A cycle reads the pending bit on a falling edge, or the last bit again where
it may be held. -/
theorem Follows.held_cycle (h : Follows mayHold line bytes)
    (hlasts : clock ≠ line.pace.level → xckLeast ≤ line.pace.samples)
    (hwaits : xckWaits line.tx cts = true → mayHold line.sent.length) :
    ∃ pending, XckPhase (mayHold (line.cycle (clock, cts)).sent.length) (line.cycle (clock, cts)).tx.pc
        (line.pace.next clock) pending ∧
      Held mayHold false (line.cycle (clock, cts)).sent ((line.cycle (clock, cts)).levels pending) := by
  have hcycle := h.valid.cycle clock cts
  obtain ⟨pending, hphase, hheld⟩ := h.phase
  by_cases hpc : line.tx.pc = 6
  · rw [hpc] at hphase
    obtain ⟨rfl, hpace⟩ := hphase.shift
    rw [hpace] at hlasts
    obtain rfl := high_of_lasts hlasts (by decide)
    obtain ⟨hnext, -⟩ := hcycle.unshifted_of_shift hpc
    refine ⟨true, ?_, ?_⟩
    · rw [hpace]
      change XckPhase _ (line.tx.cycle xck_config (xckPins true cts)).pc _ _
      rw [hnext]
      exact .shifted
    · rw [levels_cycle, Bool.not_true, Bool.and_false, if_neg Bool.false_ne_true, List.nil_append, if_pos rfl]
      have hsent : (line.cycle (true, cts)).sent = line.sent ++ [(line.cycle (true, cts)).tx.out_pin] := if_pos hpc
      rw [hsent]
      rw [XckLine.levels, if_neg Bool.false_ne_true, List.append_nil] at hheld
      exact hheld.next _
  · obtain ⟨hkept, hexcuse⟩ := hphase.keeps hcycle hpc hlasts hwaits
    have hsent : (line.cycle (clock, cts)).sent = line.sent := if_neg hpc
    have hout : (line.cycle (clock, cts)).tx.out_pin = line.tx.out_pin := hcycle.out_eq hpc
    refine ⟨pending && clock, ?_, ?_⟩
    · rw [hsent]
      exact hkept
    · rw [levels_cycle, hsent, hout, h.agrees.clock_eq]
      rw [XckLine.levels] at hheld
      cases clock with
      | true =>
        rw [Bool.not_true, Bool.and_false, Bool.and_true, if_neg Bool.false_ne_true, List.nil_append]
        exact hheld
      | false =>
        rw [Bool.not_false, Bool.and_true, Bool.and_false, if_neg Bool.false_ne_true, List.append_nil]
        cases pending with
        | true =>
          rw [hphase.level_eq]
          exact hheld
        | false =>
          rw [if_neg Bool.false_ne_true, List.append_nil] at hheld
          by_cases hlevel : line.pace.level = true
          · rw [if_pos hlevel, h.out_eq]
            exact hheld.hold (hexcuse rfl hlevel rfl)
          · rw [if_neg hlevel, List.append_nil]
            exact hheld

theorem Follows.cycle (h : Follows mayHold line bytes)
    (hlasts : clock ≠ line.pace.level → xckLeast ≤ line.pace.samples)
    (hwaits : xckWaits line.tx cts = true → mayHold line.sent.length) :
    Follows mayHold (line.cycle (clock, cts)) bytes := by
  have hcycle := h.valid.cycle clock cts
  have hphase := h.held_cycle hlasts hwaits
  rw [← @pace_cycle line clock cts] at hphase
  refine ⟨hcycle.valid h.valid, ?_, hphase, ?_, ?_, ?_, ?_⟩
  · rw [pace_cycle, reader_cycle]
    exact h.agrees.next { clock, data := _ }
  · refine Reader.readable_append.mpr ⟨h.readable, ⟨?_, ?_⟩, trivial⟩
    · intro hrose
      have hpace := h.agrees.rising hrose
      rw [hpace] at hlasts
      exact high_of_lasts hlasts (by decide)
    · intro bit hbit
      have hpc : line.tx.pc ≠ 6 := by
        intro hpc
        obtain ⟨pending, hshift, -⟩ := h.phase
        rw [hpc] at hshift
        have hlow := h.agrees.fallen bit hbit
        rw [hshift.shift.2] at hlow
        cases hlow
      exact (hcycle.out_eq hpc).trans (h.fallen bit hbit)
  · intro bit hbit
    rw [reader_cycle] at hbit
    have hdata := Option.toList_eq_singleton_iff.mpr hbit
    rw [Reader.fallen_next] at hdata
    split at hdata
    · exact List.singleton_injective hdata
    · cases hdata
  · by_cases hpc : line.tx.pc = 6
    · have hsent : (line.cycle (clock, cts)).sent = line.sent ++ [(line.cycle (clock, cts)).tx.out_pin] := if_pos hpc
      rw [hsent, List.getLastD_concat]
    · have hsent : (line.cycle (clock, cts)).sent = line.sent := if_neg hpc
      rw [hsent, ← h.out_eq]
      exact hcycle.out_eq hpc
  · rw [← h.sent_eq]
    by_cases hpc : line.tx.pc = 6
    · have hsent : (line.cycle (clock, cts)).sent = line.sent ++ [(line.cycle (clock, cts)).tx.out_pin] := if_pos hpc
      rw [hsent, List.append_assoc, ← (hcycle.unshifted_of_shift hpc).2]
      rfl
    · have hsent : (line.cycle (clock, cts)).sent = line.sent := if_neg hpc
      rw [hsent, ← hcycle.unshifted_eq hpc]
      rfl

/-- As long as every level of the clock lasts and the program waits only where it
may, the line is in step. -/
def FollowsClock (mayHold : Nat → Prop) (line : XckLine) (bytes : List UInt8) : Prop :=
  xckPace.Lasts xckLeast (line.waveform.map Line.clock) → (∀ count ∈ line.waits, mayHold count) →
    Follows mayHold line bytes

theorem FollowsClock.cycle (h : FollowsClock mayHold line bytes) (levels : Bool × Bool) :
    FollowsClock mayHold (line.cycle levels) bytes := by
  obtain ⟨clock, cts⟩ := levels
  intro hlasts hwaits
  simp only [XckLine.cycle, List.map_append, Pace.lasts_append] at hlasts hwaits
  refine Follows.cycle (h hlasts.1 ?_) hlasts.2.1 ?_
  · intro count hmem
    apply hwaits
    split
    · exact List.mem_append_left _ hmem
    · exact hmem
  · intro hwait
    apply hwaits
    rw [if_pos hwait]
    exact List.mem_append_right _ (List.mem_singleton_self _)

theorem FollowsClock.cycles (h : FollowsClock mayHold line bytes) (levels : List (Bool × Bool)) :
    FollowsClock mayHold (levels.foldl XckLine.cycle line) bytes :=
  List.foldlRecOn (motive := fun line => FollowsClock mayHold line bytes) levels _ h fun _ hline levels _ =>
    hline.cycle levels

theorem Follows.put (h : Follows mayHold line bytes) (byte : UInt8) :
    Follows mayHold { line with tx := line.tx.put (wordOfByte byte) } (bytes ++ [byte]) where
  valid := ⟨h.valid.pc_le, h.valid.delay_eq⟩
  agrees := h.agrees
  phase := h.phase
  readable := h.readable
  fallen := h.fallen
  out_eq := h.out_eq
  sent_eq := by
    rw [bytesBits_append, ← h.sent_eq, bytesBits_cons, bytesBits_nil, List.append_nil, ← outBits_wordOfByte]
    simp only [unshifted, Machine.put, List.flatMap_append, List.flatMap_cons, List.flatMap_nil, List.append_nil,
      List.append_assoc]
    rfl

theorem takes_xckHardware (mayHold : Nat → Prop) : Takes xckHardware (FollowsClock mayHold) where
  elapse := by
    intro line bytes h
    change FollowsClock mayHold line.elapse.2 bytes
    unfold XckLine.elapse
    split
    · exact h
    · intro hlasts hwaits
      obtain ⟨hvalid, hagrees, hphase, hreadable, hfallen, hout, hsent⟩ := h.cycles _ hlasts hwaits
      exact ⟨hvalid, hagrees, hphase, hreadable, hfallen, hout, hsent⟩
  put := fun h hlasts hwaits => (h hlasts hwaits).put _
  clear_txstall := by
    intro line bytes h hlasts hwaits
    obtain ⟨hvalid, hagrees, hphase, hreadable, hfallen, hout, hsent⟩ := h hlasts hwaits
    exact ⟨⟨hvalid.pc_le, hvalid.delay_eq⟩, hagrees, hphase, hreadable, hfallen, hout, hsent⟩
  gpio_put_rts := fun h => h

end

end ether2ser.tx_queue
