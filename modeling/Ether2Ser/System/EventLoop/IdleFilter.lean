import Ether2Ser.Hdlc.Stream.Gaps
import Ether2Ser.System.EventLoop.Receive

open Bits Words
open ether2ser.hdlc ether2ser.hdlc_common ether2ser.hdlc_sync ether2ser.pio_tx_rx_driver

namespace ether2ser.event_loop

variable {σ : Type}

/-- A byte that looks idle reaches a hunting receiver behind two others. -/
def MeetsIdleRun (step : LoopState σ × UInt8) : Prop :=
  step.1.app.accumulator.state = .HDLC_SYNC_STATE_HUNTING ∧ 2 ≤ step.1.runtime.hunt_idle_run_length ∧
    (step.2 = 0x00 ∨ step.2 = 0xFF)

instance (step : LoopState σ × UInt8) : Decidable (MeetsIdleRun step) :=
  inferInstanceAs (Decidable (_ ∧ _))

/-- The filter drops exactly the bytes that meet an idle run on an external
clock. -/
theorem kept_eq_false_iff (step : LoopState σ × UInt8) :
    kept step = false ↔ step.1.app.v24_config.external_clock = true ∧ MeetsIdleRun step := by
  unfold kept event_loop_should_drop_hunt_idle_byte MeetsIdleRun
  cases step.1.app.v24_config.external_clock with
  | false => simp
  | true =>
    by_cases hhunting : step.1.app.accumulator.state = .HDLC_SYNC_STATE_HUNTING
    · by_cases hidle : step.2 = 0x00 ∨ step.2 = 0xFF
      · by_cases hrun : 2 ≤ step.1.runtime.hunt_idle_run_length
        · simp [hhunting, hidle, hrun]
        · simp [hhunting, hidle, hrun]
      · simp [hhunting, hidle]
    · simp [hhunting]

/-- A run of idle bytes ends in the last received byte. -/
def IdleBehind (state : LoopState σ) (past : List UInt8) : Prop :=
  0 < state.runtime.hunt_idle_run_length → ∃ byte, past.getLast? = some byte ∧ (byte = 0x00 ∨ byte = 0xFF)

theorem idleBehind_receiveByte (state : LoopState σ) (past : List UInt8) (rx_byte : UInt8) :
    IdleBehind (receiveByte state rx_byte) (past ++ [rx_byte]) := by
  intro hrun
  refine ⟨rx_byte, List.getLast?_concat .., ?_⟩
  by_contra hbusy
  have hzero :
      event_loop_should_drop_hunt_idle_byte state.app rx_byte state.runtime.hunt_idle_run_length = (false, 0) := by
    unfold event_loop_should_drop_hunt_idle_byte
    simp only [hbusy, if_false, ite_self]
  unfold receiveByte at hrun
  rw [hzero] at hrun
  simp only [Bool.false_eq_true, if_false] at hrun
  split at hrun <;> exact Nat.lt_irrefl 0 hrun

theorem IdleBehind.byteSteps {state : LoopState σ} {past : List UInt8} (h : IdleBehind state past) {rx : List UInt8} :
    IdleBehind (drain_rx_until_empty state rx) (past ++ rx) ∧
      ∀ i step, (byteSteps state rx)[i]? = some step → IdleBehind step.1 (past ++ rx.take i) := by
  induction rx generalizing state past with
  | nil =>
    rw [List.append_nil]
    exact ⟨h, fun i step hstep => by simp [event_loop.byteSteps] at hstep⟩
  | cons rx_byte rx ih =>
    obtain ⟨hlast, hsteps⟩ := ih (idleBehind_receiveByte state past rx_byte)
    rw [List.append_assoc] at hlast
    refine ⟨hlast, ?_⟩
    intro i step hstep
    cases i with
    | zero =>
      cases hstep
      rw [List.take_zero, List.append_nil]
      exact h
    | succ i =>
      rw [List.take_succ_cons, List.append_cons]
      exact hsteps i step hstep

/-- Along a run, the run of idle bytes that the filter counts ends in the last
byte of the line read so far. -/
theorem IdleBehind.runSteps {state : LoopState σ} {past : List UInt8} (h : IdleBehind state past)
    {batches : List (List UInt8)} {i : Nat} {step : LoopState σ × UInt8}
    (hstep : (runSteps state batches)[i]? = some step) : IdleBehind step.1 (past ++ batches.flatten.take i) := by
  induction batches generalizing state past i with
  | nil => simp [event_loop.runSteps] at hstep
  | cons batch batches ih =>
    obtain ⟨hlast, hsteps⟩ := h.byteSteps
    rw [event_loop.runSteps] at hstep
    rw [List.flatten_cons, List.take_append]
    by_cases hinside : i < batch.length
    · rw [List.getElem?_append_left (by rw [length_byteSteps]; exact hinside)] at hstep
      rw [Nat.sub_eq_zero_of_le (Nat.le_of_lt hinside), List.take_zero, List.append_nil]
      exact hsteps i step hstep
    · rw [Nat.not_lt] at hinside
      rw [List.getElem?_append_right (by rw [length_byteSteps]; exact hinside), length_byteSteps] at hstep
      rw [List.take_of_length_le hinside, ← List.append_assoc]
      apply ih _ hstep
      intro hrun
      rw [receiveBatch, (drain_hdlc_frames_to_udp_keeps _).2] at hrun
      exact hlast hrun

theorem v24_config_of_mem_byteSteps {state : LoopState σ} {rx : List UInt8} {step : LoopState σ × UInt8}
    (hstep : step ∈ byteSteps state rx) : step.1.app.v24_config = state.app.v24_config := by
  induction rx generalizing state with
  | nil => simp [byteSteps] at hstep
  | cons rx_byte rx ih =>
    rcases List.mem_cons.mp hstep with rfl | hmem
    · rfl
    · exact (ih hmem).trans (receiveByte_eq state rx_byte).2.1

theorem v24_config_of_mem_runSteps {state : LoopState σ} {batches : List (List UInt8)} {step : LoopState σ × UInt8}
    (hstep : step ∈ runSteps state batches) : step.1.app.v24_config = state.app.v24_config := by
  induction batches generalizing state with
  | nil => simp [runSteps] at hstep
  | cons batch batches ih =>
    rcases List.mem_append.mp hstep with hmem | hmem
    · exact v24_config_of_mem_byteSteps hmem
    · calc step.1.app.v24_config
          = (receiveBatch state batch).app.v24_config := ih hmem
        _ = (drain_rx_until_empty state batch).app.v24_config := (drain_hdlc_frames_to_udp_keeps _).1
        _ = state.app.v24_config := (drain_rx_until_empty_eq state batch).2.1

/-- On the internal clock the filter keeps every byte. -/
theorem keptBatches_of_internal {state : LoopState σ} (hinternal : state.app.v24_config.external_clock = false)
    (batches : List (List UInt8)) : keptBatches state batches = batches := by
  apply keptBatches_of_all
  intro step hstep
  rw [← Bool.not_eq_false, kept_eq_false_iff, v24_config_of_mem_runSteps hstep, hinternal]
  simp

/-- The idle filter takes nothing but idle bytes from the line, and no poll of
either run meets the hard cap or the exhaustive search. -/
structure DropsOnlyIdle (ts : List (Transmission true)) (lastGap : Nat) (filtered unfiltered : LoopState σ)
    (batches : List (List UInt8)) : Prop where
  size : ∀ t ∈ ts, t.frame.length ≤ HDLC_SYNC_MAX_REASONABLE_FRAME_SIZE_BYTES
  idle : ∀ step ∈ (runSteps filtered batches).zipIdx, MeetsIdleRun step.1 →
    IdleByte ts (lastGap + padLength (streamBits ts lastGap).length) step.2
  clear : ∀ accumulator ∈ polledAccumulators filtered batches ++ polledAccumulators unfiltered batches,
    PollClear accumulator

/-- What a filter that drops only idle bytes leaves is again a line of the same
frames. -/
theorem exists_keptBatches {ts : List (Transmission true)} {lastGap : Nat} {state : LoopState σ}
    {batches : List (List UInt8)} (hcut : batches.flatten = rawStream ts lastGap)
    (hstart : state.runtime.hunt_idle_run_length = 0)
    (hidle : ∀ step ∈ (runSteps state batches).zipIdx, MeetsIdleRun step.1 →
      IdleByte ts (lastGap + padLength (streamBits ts lastGap).length) step.2) :
    ∃ ts' : List (Transmission true), ∃ lastGap',
      bytesBits true (keptBatches state batches).flatten = streamBits ts' lastGap' ∧
      ts'.map (·.payload) = ts.map (·.payload) ∧ ts'.map (·.frame) = ts.map (·.frame) := by
  rw [flatten_keptBatches]
  apply exists_select_bytes (by rw [hcut, bytesBits_rawStream]) (by rw [List.length_map, length_runSteps])
  intro i hdropped
  rw [List.getElem?_map, Option.map_eq_some_iff] at hdropped
  obtain ⟨step, hstep, hkept⟩ := hdropped
  have hmeets := ((kept_eq_false_iff step).mp hkept).2
  refine ⟨hidle (step, i) (List.mem_zipIdx_iff_getElem?.mpr hstep) hmeets, ?_⟩
  have hnothing : IdleBehind state [] := fun hrun => absurd hrun (by omega)
  obtain ⟨byte, hlast, hbyte⟩ := hnothing.runSteps hstep (Nat.lt_of_lt_of_le Nat.zero_lt_two hmeets.2.1)
  rw [List.nil_append] at hlast
  cases i with
  | zero => simp at hlast
  | succ k =>
    refine ⟨k, rfl, byte, ?_, ?_⟩
    · have hinside : k + 1 < batches.flatten.length := by
        rw [← length_runSteps state]
        exact (List.getElem?_eq_some_iff.mp hstep).1
      rw [List.getLast?_eq_getElem?, List.length_take, Nat.min_eq_left (Nat.le_of_lt hinside), List.getElem?_take_of_lt
        (by omega)] at hlast
      exact hlast
    · rcases hbyte with rfl | rfl <;> decide

/-- The external-clock idle filter is transparent as long as it takes nothing
from a frame: both runs send the same payloads, however the bytes of the line
arrive in batches. -/
theorem idle_filter_transparent (ts : List (Transmission true)) (lastGap : Nat) (baudrate : UInt32)
    (tx_rts_holdoff_us : Nat) (pio : σ) (batches : List (List UInt8)) (hcut : batches.flatten = rawStream ts lastGap)
    (hsteps :
      (∀ step ∈ runSteps (.boot { baudrate, external_clock := true } tx_rts_holdoff_us pio) batches,
        ¬MeetsIdleRun step) ∨
      DropsOnlyIdle ts lastGap (.boot { baudrate, external_clock := true } tx_rts_holdoff_us pio)
        (.boot { baudrate, external_clock := false } tx_rts_holdoff_us pio) batches) :
    (receiveBatches (.boot { baudrate, external_clock := true } tx_rts_holdoff_us pio) batches).app.udp_tx =
      (receiveBatches (.boot { baudrate, external_clock := false } tx_rts_holdoff_us pio) batches).app.udp_tx := by
  have hinternal := keptBatches_of_internal
    (show (LoopState.boot { baudrate, external_clock := false } tx_rts_holdoff_us pio).app.v24_config.external_clock =
      false from rfl) batches
  rcases hsteps with hnever | hidle
  · have hsame : SameReceive (LoopState.boot { baudrate, external_clock := true } tx_rts_holdoff_us pio)
        (.boot { baudrate, external_clock := false } tx_rts_holdoff_us pio) := ⟨rfl, rfl, rfl, rfl⟩
    apply (hsame.receiveBatches _).udp_tx
    rw [hinternal]
    apply keptBatches_of_all
    intro step hstep
    rw [← Bool.not_eq_false, kept_eq_false_iff]
    exact fun hdropped => hnever step hstep hdropped.2
  · obtain ⟨ts', lastGap', hbits, hpayloads, hframes⟩ := exists_keptBatches hcut rfl hidle.idle
    have hsize : ∀ t ∈ ts', t.frame.length ≤ HDLC_SYNC_MAX_REASONABLE_FRAME_SIZE_BYTES := by
      intro t ht
      have hmem : t.frame ∈ ts.map (·.frame) := hframes ▸ List.mem_map_of_mem ht
      obtain ⟨u, hu, hsame⟩ := List.mem_map.mp hmem
      rw [← hsame]
      exact hidle.size u hu
    have hfiltered := LoopState.Tracks.receiveBatches _ (LoopState.tracks_boot hbits hsize _ _ _ _)
      fun accumulator hmem => hidle.clear accumulator (List.mem_append_left _ hmem)
    have hunfiltered := LoopState.Tracks.receiveBatches
      (.boot { baudrate, external_clock := false } tx_rts_holdoff_us pio)
      (LoopState.tracks_boot (by rw [hinternal, hcut, bytesBits_rawStream]) hidle.size _ _ _ _)
      fun accumulator hmem => hidle.clear accumulator (List.mem_append_right _ hmem)
    rw [hfiltered, hunfiltered, hpayloads]
    rfl

/-- A gap of almost six bytes, the last of them up to the first bit of the
flag. -/
def idleThenFrame : List (Transmission true) := [.send 47 [0xA5, 0x3C] 16 (by decide +kernel)]

theorem idle_filter_transparent_idle_gap :
    (receiveBatches (LoopState.boot { baudrate := 9600, external_clock := true } 200 ())
        [(rawStream idleThenFrame 3).take 4, (rawStream idleThenFrame 3).drop 4]).app.udp_tx =
      (receiveBatches (LoopState.boot { baudrate := 9600, external_clock := false } 200 ())
        [(rawStream idleThenFrame 3).take 4, (rawStream idleThenFrame 3).drop 4]).app.udp_tx :=
  idle_filter_transparent idleThenFrame 3 9600 200 () _ (by decide +kernel)
    (.inr ⟨by decide +kernel, by decide +kernel, by decide +kernel⟩)

/-- A payload of zeros. -/
def zerosFrame : List (Transmission true) := [.send 0 [0x00, 0x00, 0x00, 0x00] 16 (by decide +kernel)]

/-- In one batch the receiver still hunts while it reads the payload, and the
filter takes the last two zeros from it. -/
theorem not_idle_filter_transparent :
    ¬ ∀ (ts : List (Transmission true)) (lastGap : Nat) (baudrate : UInt32) (tx_rts_holdoff_us : Nat) (pio : Unit)
        (batches : List (List UInt8)), batches.flatten = rawStream ts lastGap →
      (receiveBatches (.boot { baudrate, external_clock := true } tx_rts_holdoff_us pio) batches).app.udp_tx =
        (receiveBatches (.boot { baudrate, external_clock := false } tx_rts_holdoff_us pio)
          batches).app.udp_tx := by
  intro h
  have hequal := h zerosFrame 0 9600 200 () [rawStream zerosFrame 0]
    (by decide +kernel)
  have hlost : (receiveBatches (LoopState.boot { baudrate := 9600, external_clock := true } 200 ())
      [rawStream zerosFrame 0]).app.udp_tx = [] := by decide +kernel
  have hsent : (receiveBatches (LoopState.boot { baudrate := 9600, external_clock := false } 200 ())
      [rawStream zerosFrame 0]).app.udp_tx = [[0x00, 0x00, 0x00, 0x00]] := by decide +kernel
  rw [hlost, hsent] at hequal
  simp at hequal

end ether2ser.event_loop
