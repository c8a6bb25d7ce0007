import Ether2Ser.Drivers.PioTxRx.TckPace
import Ether2Ser.Drivers.TxQueue.Line
import Ether2Ser.Drivers.TxQueue.Progress

open Bits Pio Signals
open ether2ser.pio_tx_rx_driver

namespace ether2ser.tx_queue

/-- The transmit state machine on its internal clock, with what it has driven and
the level of CTS. The schedule has the microseconds and the levels of CTS, cycle
by cycle, up to each next call of the driver. After it, nothing moves. -/
structure TckLine where
  tx : Machine
  waveform : List Line
  cts : Bool
  schedule : List (Nat × List Bool)
  deriving DecidableEq, Repr

/-- After `tx_clock_init_tck`. -/
def TckLine.boot (cts : Bool) (schedule : List (Nat × List Bool)) : TckLine where
  tx := .init
  waveform := []
  cts := cts
  schedule := schedule

def TckLine.cycle (line : TckLine) (cts : Bool) : TckLine :=
  let tx := line.tx.cycle tck_config (ctsPins cts)
  { line with tx, waveform := line.waveform ++ [driven tx], cts }

def TckLine.elapse (line : TckLine) : Interlude × TckLine :=
  match line.schedule with
  | [] => ({ us := 0, cts_edges := 0 }, line)
  | (us, levels) :: schedule =>
    ({ us, cts_edges := ctsEdges line.cts levels }, { levels.foldl TckLine.cycle line with schedule })

/-- The state machine as the driver uses it. -/
def tckHardware : TxHardware TckLine :=
  pioHardware tck_config TckLine.tx (fun line tx => { line with tx }) TckLine.elapse

/-- What a reader has seen of the line. -/
def TckLine.reader (line : TckLine) : Reader := (Reader.steady false).run line.waveform

/-- Everything put into the FIFO has been clocked out, in order, or still will. -/
structure Clocked (line : TckLine) (bytes : List UInt8) : Prop where
  inStep : TckInStep line.tx line.reader
  readable : (Reader.steady false).Readable line.waveform
  bits_eq : (Reader.steady false).bits line.waveform ++ unclocked line.tx = bytesBits true bytes

theorem clocked_boot (cts : Bool) (schedule : List (Nat × List Bool)) : Clocked (.boot cts schedule) [] where
  inStep := ⟨.low (.inl (Nat.zero_le 2)) (Nat.zero_le 1) rfl, rfl⟩
  readable := trivial
  bits_eq := rfl

theorem Clocked.cycle {line : TckLine} {bytes : List UInt8} (h : Clocked line bytes) (cts : Bool) :
    Clocked (line.cycle cts) bytes := by
  obtain ⟨hinStep, haccepts, hunclocked⟩ := h.inStep.cycle cts
  have hreader : (line.cycle cts).reader = line.reader.next (driven (line.cycle cts).tx) := Reader.run_append _ _ _
  refine ⟨?_, ?_, ?_⟩
  · rw [hreader]
    exact hinStep
  · exact Reader.readable_append.mpr ⟨h.readable, haccepts, trivial⟩
  · calc (Reader.steady false).bits (line.cycle cts).waveform ++ unclocked (line.cycle cts).tx
        = (Reader.steady false).bits line.waveform ++
            ((line.reader.next (driven (line.cycle cts).tx)).fallen.toList ++ unclocked (line.cycle cts).tx) := by
          rw [TckLine.cycle, Reader.bits_append, Reader.bits, Reader.bits, List.append_nil, List.append_assoc]
          rfl
      _ = bytesBits true bytes := by
          rw [← h.bits_eq, ← hunclocked]
          rfl

theorem Clocked.cycles {line : TckLine} {bytes : List UInt8} (h : Clocked line bytes) (levels : List Bool) :
    Clocked (levels.foldl TckLine.cycle line) bytes :=
  List.foldlRecOn (motive := fun line => Clocked line bytes) levels _ h fun _ hline cts _ => hline.cycle cts

theorem Clocked.put {line : TckLine} {bytes : List UInt8} (h : Clocked line bytes) (byte : UInt8) :
    Clocked { line with tx := line.tx.put (wordOfByte byte) } (bytes ++ [byte]) where
  inStep := ⟨h.inStep.phase, h.inStep.side_eq⟩
  readable := h.readable
  bits_eq := by
    have hword : outBits (wordOfByte byte) tck_config.out_shift.threshold = byteBits true byte :=
      outBits_wordOfByte byte
    rw [bytesBits_append, ← h.bits_eq, bytesBits_cons, bytesBits_nil, List.append_nil]
    simp only [unclocked, Machine.unsent, Machine.put, List.flatMap_append, List.flatMap_cons, List.flatMap_nil, hword,
      List.append_nil, List.append_assoc]
    rfl

theorem takes_tckHardware : Takes tckHardware Clocked where
  elapse := by
    intro line bytes h
    change Clocked line.elapse.2 bytes
    unfold TckLine.elapse
    split
    · exact h
    · exact ⟨(h.cycles _).inStep, (h.cycles _).readable, (h.cycles _).bits_eq⟩
  put := fun h => h.put _
  clear_txstall := fun h => ⟨⟨h.inStep.phase, h.inStep.side_eq⟩, h.readable, h.bits_eq⟩
  gpio_put_rts := fun h => h

/-- CTS is high, and stays high up to the end of the schedule. -/
structure TckLine.CtsStays (line : TckLine) : Prop where
  now : line.cts = true
  later : ∀ step ∈ line.schedule, ∀ level ∈ step.2, level = true

instance (line : TckLine) : Decidable line.CtsStays :=
  decidable_of_iff (line.cts = true ∧ ∀ step ∈ line.schedule, ∀ level ∈ step.2, level = true)
    ⟨fun h => ⟨h.1, h.2⟩, fun h => ⟨h.now, h.later⟩⟩

/-- Nothing holds the transmitter up. -/
def TckLine.Flows (line : TckLine) : Prop := TckRuns line.tx ∧ line.CtsStays

def TckLine.due (line : TckLine) : Nat := cyclesToLoad line.tx

def TckLine.cycles (line : TckLine) : Nat := line.waveform.length

theorem ctsEdges_eq_zero {cts : Bool} {levels : List Bool} (hsame : ∀ level ∈ levels, level = cts) :
    ctsEdges cts levels = 0 := by
  induction levels with
  | nil => rfl
  | cons level levels ih =>
    have hlevel := hsame level List.mem_cons_self
    subst hlevel
    rw [ctsEdges, if_pos rfl, Nat.zero_add]
    exact ih fun later hmem => hsame later (List.mem_cons_of_mem _ hmem)

theorem tckRuns_cycles {line : TckLine} (h : TckRuns line.tx) (levels : List Bool) :
    TckRuns (levels.foldl TckLine.cycle line).tx :=
  List.foldlRecOn (motive := fun (line : TckLine) => TckRuns line.tx) levels _ h fun _ hline cts _ => hline.cycle cts

theorem tckRuns_put {tx : Machine} (h : TckRuns tx) (hroom : ¬ 4 ≤ tx.tx_fifo.length) (word : BitVec 32) :
    TckRuns (tx.put word) where
  pc_le := h.pc_le
  delay_le := h.delay_le
  depth := by
    rw [Machine.put, List.length_append, List.length_singleton]
    omega

/-- Whatever CTS does, the transmitter stays inside its program. -/
theorem tckRuns_invariant : DriverInvariant tckHardware fun driver => TckRuns driver.pio.tx where
  elapse := by
    intro driver h
    change TckRuns driver.pio.elapse.2.tx
    unfold TckLine.elapse
    split
    · exact h
    · exact tckRuns_cycles h _
  put := by
    intro byte accepted driver driver' h hput
    have hassert : TckRuns (tx_assert_rts tckHardware driver).pio.tx := by
      unfold tx_assert_rts
      split
      · exact h
      · exact ⟨h.pc_le, h.delay_le, h.depth⟩
    unfold tx_put at hput
    simp only at hput
    split at hput
    · obtain ⟨-, rfl⟩ := Prod.mk.inj hput
      exact hassert
    · rename_i hroom
      obtain ⟨-, rfl⟩ := Prod.mk.inj hput
      exact tckRuns_put hassert (fun hfull => hroom (decide_eq_true hfull)) _
  reset := fun h => ⟨h.pc_le, Nat.zero_le 1, Nat.zero_le 4⟩
  poll := by
    intro driver h
    unfold tx_poll
    simp only
    split_ifs <;> exact h

/-- What cycles with CTS high leave of a line: if the FIFO is still full, none of
them has taken a word from it. -/
theorem TckLine.ticks {line : TckLine} (hruns : TckRuns line.tx) {levels : List Bool}
    (hhigh : ∀ level ∈ levels, level = true) (hfull : 4 ≤ (levels.foldl TckLine.cycle line).tx.tx_fifo.length) :
    4 ≤ line.tx.tx_fifo.length ∧
      (levels.foldl TckLine.cycle line).due + (levels.foldl TckLine.cycle line).cycles ≤ line.due + line.cycles := by
  induction levels generalizing line with
  | nil => exact ⟨hfull, Nat.le_refl _⟩
  | cons level levels ih =>
    have hlevel := hhigh level List.mem_cons_self
    subst hlevel
    obtain ⟨hnext, hcloser⟩ := @ih (line.cycle true) (hruns.cycle true)
      (fun later hmem => hhigh later (List.mem_cons_of_mem _ hmem)) hfull
    have hdepth := hruns.depth
    have htick := hruns.tick
    change TckTick line.tx (line.cycle true).tx at htick
    cases htick with
    | loads hfifo =>
      rw [hfifo, List.length_cons] at hdepth
      omega
    | waits hfifo hwait =>
      rw [hfifo] at hnext
      have hwaited := hwait (List.ne_nil_of_length_pos (Nat.lt_of_lt_of_le (Nat.zero_lt_succ 3) hnext))
      have hcycles : (line.cycle true).cycles = line.cycles + 1 := List.length_append
      refine ⟨hnext, ?_⟩
      simp only [List.foldl_cons]
      unfold TckLine.due at hcloser ⊢
      omega

theorem cts_cycles {line : TckLine} (hcts : line.cts = true) {levels : List Bool}
    (hhigh : ∀ level ∈ levels, level = true) : (levels.foldl TckLine.cycle line).cts = true :=
  List.foldlRecOn (motive := fun (line : TckLine) => line.cts = true) levels _ hcts
    fun _ _ level hmem => hhigh level hmem

theorem flows_tckHardware : Flows tckHardware TckLine.Flows TckLine.due TckLine.cycles tckByteCycles where
  due_pos := fun line => cyclesToLoad_pos line.tx
  due_le := fun hflows => hflows.1.cyclesToLoad_le
  steady := by
    rintro line ⟨-, hcts⟩
    change line.elapse.1.cts_edges = 0
    unfold TckLine.elapse
    split
    · rfl
    · rename_i us levels schedule hschedule
      refine ctsEdges_eq_zero fun level hmem => ?_
      rw [hcts.now]
      exact hcts.later (us, levels) (hschedule ▸ List.mem_cons_self) level hmem
  elapse := by
    rintro line ⟨hruns, hcts⟩
    change line.elapse.2.Flows
    unfold TckLine.elapse
    split
    · exact ⟨hruns, hcts⟩
    · rename_i us levels schedule hschedule
      have hhigh := hcts.later (us, levels) (hschedule ▸ List.mem_cons_self)
      exact ⟨tckRuns_cycles hruns levels, cts_cycles hcts.now hhigh, fun step hmem =>
        hcts.later step (hschedule ▸ List.mem_cons_of_mem _ hmem)⟩
  closer := by
    rintro line ⟨hruns, hcts⟩ hfull
    have hlength : 4 ≤ line.elapse.2.tx.tx_fifo.length := of_decide_eq_true hfull
    have hticks : 4 ≤ line.tx.tx_fifo.length ∧
        line.elapse.2.due + line.elapse.2.cycles ≤ line.due + line.cycles := by
      unfold TckLine.elapse at hlength ⊢
      split at hlength
      · exact ⟨hlength, Nat.le_refl _⟩
      · rename_i us levels schedule hschedule
        exact TckLine.ticks hruns (hcts.later (us, levels) (hschedule ▸ List.mem_cons_self)) hlength
    exact ⟨decide_eq_true hticks.1, hticks.2⟩
  put := by
    rintro line byte ⟨hruns, hcts⟩ hroom
    exact ⟨tckRuns_put hruns (of_decide_eq_false hroom) _, hcts.now, hcts.later⟩
  reset := by
    rintro driver ⟨hruns, hcts⟩
    exact ⟨⟨hruns.pc_le, Nat.zero_le 1, Nat.zero_le 4⟩, hcts.now, hcts.later⟩
  raise := fun hflows => ⟨⟨hflows.1.pc_le, hflows.1.delay_le, hflows.1.depth⟩, hflows.2.now, hflows.2.later⟩
  raised := fun _ => ⟨rfl, rfl, rfl⟩
  lower := fun hflows => hflows

end ether2ser.tx_queue
