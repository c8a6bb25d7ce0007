import Ether2Ser.Bits.Bytes
import Ether2Ser.Pio.Machine

open Bits

namespace Pio

/-- The bits that were shifted into a register from its most significant end,
oldest first. -/
def inBits (register : BitVec 32) (count : Nat) : List Bool :=
  (List.range count).map fun i => register.getLsbD (32 - count + i)

/-- The next bits that will be shifted out of a register at its least significant
end. -/
def outBits (register : BitVec 32) (count : Nat) : List Bool := (List.range count).map register.getLsbD

@[simp]
theorem length_inBits (register : BitVec 32) (count : Nat) : (inBits register count).length = count := by
  simp [inBits]

@[simp]
theorem length_outBits (register : BitVec 32) (count : Nat) : (outBits register count).length = count := by
  simp [outBits]

theorem getLsbD_shiftIn {shift : Shift} (hright : shift.right = true) (register : BitVec 32) (bit : Bool) {i : Nat}
    (hi : i < 32) :
    (shift.shiftIn register bit).getLsbD i = if i = 31 then bit else register.getLsbD (i + 1) := by
  have hmask : ∀ i < 32, (if bit then 1#32 <<< 31 else 0#32).getLsbD i = (bit && decide (i = 31)) := by
    revert bit
    decide
  rw [Shift.shiftIn, if_pos hright, BitVec.getLsbD_or, BitVec.getLsbD_ushiftRight]
  have hcell := hmask i hi
  rw [show (0 : BitVec 32) = 0#32 from rfl, hcell, Nat.add_comm 1 i]
  by_cases hlast : i = 31
  · rw [if_pos hlast, hlast, BitVec.getLsbD_of_ge _ _ (by decide)]
    simp
  · simp [hlast]

theorem inBits_shiftIn {shift : Shift} (hright : shift.right = true) (register : BitVec 32) (bit : Bool) {count : Nat}
    (hcount : count < 32) : inBits (shift.shiftIn register bit) (count + 1) = inBits register count ++ [bit] := by
  have hlast : 32 - (count + 1) + count = 31 := by omega
  rw [inBits, List.range_succ, List.map_append, List.map_singleton, hlast, getLsbD_shiftIn hright _ _ (by decide),
    if_pos rfl, inBits]
  congr 1
  apply List.map_congr_left
  intro i hi
  rw [List.mem_range] at hi
  rw [getLsbD_shiftIn hright _ _ (by omega), if_neg (by omega)]
  congr 1
  omega

/-- Shifting a bit out leaves the bits behind it. -/
theorem outBits_succ (register : BitVec 32) (count : Nat) :
    outBits register (count + 1) = register.getLsbD 0 :: outBits (register >>> 1) count := by
  rw [outBits, List.range_succ_eq_map, List.map_cons, List.map_map, outBits]
  congr 1
  apply List.map_congr_left
  intro i _
  rw [BitVec.getLsbD_ushiftRight, Nat.add_comm]
  rfl

/-- A byte put into a transmit FIFO. -/
def wordOfByte (byte : UInt8) : BitVec 32 := byte.toBitVec.setWidth 32

/-- The byte in the upper bits of a word. -/
def upperByte (word : BitVec 32) : UInt8 := UInt8.ofBitVec ((word >>> 24).setWidth 8)

theorem outBits_wordOfByte (byte : UInt8) : outBits (wordOfByte byte) 8 = byteBits true byte := by
  rw [outBits, byteBits]
  apply List.map_congr_left
  intro i hi
  rw [List.mem_range] at hi
  simp only [wordOfByte, BitVec.getLsbD_setWidth, bitAt, bitPos, if_true]
  rw [decide_eq_true (by omega : i < 32), Bool.true_and]

theorem byteBits_upperByte (word : BitVec 32) : byteBits true (upperByte word) = inBits word 8 := by
  rw [inBits, byteBits]
  apply List.map_congr_left
  intro i hi
  rw [List.mem_range] at hi
  simp only [upperByte, bitAt, bitPos, if_true]
  rw [BitVec.getLsbD_setWidth, decide_eq_true hi, Bool.true_and, BitVec.getLsbD_ushiftRight]

section

variable {config : Config} {m : Machine}

/-- The bits that a machine with autopush holds. -/
def Machine.gathered (config : Config) (m : Machine) : List Bool :=
  (m.rx_fifo.flatMap fun word => inBits word config.in_shift.threshold) ++ inBits m.isr m.isr_count

/-- IN with autopush gathers a bit, unless it stalls. -/
theorem Machine.gathered_inPins (hright : config.in_shift.right = true) (hauto : config.in_shift.auto = true)
    (hthreshold : config.in_shift.threshold ≤ 32) (hcount : m.isr_count < config.in_shift.threshold) {delay : Nat}
    {bit : Bool} (hroom : (m.inPins config delay bit).rxstall = false) :
    (m.inPins config delay bit).gathered config = m.gathered config ++ [bit] ∧
      (m.inPins config delay bit).pc = m.following config ∧ (m.inPins config delay bit).delay = delay ∧
      (m.inPins config delay bit).isr_count < config.in_shift.threshold := by
  have hshift : inBits (config.in_shift.shiftIn m.isr bit) (m.isr_count + 1) = inBits m.isr m.isr_count ++ [bit] :=
    inBits_shiftIn hright _ _ (by omega)
  have hmin : min 32 (m.isr_count + 1) = m.isr_count + 1 := by omega
  simp only [inPins, hauto, hmin, true_and] at hroom ⊢
  by_cases hfull : config.in_shift.threshold ≤ m.isr_count + 1
  · have hlast : m.isr_count + 1 = config.in_shift.threshold := by omega
    simp only [hfull, if_true] at hroom ⊢
    split at hroom
    · cases hroom
    · rename_i hplace
      rw [if_neg hplace]
      rw [hlast] at hshift
      refine ⟨?_, rfl, rfl, Nat.zero_lt_of_lt hcount⟩
      simp only [gathered, goto, List.flatMap_append, List.flatMap_cons, List.flatMap_nil, List.append_nil, hshift,
        List.append_assoc]
      rfl
  · simp only [hfull, if_false]
    refine ⟨?_, rfl, rfl, Nat.lt_of_not_le hfull⟩
    simp only [gathered, goto, hshift, List.append_assoc]

/-- The bits that a machine has still to shift out. -/
def Machine.unsent (config : Config) (m : Machine) : List Bool :=
  outBits m.osr (config.out_shift.threshold - m.osr_count) ++
    m.tx_fifo.flatMap fun word => outBits word config.out_shift.threshold

/-- Loading an empty output register. -/
theorem Machine.unsent_load {loaded : Machine} (hempty : config.out_shift.threshold ≤ m.osr_count)
    (hload : m.load = some loaded) :
    ∃ word tx_fifo, loaded = { m with osr := word, osr_count := 0, tx_fifo } ∧
      loaded.unsent config = m.unsent config := by
  unfold load at hload
  cases hfifo : m.tx_fifo with
  | nil =>
    rw [hfifo] at hload
    cases hload
  | cons word tx_fifo =>
    rw [hfifo] at hload
    cases hload
    refine ⟨word, tx_fifo, rfl, ?_⟩
    simp only [unsent, hfifo, Nat.sub_eq_zero_of_le hempty, Nat.sub_zero, List.flatMap_cons]
    rfl

/-- A refill moves a word from the FIFO to the output register, or nothing. -/
theorem Machine.refill_eq (config : Config) (m : Machine) :
    ∃ osr osr_count tx_fifo, m.refill config = { m with osr, osr_count, tx_fifo } ∧
      (m.refill config).unsent config = m.unsent config := by
  unfold refill
  split
  · rename_i hempty
    cases hload : m.load with
    | none => exact ⟨_, _, _, rfl, rfl⟩
    | some loaded =>
      obtain ⟨word, tx_fifo, rfl, hunsent⟩ := unsent_load hempty.2 hload
      exact ⟨_, _, _, rfl, hunsent⟩
  · exact ⟨_, _, _, rfl, rfl⟩

@[simp]
theorem Machine.unsent_refill (config : Config) (m : Machine) : (m.refill config).unsent config = m.unsent config :=
  (refill_eq config m).choose_spec.choose_spec.choose_spec.2

/-- The pins and the place in the program, which a refill leaves alone. -/
structure Stage where
  pc : Nat
  delay : Nat
  side_pin : Bool
  out_pin : Bool
  deriving DecidableEq, Repr

def Machine.stage (m : Machine) : Stage where
  pc := m.pc
  delay := m.delay
  side_pin := m.side_pin
  out_pin := m.out_pin

@[simp]
theorem Machine.stage_refill (config : Config) (m : Machine) : (m.refill config).stage = m.stage := by
  obtain ⟨osr, osr_count, tx_fifo, heq, -⟩ := refill_eq config m
  rw [heq]
  rfl

/-- What OUT does with autopull: it drives the next bit, or it stalls where it
is. -/
inductive OutStep (config : Config) (delay : Nat) (m : Machine) : Machine → Prop where
  | sends (next : Machine) (bit : Bool)
      (hstage : next.stage = { m.stage with pc := m.following config, delay, out_pin := bit })
      (hunsent : bit :: next.unsent config = m.unsent config) : OutStep config delay m next
  | stalls (next : Machine) (hstage : next.stage = m.stage) (hunsent : next.unsent config = m.unsent config) :
      OutStep config delay m next

theorem Machine.outStep (hright : config.out_shift.right = true) (hauto : config.out_shift.auto = true)
    (hthreshold : config.out_shift.threshold ≤ 32) (delay : Nat) (m : Machine) :
    OutStep config delay m (m.outPins config delay) := by
  unfold outPins
  by_cases hempty : config.out_shift.threshold ≤ m.osr_count
  · rw [if_pos ⟨hauto, hempty⟩]
    cases hload : m.load with
    | none => exact .stalls _ rfl rfl
    | some loaded =>
      obtain ⟨word, tx_fifo, rfl, hunsent⟩ := unsent_load hempty hload
      exact .stalls _ rfl hunsent
  · rw [if_neg (fun h => hempty h.2)]
    simp only [Shift.shiftOut, hright, if_true]
    have hmin : min 32 (m.osr_count + 1) = m.osr_count + 1 := by omega
    have hleft : config.out_shift.threshold - m.osr_count =
        config.out_shift.threshold - (m.osr_count + 1) + 1 := by omega
    refine .sends _ (m.osr.getLsbD 0) ?_ ?_
    · rw [stage_refill]
      rfl
    · rw [unsent_refill]
      simp only [goto, unsent, hmin]
      rw [hleft, outBits_succ]
      rfl

end

end Pio
