import Ether2Ser.Drivers.PioTxRx.TckTxd

open Pio

namespace ether2ser.pio_tx_rx_driver

def TX_PIO_CYCLES_PER_BIT : Nat := 8

/-- The cycles in which a byte is shifted out. -/
def tckByteCycles : Nat := 8 * TX_PIO_CYCLES_PER_BIT

/-- The cycles up to the next bit, with CTS high. -/
def cyclesToOut (pc delay : Nat) : Nat :=
  delay + if pc = 2 then 1 else if pc = 0 then 3 else if pc = 3 then 7 else 5

/-- The cycles, with CTS high, up to the one that loads the next word of the FIFO:
the first, where nothing is left to shift out. -/
def cyclesToLoad (tx : Machine) : Nat :=
  if 8 ≤ tx.osr_count then 1 else TX_PIO_CYCLES_PER_BIT * (7 - tx.osr_count) + cyclesToOut tx.pc tx.delay

/-- The transmitter is inside its program, and its FIFO within its depth. -/
structure TckRuns (tx : Machine) : Prop where
  pc_le : tx.pc ≤ 4
  delay_le : tx.delay ≤ 1
  depth : tx.tx_fifo.length ≤ 4

/-- What a cycle does for the FIFO: it takes a word, or brings the next load
closer. -/
inductive TckTick (tx : Machine) : Machine → Prop where
  | loads {next : Machine} {word : BitVec 32} (hfifo : tx.tx_fifo = word :: next.tx_fifo) : TckTick tx next
  | waits {next : Machine} (hfifo : next.tx_fifo = tx.tx_fifo)
    (hcloser : tx.tx_fifo ≠ [] → cyclesToLoad next + 1 ≤ cyclesToLoad tx) : TckTick tx next

theorem cyclesToOut_le {pc delay : Nat} (hdelay : delay ≤ 1) : cyclesToOut pc delay ≤ TX_PIO_CYCLES_PER_BIT := by
  unfold cyclesToOut TX_PIO_CYCLES_PER_BIT
  split_ifs <;> omega

theorem cyclesToLoad_pos (tx : Machine) : 0 < cyclesToLoad tx := by
  unfold cyclesToLoad cyclesToOut
  split_ifs <;> omega

theorem TckRuns.cyclesToLoad_le {tx : Machine} (h : TckRuns tx) : cyclesToLoad tx ≤ tckByteCycles := by
  have hout := @cyclesToOut_le tx.pc tx.delay h.delay_le
  unfold cyclesToLoad tckByteCycles
  unfold TX_PIO_CYCLES_PER_BIT at *
  split_ifs <;> omega

theorem tckTick_load {tx moved other : Machine} (hfifo : moved.tx_fifo = tx.tx_fifo)
    (hother : other.tx_fifo = tx.tx_fifo) : TckTick tx (moved.load.getD other) := by
  unfold Machine.load
  rw [hfifo]
  cases hwords : tx.tx_fifo with
  | nil => exact .waits hother fun hsome => absurd hwords hsome
  | cons word words => exact .loads hwords

/-- What autopull does behind an instruction. -/
theorem tckTick_refill {tx moved : Machine} (hfifo : moved.tx_fifo = tx.tx_fifo)
    (hcloser : moved.osr_count < 8 → cyclesToLoad moved + 1 ≤ cyclesToLoad tx) :
    TckTick tx (moved.refill tck_config) := by
  unfold Machine.refill
  split
  · exact tckTick_load hfifo hfifo
  · rename_i hleft
    exact .waits hfifo fun _ => hcloser (Nat.lt_of_not_le fun hle => hleft ⟨rfl, hle⟩)

/-- An instruction that leaves the output register alone. -/
theorem tckTick_moves {tx moved : Machine} (hfifo : moved.tx_fifo = tx.tx_fifo)
    (hcount : moved.osr_count = tx.osr_count)
    (hcloser : cyclesToOut moved.pc moved.delay + 1 ≤ cyclesToOut tx.pc tx.delay) :
    TckTick tx (moved.refill tck_config) := by
  refine tckTick_refill hfifo fun hbits => ?_
  rw [hcount] at hbits
  unfold cyclesToLoad
  rw [hcount, if_neg (Nat.not_le_of_lt hbits), if_neg (Nat.not_le_of_lt hbits)]
  omega

/-- OUT shifts out the bit that was waited for, or loads the word that it lacks. -/
theorem tckTick_out {tx : Machine} (hpc : tx.pc = 2) (hdelay : tx.delay = 0) (side_pin : Bool) :
    TckTick tx (Machine.outPins tck_config 1 { tx with side_pin }) := by
  unfold Machine.outPins
  split
  · exact tckTick_load rfl rfl
  · rename_i hshifts
    have hbits : ¬ 8 ≤ tx.osr_count := fun hle => hshifts ⟨rfl, hle⟩
    refine tckTick_refill rfl fun hmore => ?_
    simp only [Machine.goto] at hmore
    simp only [cyclesToLoad, cyclesToOut, Machine.goto, Machine.following, tck_config, hpc, hdelay, if_neg hbits,
      if_neg (Nat.not_le_of_lt hmore), TX_PIO_CYCLES_PER_BIT]
    simp
    omega

/-- With CTS high, every cycle brings the next load of the FIFO closer. -/
theorem TckRuns.tick {tx : Machine} (h : TckRuns tx) : TckTick tx (tx.cycle tck_config (ctsPins true)) := by
  have hpc := h.pc_le
  cases hcycles : tx.delay with
  | succ delay =>
    rw [tx.cycle_of_delay hcycles]
    refine tckTick_moves rfl rfl ?_
    simp only [cyclesToOut, hcycles]
    omega
  | zero =>
    have hcases : tx.pc = 0 ∨ tx.pc = 1 ∨ tx.pc = 2 ∨ tx.pc = 3 ∨ tx.pc = 4 := by omega
    obtain hzero | hone | htwo | hthree | hfour := hcases
    · rw [tx.cycle_of_fetch hcycles (by rw [hzero]; rfl)]
      refine tckTick_moves rfl rfl ?_
      simp [Machine.goto, cyclesToOut, ctsPins, hzero, hcycles]
    · rw [tx.cycle_of_fetch hcycles (by rw [hone]; rfl)]
      refine tckTick_moves rfl rfl ?_
      simp [Machine.goto, cyclesToOut, hone, hcycles]
    · rw [tx.cycle_of_fetch hcycles (by rw [htwo]; rfl)]
      exact tckTick_out htwo hcycles true
    · rw [tx.cycle_of_fetch hcycles (by rw [hthree]; rfl)]
      refine tckTick_moves rfl rfl ?_
      simp [Machine.goto, Machine.following, tck_config, cyclesToOut, hthree, hcycles]
    · rw [tx.cycle_of_fetch hcycles (by rw [hfour]; rfl)]
      refine tckTick_moves rfl rfl ?_
      simp [Machine.goto, cyclesToOut, hfour, hcycles]

theorem TckRuns.cycle {tx : Machine} (h : TckRuns tx) (cts : Bool) : TckRuns (tx.cycle tck_config (ctsPins cts)) := by
  have hdepth := Nat.le_trans (tx.tx_fifo_cycle tck_config (ctsPins cts)).length_le h.depth
  have hruns : ∀ stage : Stage, (tx.cycle tck_config (ctsPins cts)).stage = stage → stage.pc ≤ 4 → stage.delay ≤ 1 →
      TckRuns (tx.cycle tck_config (ctsPins cts)) := by
    rintro stage rfl hpc hdelay
    exact ⟨hpc, hdelay, hdepth⟩
  have hpc := h.pc_le
  cases hcycles : tx.delay with
  | succ delay =>
    have hdelay := h.delay_le
    rw [hcycles] at hdelay
    exact hruns _ (tck_idle cts hcycles).1 hpc (Nat.le_of_succ_le hdelay)
  | zero =>
    have hcases : tx.pc = 0 ∨ tx.pc = 1 ∨ tx.pc = 2 ∨ tx.pc = 3 ∨ tx.pc = 4 := by omega
    obtain hzero | hone | htwo | hthree | hfour := hcases
    · refine hruns _ (tck_jmp_pin cts hzero hcycles).1 ?_ (Nat.le_refl 1)
      simp only
      split <;> omega
    · exact hruns _ (tck_again cts hone rfl hcycles).1 (Nat.zero_le 4) (Nat.le_refl 1)
    · obtain ⟨bit, hstage, -⟩ | ⟨hstage, -⟩ := tck_out cts htwo hcycles
      · exact hruns _ hstage (Nat.le_succ 3) (Nat.le_refl 1)
      · exact hruns _ hstage hpc h.delay_le
    · exact hruns _ (tck_nop cts hthree hcycles).1 (Nat.le_refl 4) (Nat.le_refl 1)
    · exact hruns _ (tck_again cts hfour rfl hcycles).1 (Nat.zero_le 4) (Nat.le_refl 1)

end ether2ser.pio_tx_rx_driver
