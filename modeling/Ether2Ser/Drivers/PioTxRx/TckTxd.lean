import Ether2Ser.Pio.Shift
import Ether2Ser.Signals.Clocked

open Bits Pio Signals

namespace ether2ser.pio_tx_rx_driver

/-- `tck_txd.pio`, with `bitloop` at 0 and `send` at 2. -/
def tck_txd_program : List Instruction :=
  [ { operation := .jmp .pin 2, side := some false, delay := 1 },
    { operation := .jmp .always 0, side := some false, delay := 1 },
    { operation := .out_pins, side := some true, delay := 1 },
    { operation := .nop, side := some false, delay := 1 },
    { operation := .jmp .always 0, side := some false, delay := 1 } ]

/-- The configuration of `tx_clock_init_tck`: TXC on the side-set pin, TXD on the
output pin and CTS on the jump pin. -/
def tck_config : Config where
  program := tck_txd_program
  wrap_target := 0
  wrap := 4
  in_shift := { right := true, auto := false, threshold := 32 }
  out_shift := { right := true, auto := true, threshold := 8 }
  tx_depth := 4
  rx_depth := 4

/-- CTS as the transmitter sees it. -/
def ctsPins (cts : Bool) : Pins where
  jmp_pin := cts
  in_pin := false

/-- What the transmitter drives on its clock and its data line. -/
def driven (tx : Machine) : Line where
  clock := tx.side_pin
  data := tx.out_pin

/-- Where the program stands, by what it has driven. -/
inductive TckPhase : Stage → Reader → Prop where
  | low {stage : Stage} {reader : Reader} (hpc : stage.pc ≤ 2 ∨ (stage.pc = 4 ∧ stage.delay = 0))
      (hdelay : stage.delay ≤ 1) (hreader : reader = .steady false) : TckPhase stage reader
  | waiting {stage : Stage} {reader : Reader} (hpc : stage.pc = 2) (hdelay : stage.delay = 0)
      (hclock : reader.clock = true) (hfallen : reader.fallen = none) : TckPhase stage reader
  | high {stage : Stage} {reader : Reader} (hpc : stage.pc = 3) (hdelay : stage.delay ≤ 1)
      (hclock : reader.clock = true) (hrising : reader.rising = true → stage.delay = 1)
      (hfallen : reader.fallen = none) : TckPhase stage reader
  | fell {stage : Stage} {reader : Reader} (hpc : stage.pc = 4) (hdelay : stage.delay = 1)
      (hclock : reader.clock = false) (hrising : reader.rising = false) (hfallen : reader.fallen = some stage.out_pin) :
      TckPhase stage reader

/-- The transmitter is in step with what a reader has seen of it. -/
structure TckInStep (tx : Machine) (reader : Reader) : Prop where
  phase : TckPhase tx.stage reader
  side_eq : tx.side_pin = reader.clock

/-- The bits that have no falling edge yet. -/
def unclocked (tx : Machine) : List Bool := (if tx.pc = 3 then [tx.out_pin] else []) ++ tx.unsent tck_config

/-- What a cycle of the transmitter shows to a reader. -/
structure TckStep (tx : Machine) (reader : Reader) (next : Machine) : Prop where
  inStep : TckInStep next (reader.next (driven next))
  accepts : reader.Accepts (driven next)
  unclocked_eq : (reader.next (driven next)).fallen.toList ++ unclocked next = unclocked tx

section

variable {tx : Machine} (cts : Bool)

theorem tck_idle {delay : Nat} (hdelay : tx.delay = delay + 1) :
    (tx.cycle tck_config (ctsPins cts)).stage = { tx.stage with delay } ∧
      (tx.cycle tck_config (ctsPins cts)).unsent tck_config = tx.unsent tck_config := by
  rw [tx.cycle_of_delay hdelay, Machine.stage_refill, Machine.unsent_refill]
  exact ⟨rfl, rfl⟩

/-- The instructions other than OUT drive the clock low and shift nothing out. -/
theorem tck_jmp_pin (hpc : tx.pc = 0) (hdelay : tx.delay = 0) :
    (tx.cycle tck_config (ctsPins cts)).stage =
        { tx.stage with pc := if cts then 2 else 1, delay := 1, side_pin := false } ∧
      (tx.cycle tck_config (ctsPins cts)).unsent tck_config = tx.unsent tck_config := by
  rw [tx.cycle_of_fetch hdelay (by rw [hpc]; rfl)]
  simp only [Machine.execute, Machine.stage_refill, Machine.unsent_refill]
  refine ⟨?_, rfl⟩
  cases cts <;> simp [Machine.stage, Machine.goto, Machine.following, ctsPins, tck_config, hpc]

theorem tck_again {pc : Nat} (hpc : tx.pc = pc) (hfetch : tck_txd_program[pc]? =
      some { operation := .jmp .always 0, side := some false, delay := 1 }) (hdelay : tx.delay = 0) :
    (tx.cycle tck_config (ctsPins cts)).stage = { tx.stage with pc := 0, delay := 1, side_pin := false } ∧
      (tx.cycle tck_config (ctsPins cts)).unsent tck_config = tx.unsent tck_config := by
  rw [tx.cycle_of_fetch hdelay (by rw [hpc]; exact hfetch)]
  simp only [Machine.execute, Machine.stage_refill, Machine.unsent_refill]
  exact ⟨rfl, rfl⟩

theorem tck_nop (hpc : tx.pc = 3) (hdelay : tx.delay = 0) :
    (tx.cycle tck_config (ctsPins cts)).stage = { tx.stage with pc := 4, delay := 1, side_pin := false } ∧
      (tx.cycle tck_config (ctsPins cts)).unsent tck_config = tx.unsent tck_config := by
  rw [tx.cycle_of_fetch hdelay (by rw [hpc]; rfl)]
  simp only [Machine.execute, Machine.stage_refill, Machine.unsent_refill]
  refine ⟨?_, rfl⟩
  simp [Machine.stage, Machine.goto, Machine.following, tck_config, hpc]

theorem tck_out (hpc : tx.pc = 2) (hdelay : tx.delay = 0) :
    (∃ bit, (tx.cycle tck_config (ctsPins cts)).stage = { pc := 3, delay := 1, side_pin := true, out_pin := bit } ∧
        bit :: (tx.cycle tck_config (ctsPins cts)).unsent tck_config = tx.unsent tck_config) ∨
      ((tx.cycle tck_config (ctsPins cts)).stage = { tx.stage with side_pin := true } ∧
        (tx.cycle tck_config (ctsPins cts)).unsent tck_config = tx.unsent tck_config) := by
  rw [tx.cycle_of_fetch hdelay (by rw [hpc]; rfl)]
  simp only [Machine.execute, Option.getD_some]
  have hout := @Machine.outStep tck_config rfl rfl (by decide) 1 { tx with side_pin := true }
  generalize Machine.outPins tck_config 1 { tx with side_pin := true } = next at hout
  cases hout with
  | sends bit hstage hunsent =>
    refine .inl ⟨bit, ?_, hunsent⟩
    rw [hstage]
    simp [Machine.stage, Machine.following, tck_config, hpc]
  | stalls hstage hunsent => exact .inr ⟨hstage, hunsent⟩

end

theorem unclocked_of_stage {tx : Machine} {stage : Stage} (hstage : tx.stage = stage) :
    unclocked tx = (if stage.pc = 3 then [stage.out_pin] else []) ++ tx.unsent tck_config := by
  rw [← hstage]
  rfl

theorem driven_of_stage {tx : Machine} {stage : Stage} (hstage : tx.stage = stage) :
    driven tx = { clock := stage.side_pin, data := stage.out_pin } := by
  rw [← hstage]
  rfl

/-- A cycle that keeps the clock low shows nothing. -/
theorem tckStep_low {tx next : Machine} {reader : Reader} {stage : Stage} (hstage : next.stage = stage)
    (hunsent : next.unsent tck_config = tx.unsent tck_config) (htx : tx.pc ≠ 3) (hclock : reader.clock = false)
    (hrising : reader.rising = false) (hfallen : ∀ bit ∈ reader.fallen, stage.out_pin = bit)
    (hside : stage.side_pin = false) (hpc : stage.pc ≤ 2 ∨ (stage.pc = 4 ∧ stage.delay = 0))
    (hdelay : stage.delay ≤ 1) : TckStep tx reader next := by
  have hreader : reader.next (driven next) = .steady false := by
    simp [driven_of_stage hstage, Reader.next, Reader.steady, hclock, hside]
  have hnot : stage.pc ≠ 3 := by omega
  refine ⟨⟨?_, rfl⟩, ⟨?_, ?_⟩, ?_⟩
  · rw [hstage, hreader]
    exact .low hpc hdelay rfl
  · rw [hrising]
    exact Bool.noConfusion
  · rw [driven_of_stage hstage]
    exact hfallen
  · rw [hreader, unclocked_of_stage hstage, hunsent, if_neg hnot, unclocked, if_neg htx]
    rfl

/-- The instruction that drives a bit raises the clock. -/
theorem tckStep_out {tx : Machine} {reader : Reader} (cts : Bool) (hpc : tx.pc = 2) (hdelay : tx.delay = 0)
    (hfallen : reader.fallen = none) : TckStep tx reader (tx.cycle tck_config (ctsPins cts)) := by
  have hnot : tx.pc ≠ 3 := by omega
  obtain ⟨bit, hstage, hunsent⟩ | ⟨hstage, hunsent⟩ := tck_out cts hpc hdelay
  · have hdriven := driven_of_stage hstage
    refine ⟨⟨?_, rfl⟩, ⟨?_, ?_⟩, ?_⟩
    · rw [hstage, hdriven]
      exact .high rfl (Nat.le_refl 1) rfl (fun _ => rfl) (by simp [Reader.next])
    · rw [hdriven]
      exact fun _ => rfl
    · rw [hfallen]
      exact fun _ hbit => by cases hbit
    · rw [hdriven, unclocked_of_stage hstage, unclocked, if_neg hnot, ← hunsent]
      simp [Reader.next]
  · have hdriven := driven_of_stage hstage
    refine ⟨⟨?_, rfl⟩, ⟨?_, ?_⟩, ?_⟩
    · rw [hstage, hdriven]
      exact .waiting hpc hdelay rfl (by simp [Reader.next])
    · rw [hdriven]
      exact fun _ => rfl
    · rw [hfallen]
      exact fun _ hbit => by cases hbit
    · rw [hdriven, unclocked_of_stage hstage, hunsent, unclocked]
      simp [Reader.next, Machine.stage]
      rfl

/-- Every cycle shows a reader a sample that it can follow, and at most the next
bit of the transmitter. -/
theorem TckInStep.cycle {tx : Machine} {reader : Reader} (h : TckInStep tx reader) (cts : Bool) :
    TckStep tx reader (tx.cycle tck_config (ctsPins cts)) := by
  obtain ⟨hphase, hside⟩ := h
  cases hphase with
  | low hpc hdelay hreader =>
    subst hreader
    have hnone : ∀ out, ∀ bit ∈ (Reader.steady false).fallen, out = bit := fun _ _ hbit => by cases hbit
    simp only [Machine.stage] at hpc hdelay
    cases hcycles : tx.delay with
    | succ delay =>
      obtain ⟨hstage, hunsent⟩ := tck_idle cts hcycles
      refine tckStep_low hstage hunsent (by omega) rfl rfl (hnone _) hside ?_ ?_
      · simp only [Machine.stage]
        omega
      · simp only
        omega
    | zero =>
      have hcases : tx.pc = 0 ∨ tx.pc = 1 ∨ tx.pc = 2 ∨ tx.pc = 4 := by omega
      obtain hzero | hone | htwo | hfour := hcases
      · obtain ⟨hstage, hunsent⟩ := tck_jmp_pin cts hzero hcycles
        refine tckStep_low hstage hunsent (by omega) rfl rfl (hnone _) rfl (.inl ?_) (Nat.le_refl 1)
        cases cts
        · exact Nat.le_succ 1
        · exact Nat.le_refl 2
      · obtain ⟨hstage, hunsent⟩ := tck_again cts hone rfl hcycles
        exact tckStep_low hstage hunsent (by omega) rfl rfl (hnone _) rfl (.inl (Nat.zero_le _)) (Nat.le_refl 1)
      · exact tckStep_out cts htwo hcycles rfl
      · obtain ⟨hstage, hunsent⟩ := tck_again cts hfour rfl hcycles
        exact tckStep_low hstage hunsent (by omega) rfl rfl (hnone _) rfl (.inl (Nat.zero_le _)) (Nat.le_refl 1)
  | waiting hpc hdelay hclock hfallen => exact tckStep_out cts hpc hdelay hfallen
  | high hpc hdelay hclock hrising hfallen =>
    simp only [Machine.stage] at hpc hdelay hrising
    have hquiet : ∀ out, ∀ bit ∈ reader.fallen, out = bit := by
      rw [hfallen]
      exact fun _ _ hbit => by cases hbit
    cases hcycles : tx.delay with
    | succ delay =>
      obtain ⟨hstage, hunsent⟩ := tck_idle cts hcycles
      have hdriven : driven (tx.cycle tck_config (ctsPins cts)) = { clock := true, data := tx.out_pin } := by
        rw [driven_of_stage hstage, ← hclock, ← hside]
        rfl
      refine ⟨⟨?_, rfl⟩, ⟨?_, ?_⟩, ?_⟩
      · rw [hstage, hdriven]
        refine .high hpc (by simp only; omega) rfl ?_ ?_
        · simp [Reader.next, hclock]
        · simp [Reader.next]
      · rw [hdriven]
        exact fun _ => rfl
      · exact hquiet _
      · rw [hdriven, unclocked_of_stage hstage, hunsent, unclocked]
        simp [Reader.next, Machine.stage]
        rfl
    | zero =>
      obtain ⟨hstage, hunsent⟩ := tck_nop cts hpc hcycles
      have hdriven : driven (tx.cycle tck_config (ctsPins cts)) = { clock := false, data := tx.out_pin } := by
        rw [driven_of_stage hstage]
        rfl
      refine ⟨⟨?_, rfl⟩, ⟨?_, ?_⟩, ?_⟩
      · rw [hstage, hdriven]
        refine .fell rfl rfl rfl ?_ ?_
        · simp [Reader.next]
        · simp [Reader.next, hclock, Machine.stage]
      · intro hrose
        have hone := hrising hrose
        omega
      · exact hquiet _
      · rw [hdriven, unclocked_of_stage hstage, hunsent, unclocked, if_pos hpc]
        simp [Reader.next, hclock]
  | fell hpc hdelay hclock hrising hfallen =>
    simp only [Machine.stage] at hpc hdelay
    obtain ⟨hstage, hunsent⟩ := tck_idle cts hdelay
    refine tckStep_low hstage hunsent (by omega) hclock hrising ?_ (hside.trans hclock) (.inr ⟨hpc, rfl⟩)
      (Nat.zero_le 1)
    rw [hfallen]
    exact fun _ hbit => Option.some.inj hbit

end ether2ser.pio_tx_rx_driver
