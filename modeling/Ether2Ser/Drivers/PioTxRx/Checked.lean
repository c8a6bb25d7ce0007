import Mathlib.Algebra.Order.Floor.Div
import Ether2Ser.Arith.Checked
import Ether2Ser.Drivers.PioTxRx

open Checked

namespace ether2ser.pio_tx_rx_driver

/-- The hold-off time of `reinit_v24_config`, with every operation checked. -/
def checkedHoldoff (baudrate : UInt32) : Except Fault UInt32 := do
  let sum ← add US_PER_SECOND baudrate
  let numerator ← sub sum 1
  let t_bit_us ← div numerator baudrate
  let tx_rts_holdoff_us ← mul V24_RTS_HOLDOFF_MARGIN t_bit_us
  return if tx_rts_holdoff_us < V24_RTS_MIN_HOLDOFF then V24_RTS_MIN_HOLDOFF else tx_rts_holdoff_us

/-- `reinit_v24_config` where no operation divides by zero or leaves 32 bits. -/
def reinit_v24_config_checked (config : V24Config) (runtime : V24Runtime) (baudrate : UInt32) :
    Except Fault (V24Config × V24Runtime) := do
  let tx_rts_holdoff_us ← checkedHoldoff baudrate
  return ({ config with baudrate := if baudrate ≥ V24_BAUD_1200 then baudrate else V24_BAUD_1200 },
    { runtime with tx_rts_holdoff_us := tx_rts_holdoff_us.toNat, rts_set := false })

/-- The hold-off time for a number of bits per second. -/
def holdoffTime (baudrate : Nat) : Nat := max 200 (41 * (1000000 ⌈/⌉ baudrate))

theorem toNat_max_holdoff (us : UInt32) :
    (if us < V24_RTS_MIN_HOLDOFF then V24_RTS_MIN_HOLDOFF else us).toNat = max 200 us.toNat := by
  have hmin : V24_RTS_MIN_HOLDOFF.toNat = 200 := rfl
  split
  · rename_i hlt
    rw [UInt32.lt_iff_toNat_lt] at hlt
    omega
  · rename_i hlt
    rw [UInt32.lt_iff_toNat_lt] at hlt
    omega

/-- The time of a bit is at most a second. -/
theorem ceilDiv_second_le {baudrate : Nat} (hpos : 0 < baudrate) : 1000000 ⌈/⌉ baudrate ≤ 1000000 := by
  rw [ceilDiv_le_iff_le_mul hpos]
  exact Nat.le_mul_of_pos_left _ hpos

theorem toNat_second_add {baudrate : UInt32} (hfits : US_PER_SECOND.toNat + baudrate.toNat < UInt32.size) :
    (US_PER_SECOND + baudrate).toNat = 1000000 + baudrate.toNat := by
  have hsecond : US_PER_SECOND.toNat = 1000000 := rfl
  rw [UInt32.toNat_add, Nat.mod_eq_of_lt hfits, hsecond]

/-- The time of a bit, where the operations before the division stay inside 32 bits. -/
theorem toNat_bit_time {baudrate : UInt32} (hfits : US_PER_SECOND.toNat + baudrate.toNat < UInt32.size) :
    ((US_PER_SECOND + baudrate - 1) / baudrate).toNat = 1000000 ⌈/⌉ baudrate.toNat := by
  have hone : (1 : UInt32).toNat = 1 := rfl
  have hsum := toNat_second_add hfits
  have hle : (1 : UInt32) ≤ US_PER_SECOND + baudrate := by
    rw [UInt32.le_iff_toNat_le, hsum, hone]
    omega
  rw [UInt32.toNat_div, UInt32.toNat_sub_of_le _ _ hle, hsum, hone, Nat.ceilDiv_eq_add_pred_div]

/-- The baudrates for which no operation of `reinit_v24_config` fails. -/
def SafeBaudrate (baudrate : UInt32) : Prop := 0 < baudrate.toNat ∧ baudrate.toNat + 1000000 < UInt32.size

theorem checkedHoldoff_eq_ok {baudrate us : UInt32} :
    checkedHoldoff baudrate = .ok us ↔ SafeBaudrate baudrate ∧
      (if V24_RTS_HOLDOFF_MARGIN * ((US_PER_SECOND + baudrate - 1) / baudrate) < V24_RTS_MIN_HOLDOFF then
        V24_RTS_MIN_HOLDOFF else V24_RTS_HOLDOFF_MARGIN * ((US_PER_SECOND + baudrate - 1) / baudrate)) = us := by
  have hsecond : US_PER_SECOND.toNat = 1000000 := rfl
  have hmargin : V24_RTS_HOLDOFF_MARGIN.toNat = 41 := rfl
  have hzero : baudrate = 0 ↔ baudrate.toNat = 0 := UInt32.toNat_inj.symm
  simp only [checkedHoldoff, bind_eq_ok, add_eq_ok, sub_eq_ok, div_eq_ok, mul_eq_ok]
  constructor
  · rintro ⟨_, ⟨hfits, rfl⟩, _, ⟨_, rfl⟩, _, ⟨hne, rfl⟩, _, ⟨_, rfl⟩, hus⟩
    exact ⟨⟨Nat.pos_of_ne_zero (mt hzero.mpr hne), by omega⟩, Except.ok.inj hus⟩
  · rintro ⟨⟨hpos, hbound⟩, rfl⟩
    have hfits : US_PER_SECOND.toNat + baudrate.toNat < UInt32.size := by omega
    have hproduct : V24_RTS_HOLDOFF_MARGIN.toNat * ((US_PER_SECOND + baudrate - 1) / baudrate).toNat < UInt32.size := by
      have hle := ceilDiv_second_le hpos
      have hsize : UInt32.size = 4294967296 := rfl
      rw [toNat_bit_time hfits, hmargin]
      omega
    refine ⟨_, ⟨hfits, rfl⟩, _, ⟨?_, rfl⟩, _, ⟨?_, rfl⟩, _, ⟨hproduct, rfl⟩, rfl⟩
    · rw [toNat_second_add hfits]
      exact Nat.le_add_right_of_le (by decide)
    · exact mt hzero.mp (Nat.ne_of_gt hpos)

/-- Where no operation fails, the check changes nothing. -/
theorem reinit_v24_config_checked_eq_ok {config : V24Config} {runtime : V24Runtime} {baudrate : UInt32}
    {result : V24Config × V24Runtime} :
    reinit_v24_config_checked config runtime baudrate = .ok result ↔
      SafeBaudrate baudrate ∧ reinit_v24_config config runtime baudrate = result := by
  simp only [reinit_v24_config_checked, bind_eq_ok, checkedHoldoff_eq_ok]
  constructor
  · rintro ⟨_, ⟨hsafe, rfl⟩, hresult⟩
    exact ⟨hsafe, Except.ok.inj hresult⟩
  · rintro ⟨hsafe, rfl⟩
    exact ⟨_, ⟨hsafe, rfl⟩, rfl⟩

theorem tx_rts_holdoff_us_reinit (config : V24Config) (runtime : V24Runtime) {baudrate : UInt32}
    (hsafe : SafeBaudrate baudrate) :
    (reinit_v24_config config runtime baudrate).2.tx_rts_holdoff_us = holdoffTime baudrate.toNat := by
  have hsecond : US_PER_SECOND.toNat = 1000000 := rfl
  have hmargin : V24_RTS_HOLDOFF_MARGIN.toNat = 41 := rfl
  have hsize : UInt32.size = 4294967296 := rfl
  have hle := ceilDiv_second_le hsafe.1
  have hfits : US_PER_SECOND.toNat + baudrate.toNat < UInt32.size := by
    rw [hsecond, Nat.add_comm]
    exact hsafe.2
  simp only [reinit_v24_config]
  rw [toNat_max_holdoff, UInt32.toNat_mul, toNat_bit_time hfits, hmargin, Nat.mod_eq_of_lt (by omega)]
  rfl

end ether2ser.pio_tx_rx_driver
