import Ether2Ser.Drivers.PioTxRx.Checked
import Ether2Ser.System.AppInit

open Checked ether2ser.persistent_config ether2ser.pio_tx_rx_driver

namespace ether2ser.control_plane

variable {σ : Type}

/-- Booting from the flash divides by no zero and stays inside 32 bits, and the
hold-off time is the one for the baudrate that the transmit clock is set to. -/
def BootArithmeticSafe (flash : Flash) (pio : σ) : Prop :=
  (∃ result, reinit_v24_config_checked flash.v24_config runtimeAtReset flash.v24_config.baudrate = .ok result) ∧
    (boot flash pio).app.driver.v24_runtime.tx_rts_holdoff_us =
      max 200 (41 * (1000000 ⌈/⌉ (boot flash pio).v24_config.baudrate.toNat))

/-- A boot from a flash with the marker runs `reinit_v24_config` on what is stored. -/
theorem boot_of_magic {flash : Flash} (hmagic : flash.magic = CONFIG_MAGIC) (pio : σ) :
    (boot flash pio).v24_config = (reinit_v24_config flash.v24_config runtimeAtReset flash.v24_config.baudrate).1 ∧
      (boot flash pio).app.driver.v24_runtime =
        (reinit_v24_config flash.v24_config runtimeAtReset flash.v24_config.baudrate).2 := by
  have hvalid : config_is_valid flash = true := beq_iff_eq.mpr hmagic
  have hread : config_read flash = some flash := if_neg (not_not.mpr hmagic)
  unfold boot
  rw [if_pos hvalid, hread]
  exact ⟨rfl, rfl⟩

/-- Below the slowest baudrate the time of a bit is longer than at this baudrate. -/
theorem holdoffTime_slow {baudrate : Nat} (hpos : 0 < baudrate) (hslow : baudrate < 1200) :
    holdoffTime 1200 < holdoffTime baudrate := by
  have hclamped : 1000000 ⌈/⌉ 1200 = 834 := by rw [Nat.ceilDiv_eq_add_pred_div]
  have hbit : 835 ≤ 1000000 ⌈/⌉ baudrate := by
    rw [Nat.ceilDiv_eq_add_pred_div, Nat.le_div_iff_mul_le hpos]
    omega
  unfold holdoffTime
  omega

/-- The clamp of `reinit_v24_config`. -/
theorem toNat_baudrate_reinit (config : V24Config) (runtime : V24Runtime) (baudrate : UInt32) :
    (reinit_v24_config config runtime baudrate).1.baudrate.toNat = max 1200 baudrate.toNat := by
  have hclamp : V24_BAUD_1200.toNat = 1200 := rfl
  simp only [reinit_v24_config, ge_iff_le, UInt32.le_iff_toNat_le]
  split <;> omega

/-- The boot is safe exactly for the stored baudrates from 1200 on that leave room
for the microseconds of a second. -/
theorem boot_arithmetic_safe_iff {flash : Flash} (hmagic : flash.magic = CONFIG_MAGIC) (pio : σ) :
    BootArithmeticSafe flash pio ↔
      1200 ≤ flash.v24_config.baudrate.toNat ∧ flash.v24_config.baudrate.toNat ≤ 4293967295 := by
  have hsize : UInt32.size = 4294967296 := rfl
  obtain ⟨hconfig, hruntime⟩ := boot_of_magic hmagic pio
  unfold BootArithmeticSafe
  rw [hconfig, hruntime, toNat_baudrate_reinit]
  simp only [reinit_v24_config_checked_eq_ok, exists_and_left, exists_eq', and_true]
  constructor
  · rintro ⟨hsafe, hholdoff⟩
    rw [tx_rts_holdoff_us_reinit _ _ hsafe] at hholdoff
    have hfits := hsafe.2
    refine ⟨?_, by omega⟩
    by_contra hslow
    have hclamped : max 1200 flash.v24_config.baudrate.toNat = 1200 := Nat.max_eq_left (by omega)
    rw [hclamped] at hholdoff
    exact Nat.ne_of_gt (holdoffTime_slow hsafe.1 (by omega)) hholdoff
  · rintro ⟨hfast, hfits⟩
    have hsafe : SafeBaudrate flash.v24_config.baudrate := ⟨by omega, by omega⟩
    have hclamped : max 1200 flash.v24_config.baudrate.toNat = flash.v24_config.baudrate.toNat :=
      Nat.max_eq_right hfast
    rw [tx_rts_holdoff_us_reinit _ _ hsafe, hclamped]
    exact ⟨hsafe, rfl⟩

/-- A flash with the marker and a baudrate, and zeroes elsewhere. -/
def flashWithBaudrate (baudrate : UInt32) : Flash :=
  { Config.zero with magic := CONFIG_MAGIC, v24_config := { baudrate, external_clock := false } }

theorem boot_arithmetic_safe_iff_default : BootArithmeticSafe (flashWithBaudrate V24_BAUD_9600) () :=
  (boot_arithmetic_safe_iff rfl ()).mpr ⟨by decide, by decide⟩

/-- A stored baudrate of zero is a division by zero. -/
theorem not_boot_arithmetic_safe :
    (flashWithBaudrate 0).magic = CONFIG_MAGIC ∧ ¬ BootArithmeticSafe (flashWithBaudrate 0) () := by
  refine ⟨rfl, ?_⟩
  rintro ⟨⟨_, hresult⟩, _⟩
  exact absurd (reinit_v24_config_checked_eq_ok.mp hresult).1.1 (by decide)

end ether2ser.control_plane
