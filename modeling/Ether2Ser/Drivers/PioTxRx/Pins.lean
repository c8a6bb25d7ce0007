import Ether2Ser.Drivers.Gpio
import Ether2Ser.Drivers.PioTxRx

open ether2ser.gpio_driver ether2ser.v24_config

namespace ether2ser.pio_tx_rx_driver

/-- The overrides that `tx_clock_update_settings` sets. -/
def tx_clock_update_overrides (config : V24Config) (polarities : V24TxPolarities) (pins : Pins) : Pins :=
  let pins :=
    if config.external_clock then gpio_set_inover V24_TXC_DCE polarities.txc_inverted pins
    else gpio_set_outover V24_TXC_DTE polarities.txc_inverted pins
  let pins := gpio_set_outover V24_TXD polarities.txd_inverted pins
  let pins := gpio_set_outover V24_DTR polarities.dtr_inverted pins
  let pins := gpio_set_outover V24_RTS polarities.rts_inverted pins
  gpio_set_inover V24_CTS polarities.cts_inverted pins

/-- The overrides that `rx_clock_update_settings` sets. -/
def rx_clock_update_overrides (polarities : V24RxPolarities) (pins : Pins) : Pins :=
  let pins := gpio_set_inover V24_RXC polarities.rxc_inverted pins
  let pins := gpio_set_inover V24_RXD polarities.rxd_inverted pins
  gpio_set_inover V24_DCD polarities.dcd_inverted pins

theorem routing_tx_clock_update_overrides (config : V24Config) (polarities : V24TxPolarities) (pins : Pins)
    (gpio : Nat) :
    (tx_clock_update_overrides config polarities pins gpio).routing = (pins gpio).routing := by
  unfold tx_clock_update_overrides
  split <;> simp

theorem routing_rx_clock_update_overrides (polarities : V24RxPolarities) (pins : Pins) (gpio : Nat) :
    (rx_clock_update_overrides polarities pins gpio).routing = (pins gpio).routing := by
  simp [rx_clock_update_overrides]

/-- Give a pin to a state machine. -/
def routePin (gpio : Nat) (out : Bool) (pins : Pins) : Pins := pio_sm_set_pindir gpio out (pio_gpio_init gpio pins)

/-- The pins of `tx_clock_init_tck`. -/
def tx_clock_init_tck_pins (config : V24Config) (polarities : V24TxPolarities) (pins : Pins) : Pins :=
  let pins := routePin V24_TXC_DTE true pins
  let pins := routePin V24_TXD true pins
  let pins := routePin V24_CTS false pins
  tx_clock_update_overrides config polarities pins

/-- The pins of `tx_clock_init_xck`. -/
def tx_clock_init_xck_pins (config : V24Config) (polarities : V24TxPolarities) (pins : Pins) : Pins :=
  let pins := routePin V24_TXC_DCE false pins
  let pins := routePin V24_TXD true pins
  let pins := routePin V24_CTS false pins
  tx_clock_update_overrides config polarities pins

/-- The pins of `tx_clock_init`. -/
def tx_clock_init_pins (config : V24Config) (polarities : V24TxPolarities) (pins : Pins) : Pins :=
  if config.external_clock then tx_clock_init_xck_pins config polarities pins
  else tx_clock_init_tck_pins config polarities pins

/-- The pins of `rx_clock_init`. -/
def rx_clock_init_pins (polarities : V24RxPolarities) (pins : Pins) : Pins :=
  let pins := routePin V24_RXD false pins
  let pins := routePin V24_RXC false pins
  rx_clock_update_overrides polarities pins

/-- What a call of the driver does to RTS. -/
def driveRts (pins : Pins) : TxEvent → Pins
  | .rts true _ => gpio_put V24_RTS true (gpio_set_dir V24_RTS true pins)
  | .rts false _ => gpio_put V24_RTS false pins
  | _ => pins

/-- What calls of the driver do to the pins, from the events they record. -/
def driveEvents (events : List TxEvent) (pins : Pins) : Pins := events.foldl driveRts pins

theorem driveEvents_append (events later : List TxEvent) (pins : Pins) :
    driveEvents (events ++ later) pins = driveEvents later (driveEvents events pins) := List.foldl_append

theorem driveRts_congr {pins others : Pins} {gpio : Nat} (h : pins gpio = others gpio) (event : TxEvent) :
    driveRts pins event gpio = driveRts others event gpio := by
  cases event with
  | rts level at_us =>
    cases level <;> simp only [driveRts, gpio_put, gpio_set_dir]
    · exact Pins.modify_congr h
    · exact Pins.modify_congr (Pins.modify_congr h)
  | cts | put byte at_us | reset | holdoff at_us => exact h

/-- What the calls do to a pin depends on this pin only. -/
theorem driveEvents_congr {events : List TxEvent} {pins others : Pins} {gpio : Nat} (h : pins gpio = others gpio) :
    driveEvents events pins gpio = driveEvents events others gpio := by
  unfold driveEvents
  induction events generalizing pins others with
  | nil => exact h
  | cons event events ih => exact ih (driveRts_congr h event)

/-- The calls leave it to the pins who drives them. -/
theorem routing_driveEvents (events : List TxEvent) (pins : Pins) (gpio : Nat) :
    (driveEvents events pins gpio).routing = (pins gpio).routing := by
  have hevent : ∀ (pins : Pins) (event : TxEvent), (driveRts pins event gpio).routing = (pins gpio).routing := by
    intro pins event
    cases event with
    | rts level at_us => cases level <;> simp [driveRts]
    | cts | put byte at_us | reset | holdoff at_us => rfl
  unfold driveEvents
  induction events generalizing pins with
  | nil => rfl
  | cons event events ih => exact (ih _).trans (hevent pins event)

theorem driveRts_of_ne (pins : Pins) (event : TxEvent) {gpio : Nat} (h : gpio ≠ V24_RTS) :
    driveRts pins event gpio = pins gpio := by
  cases event with
  | rts level at_us =>
    cases level <;> simp only [driveRts, gpio_put, gpio_set_dir]
    · exact Pins.modify_of_ne _ _ h
    · rw [Pins.modify_of_ne _ _ h, Pins.modify_of_ne _ _ h]
  | cts | put byte at_us | reset | holdoff at_us => rfl

/-- The calls reach no other pin. -/
theorem driveEvents_of_ne (events : List TxEvent) (pins : Pins) {gpio : Nat} (h : gpio ≠ V24_RTS) :
    driveEvents events pins gpio = pins gpio := by
  unfold driveEvents
  induction events generalizing pins with
  | nil => rfl
  | cons event events ih => exact (ih _).trans (driveRts_of_ne pins event h)

end ether2ser.pio_tx_rx_driver
