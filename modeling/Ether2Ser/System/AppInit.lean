import Ether2Ser.System.EventDispatch

open ether2ser.cli_usb_cdc ether2ser.event_loop ether2ser.gpio_driver ether2ser.log ether2ser.persistent_config
open ether2ser.pio_tx_rx_driver ether2ser.v24_config ether2ser.w5500_driver

namespace ether2ser.control_plane

def V24_BAUD_9600 : UInt32 := 9600

/-- `v24_runtime` before any initialisation. -/
def runtimeAtReset : V24Runtime where
  rts_set := false
  tx_rts_holdoff_us := 0
  cts_toggle_seq := 0

/-- `tx_clock_init`, as far as the choice of the program goes. Its pins are
`tx_clock_init_pins`. -/
def tx_clock_init (v24_config : V24Config) : TxProgram := if v24_config.external_clock then .xck_txd else .tck_txd

/-- The chip after a reset. -/
def chipAtReset : Wizchip where
  net_info := Config.zero.net_config.net_info
  udp_socket := none

variable {σ : Type}

/-- `init_app` on the zeroed context: with a valid configuration, restore it, and
else start from the defaults. The program of the transmit lines is the one that
`main` loads next, and the pins are as `init_pins` has left them. -/
def init_app (flash : Flash) (persistent_config : Option Config) (pio : σ) : ControlCtx σ :=
  match persistent_config with
  | some persistent_config =>
    let (net_config, chip) := w5500_set_network chipAtReset persistent_config.net_config
    let (v24_config, v24_runtime) :=
      reinit_v24_config persistent_config.v24_config runtimeAtReset persistent_config.v24_config.baudrate
    { loop := .boot v24_config v24_runtime.tx_rts_holdoff_us pio
      polarities := persistent_config.polarities
      local_config := persistent_config.local_config
      destination_config := persistent_config.remote_config
      net_config
      persistent_config
      chip
      flash
      log_level := persistent_config.log_level
      console := .boot
      tx_program := tx_clock_init v24_config
      pins := init_pins pinsAtReset }
  | none =>
    let (net_config, chip) := w5500_set_network_defaults chipAtReset Config.zero.net_config
    let (v24_config, v24_runtime) :=
      reinit_v24_config { baudrate := 0, external_clock := false } runtimeAtReset V24_BAUD_9600
    { loop := .boot v24_config v24_runtime.tx_rts_holdoff_us pio
      polarities := init_polarities
      local_config := { ip_address := DEFAULT_IP_ADDR, port := DEFAULT_UDP_PORT }
      destination_config := { ip_address := net_config.broadcast_address, port := DEFAULT_UDP_PORT }
      net_config
      persistent_config := .zero
      chip
      flash
      log_level := .LOG_LEVEL_DEBUG
      console := .boot
      tx_program := tx_clock_init v24_config
      pins := init_pins pinsAtReset }

/-- The pins of `main` from the clocks on: those of `tx_clock_init` and
`rx_clock_init`, then DTR. -/
def clockPins (v24_config : V24Config) (polarities : V24Polarities) (pins : Pins) : Pins :=
  gpio_put V24_DTR true
    (rx_clock_init_pins polarities.rx_polarities (tx_clock_init_pins v24_config polarities.tx_polarities pins))

/-- `main`, up to the event loop, where `socket` opens: read the configuration,
initialise the application, open the UDP socket and start the clocks. -/
def boot (flash : Flash) (pio : σ) : ControlCtx σ :=
  let persistent_config := if config_is_valid flash then config_read flash else none
  let ctx := init_app flash persistent_config pio
  { ctx with
    chip := (w5500_open_udp_socket ctx.chip ctx.local_config true).2
    pins := clockPins ctx.v24_config ctx.polarities ctx.pins }

/-- Whatever the flash holds, the boot leaves it alone and starts the console, the
data path and the program of the configured clock. -/
theorem boot_starts (flash : Flash) (pio : σ) :
    (boot flash pio).flash = flash ∧ (boot flash pio).console = .boot ∧
      (boot flash pio).tx_program = tx_clock_init (boot flash pio).v24_config ∧
      ∃ v24_config tx_rts_holdoff_us, (boot flash pio).loop = .boot v24_config tx_rts_holdoff_us pio := by
  unfold boot init_app
  simp only
  split <;> exact ⟨rfl, rfl, rfl, _, _, rfl⟩

end ether2ser.control_plane
