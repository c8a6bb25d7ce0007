import Ether2Ser.Drivers.PioTxRx.Pins
import Ether2Ser.System.CliCommands
import Ether2Ser.System.CliUsbCdc
import Ether2Ser.System.EventLoop
import Ether2Ser.System.PersistentConfig

open ether2ser.cli_commands ether2ser.cli_usb_cdc ether2ser.error ether2ser.event_loop ether2ser.event_queue
open ether2ser.gpio_driver ether2ser.log ether2ser.persistent_config ether2ser.pio_tx_rx_driver ether2ser.tx_queue
open ether2ser.v24_config ether2ser.w5500_driver

namespace ether2ser.control_plane

/-- The PIO programs that `tx_clock_init` can load. -/
inductive TxProgram where
  | tck_txd
  | xck_txd
  deriving DecidableEq, Repr

/-- `app_ctx_t` with the data path inside it, the polarities of its
`v24_config`, and the globals of the control plane: the Ethernet chip, the flash,
the log level, the console with the event queue, the program that drives the
transmit lines and the pins. -/
structure ControlCtx (σ : Type) where
  loop : LoopState σ
  polarities : V24Polarities
  local_config : UdpConfig
  destination_config : UdpConfig
  net_config : NetworkConfig
  persistent_config : Config
  chip : Wizchip
  flash : Flash
  log_level : LogLevel
  console : Console
  tx_program : TxProgram
  pins : Pins

variable {σ : Type}

/-- The data path of `app_ctx_t`. -/
def ControlCtx.app (ctx : ControlCtx σ) : AppCtx σ := ctx.loop.app

def ControlCtx.v24_config (ctx : ControlCtx σ) : V24Config := ctx.app.v24_config

def ControlCtx.queue (ctx : ControlCtx σ) : EventQueue Event := ctx.console.queue

def ControlCtx.setApp (ctx : ControlCtx σ) (app : AppCtx σ) : ControlCtx σ :=
  { ctx with loop := { ctx.loop with app } }

/-- The context when the data path has moved on, with RTS as its calls of the
driver have left it. -/
def ControlCtx.setLoop (ctx : ControlCtx σ) (loop : LoopState σ) : ControlCtx σ :=
  { ctx with
    loop
    pins := driveEvents (loop.app.driver.trace.drop ctx.app.driver.trace.length) ctx.pins }

/-- `event_queue_push`, where the result is not looked at. -/
def ControlCtx.push (ctx : ControlCtx σ) (event : Event) : ControlCtx σ :=
  { ctx with console := { ctx.console with queue := (event_queue_push ctx.queue event).2 } }

def request_save_config (ctx : ControlCtx σ) : ControlCtx σ := ctx.push .EV_SAVE_CONFIG

/-- `apply_result_t`. -/
structure ApplyResult where
  changed : Bool
  reboot_required : Bool
  deriving DecidableEq, Repr

/-- Reopen the UDP socket on an endpoint. On a failure `fatal_panic` does not
return. -/
def reconfigureSocket (ctx : ControlCtx σ) (config : UdpConfig) (socket_opens : Bool) : Option (ControlCtx σ) :=
  match w5500_reconfigure_udp_socket ctx.chip config socket_opens with
  | (.E2S_OK, chip) => some { ctx with chip }
  | _ => none

/-- Whether a setting has changed, and the context after it. -/
def ev_set_net_settings (payload : EventQueueData) (ctx : ControlCtx σ) (socket_opens : Bool) :
    Option (Bool × ControlCtx σ) :=
  match payload with
  | .NET_IP_REMOTE ip =>
    if ctx.destination_config.ip_address ≠ ip then
      some (true, { ctx with destination_config := { ctx.destination_config with ip_address := ip } })
    else some (false, ctx)
  | .NET_IP_LOCAL ip =>
    let net_info := ctx.chip.net_info
    if net_info.ip ≠ ip then
      some (true,
        { ctx with
          local_config := { ctx.local_config with ip_address := ip }
          chip := wizchip_setnetinfo ctx.chip { net_info with ip } })
    else some (false, ctx)
  | .NET_IP_MASK ip =>
    let net_info := ctx.chip.net_info
    if net_info.sn ≠ ip then some (true, { ctx with chip := wizchip_setnetinfo ctx.chip { net_info with sn := ip } })
    else some (false, ctx)
  | .NET_IP_GATEWAY ip =>
    let net_info := ctx.chip.net_info
    if net_info.gw ≠ ip then some (true, { ctx with chip := wizchip_setnetinfo ctx.chip { net_info with gw := ip } })
    else some (false, ctx)
  | .NET_PORT_LOCAL port =>
    if ctx.local_config.port ≠ port then
      let ctx := { ctx with local_config := { ctx.local_config with port } }
      (reconfigureSocket ctx ctx.local_config socket_opens).map (true, ·)
    else some (false, ctx)
  | .NET_PORT_REMOTE port =>
    if ctx.destination_config.port ≠ port then
      let ctx := { ctx with destination_config := { ctx.destination_config with port } }
      (reconfigureSocket ctx ctx.destination_config socket_opens).map (true, ·)
    else some (false, ctx)
  | _ => some (false, ctx)

def ev_set_v24_settings (hw : TxHardware σ) (payload : EventQueueData) (ctx : ControlCtx σ) :
    ApplyResult × ControlCtx σ :=
  let unchanged := ({ changed := false, reboot_required := false }, ctx)
  match payload with
  | .V24_BAUDRATE baudrate =>
    if ctx.v24_config.baudrate ≠ baudrate then
      let (v24_config, v24_runtime) := reinit_v24_config ctx.v24_config ctx.app.driver.v24_runtime baudrate
      let driver := tx_clock_update_settings hw { ctx.app.driver with v24_runtime }
      let pins := tx_clock_update_overrides v24_config ctx.polarities.tx_polarities ctx.pins
      ({ changed := true, reboot_required := false }, { ctx.setApp { ctx.app with v24_config, driver } with pins })
    else unchanged
  | .V24_POLARITIES polarities =>
    if ctx.polarities ≠ polarities then
      let driver := tx_clock_update_settings hw ctx.app.driver
      let pins := rx_clock_update_overrides polarities.rx_polarities
        (tx_clock_update_overrides ctx.v24_config polarities.tx_polarities ctx.pins)
      ({ changed := true, reboot_required := false }, { ctx.setApp { ctx.app with driver } with polarities, pins })
    else unchanged
  | .V24_CLOCK_MODE external_clock =>
    if ctx.v24_config.external_clock ≠ external_clock then
      if !tx_queue_is_empty ctx.app.tx_queue then unchanged
      else
        ({ changed := true, reboot_required := true },
          ctx.setApp { ctx.app with v24_config := { ctx.v24_config with external_clock } })
    else unchanged
  | _ => unchanged

/-- The effect of a command on the control plane and the pins. -/
def perform (ctx : ControlCtx σ) : CliAction → ControlCtx σ
  | .push event => ctx.push event
  | .set_loglevel log_level => { ctx with log_level }
  | .gpio_put gpio_num value => { ctx with pins := drivePin gpio_num value ctx.pins }
  | .gpio_get gpio_num => { ctx with pins := samplePin gpio_num ctx.pins }

/-- The actions of a dispatched line. -/
def lineActions (cli : CliStatics) (line_slot data_len : Nat) : List CliAction :=
  if data_len < 1 then [] else handle_cli_line (cli.line line_slot)

/-- The event `EV_SAVE_CONFIG`: take a snapshot of the settings and write it. -/
def saveConfig (ctx : ControlCtx σ) : ControlCtx σ :=
  let net_config := { ctx.net_config with net_info := ctx.chip.net_info }
  let (persistent_config, flash) := config_write
    { ctx.persistent_config with
      log_level := ctx.log_level
      v24_config := ctx.v24_config
      polarities := ctx.polarities
      net_config
      local_config := ctx.local_config
      remote_config := ctx.destination_config }
  { ctx with net_config, persistent_config, flash }

/-- The context after an event, unless `reboot` or `fatal_panic` does not
return. -/
def event_dispatch (hw : TxHardware σ) (event : Event) (ctx : ControlCtx σ) (socket_opens : Bool) :
    Option (ControlCtx σ) :=
  match event with
  | .EV_REBOOT => none
  | .EV_CLI_LINE line_slot data_len => some ((lineActions ctx.console.cli line_slot data_len).foldl perform ctx)
  | .EV_SAVE_CONFIG => some (saveConfig ctx)
  | .EV_WIPE_CONFIG => some { ctx with flash := config_wipe }
  | .EV_SET_NET_SETTINGS payload =>
    match ev_set_net_settings payload ctx socket_opens with
    | none => none
    | some (changed, ctx) => some (if changed then request_save_config ctx else ctx)
  | .EV_SET_V24_SETTINGS payload =>
    let (set_result, ctx) := ev_set_v24_settings hw payload ctx
    let ctx := if set_result.changed then request_save_config ctx else ctx
    some (if set_result.reboot_required then ctx.push .EV_REBOOT else ctx)
  | _ => some ctx

end ether2ser.control_plane
