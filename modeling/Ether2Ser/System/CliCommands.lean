import Ether2Ser.System.CliParser
import Ether2Ser.System.Log

open Text ether2ser.cli_parser ether2ser.error ether2ser.event_queue ether2ser.log ether2ser.v24_config

namespace ether2ser.cli_commands

def MAX_CMD_BUFFER_LEN : Nat := 16
def MAX_ARG_BUFFER_LEN : Nat := 64

/-- What a command does, apart from its output: push an event, whose result no
command looks at, set the log level, drive a pin or read one. -/
inductive CliAction where
  | push (event : Event)
  | set_loglevel (level : LogLevel)
  | gpio_put (gpio_num : Nat) (value : Bool)
  | gpio_get (gpio_num : Nat)
  deriving DecidableEq, Repr

/-- A handler, as the actions it takes on its arguments, in order. -/
abbrev Handler := List Char → List CliAction

/-- `command_t`. -/
structure Command where
  name : List Char
  handler : Handler

/-- `category_t`. -/
structure Category where
  name : List Char
  set_handler : Handler
  get_handler : Handler

/-- `subcmd_t`. -/
structure Subcmd where
  name : List Char
  set_handler : Handler
  get_handler : Handler

/-- The arguments behind a name, which ends with a space or with the text. -/
def behindName (name args : List Char) : Option (List Char) :=
  match dropWord? name args with
  | some [] => some []
  | some (' ' :: sub_args) => some sub_args
  | _ => none

def dispatch_get_request (type : EventQueueDataType) (event_type : EventQueueDataType → Event) : List CliAction :=
  [.push (event_type type)]

def dispatch_v24_polarities (polarities : V24Polarities) : List CliAction :=
  [.push (.EV_SET_V24_SETTINGS (.V24_POLARITIES polarities))]

def dispatch_v24_baudrate (baudrate : UInt32) : List CliAction :=
  [.push (.EV_SET_V24_SETTINGS (.V24_BAUDRATE baudrate))]

def dispatch_ip (ip_addr : Ipv4) (type : Ipv4 → EventQueueData) : List CliAction :=
  [.push (.EV_SET_NET_SETTINGS (type ip_addr))]

def dispatch_get_udp_port (type : EventQueueDataType) : List CliAction := [.push (.EV_GET_NET_SETTINGS type)]

def dispatch_set_udp_port (type : UInt16 → EventQueueData) (port : UInt16) : List CliAction :=
  [.push (.EV_SET_NET_SETTINGS (type port))]

/-- Dispatch what a parser returns; on an error there is only the usage text. -/
def onParsed {α : Type} (parsed : Except E2sError α) (dispatch : α → List CliAction) : List CliAction :=
  match parsed with
  | .error _ => []
  | .ok value => dispatch value

def subcmd_set_v24_inverted : Handler := fun args => onParsed (parse_set_v24_polarities args) dispatch_v24_polarities

def subcmd_get_v24_inverted : Handler := fun _ => dispatch_get_request .V24_POLARITIES .EV_GET_V24_SETTINGS

def subcmd_set_v24_clockmode : Handler := fun args =>
  onParsed (parse_set_v24_clockmode args) fun clockmode =>
    [.push (.EV_SET_V24_SETTINGS (.V24_CLOCK_MODE clockmode))]

def subcmd_set_v24_baudrate : Handler := fun args => onParsed (parse_set_v24_baudrate args) dispatch_v24_baudrate

def subcmd_get_v24_clockmode : Handler := fun _ => dispatch_get_request .V24_CLOCK_MODE .EV_GET_V24_SETTINGS

def subcmd_get_v24_baudrate : Handler := fun _ => dispatch_get_request .V24_BAUDRATE .EV_GET_V24_SETTINGS

/-- A request of a network setting refuses arguments. -/
def withoutArgs (request : List CliAction) : Handler := fun args => if args ≠ [] then [] else request

def subcmd_get_ip_local : Handler := withoutArgs (dispatch_get_request .NET_IP_LOCAL .EV_GET_NET_SETTINGS)

def subcmd_set_ip_local : Handler := fun args =>
  onParsed (parse_set_ip_args args) fun (ip_addr, mask) =>
    dispatch_ip ip_addr .NET_IP_LOCAL ++ dispatch_ip mask .NET_IP_MASK

def subcmd_get_ip_remote : Handler := withoutArgs (dispatch_get_request .NET_IP_REMOTE .EV_GET_NET_SETTINGS)

def subcmd_set_ip_remote : Handler := fun args =>
  onParsed (parse_set_ip_remote_args args) fun ip_addr => dispatch_ip ip_addr .NET_IP_REMOTE

def subcmd_get_ip_gateway : Handler := withoutArgs (dispatch_get_request .NET_IP_GATEWAY .EV_GET_NET_SETTINGS)

def subcmd_set_ip_gateway : Handler := fun args =>
  onParsed (parse_set_ip_remote_args args) fun ip_addr => dispatch_ip ip_addr .NET_IP_GATEWAY

def subcmd_get_udp_port_local : Handler := withoutArgs (dispatch_get_udp_port .NET_PORT_LOCAL)

def subcmd_set_udp_port_local : Handler := fun args =>
  onParsed (parse_set_udp_port_local_args args) (dispatch_set_udp_port .NET_PORT_LOCAL)

def subcmd_get_udp_port_remote : Handler := withoutArgs (dispatch_get_udp_port .NET_PORT_REMOTE)

def subcmd_set_udp_port_remote : Handler := fun args =>
  onParsed (parse_set_udp_port_remote_args args) (dispatch_set_udp_port .NET_PORT_REMOTE)

def net_subcmds : List Subcmd :=
  [{ name := "ip.local".toList, set_handler := subcmd_set_ip_local, get_handler := subcmd_get_ip_local },
    { name := "ip.remote".toList, set_handler := subcmd_set_ip_remote, get_handler := subcmd_get_ip_remote },
    { name := "ip.gateway".toList, set_handler := subcmd_set_ip_gateway, get_handler := subcmd_get_ip_gateway },
    { name := "udp.port.local".toList
      set_handler := subcmd_set_udp_port_local
      get_handler := subcmd_get_udp_port_local },
    { name := "udp.port.remote".toList
      set_handler := subcmd_set_udp_port_remote
      get_handler := subcmd_get_udp_port_remote }]

def v24_subcmds : List Subcmd :=
  [{ name := "invert".toList, set_handler := subcmd_set_v24_inverted, get_handler := subcmd_get_v24_inverted },
    { name := "baudrate".toList, set_handler := subcmd_set_v24_baudrate, get_handler := subcmd_get_v24_baudrate },
    { name := "txclock".toList, set_handler := subcmd_set_v24_clockmode, get_handler := subcmd_get_v24_clockmode }]

/-- The first subcommand whose name starts the arguments, on what follows. -/
def onSubcmd (subcmds : List Subcmd) (handler : Subcmd → Handler) : Handler := fun args =>
  if args = [] then []
  else (subcmds.findSome? fun subcmd => (behindName subcmd.name args).map (handler subcmd)).getD []

def cat_net_set : Handler := onSubcmd net_subcmds Subcmd.set_handler
def cat_net_get : Handler := onSubcmd net_subcmds Subcmd.get_handler
def cat_v24_set : Handler := onSubcmd v24_subcmds Subcmd.set_handler
def cat_v24_get : Handler := onSubcmd v24_subcmds Subcmd.get_handler

def loglevels : List (List Char × LogLevel) :=
  [("error".toList, .LOG_LEVEL_ERROR), ("info".toList, .LOG_LEVEL_INFO), ("debug".toList, .LOG_LEVEL_DEBUG),
    ("trace".toList, .LOG_LEVEL_TRACE), ("tracea".toList, .LOG_LEVEL_TRACE)]

def cat_loglevel_set : Handler := fun args =>
  match sscanfWord 15 args with
  | none => []
  | some level_name =>
    match loglevels.find? fun entry => entry.1 = level_name with
    | none => []
    | some entry => [.set_loglevel entry.2]

def cat_loglevel_get : Handler := fun _ => []

def cat_gpio_set : Handler := fun args =>
  onParsed (parse_set_gpio_args args) fun (pin, value) => [.gpio_put pin.gpio_num value]

def cat_gpio_get : Handler := fun args => onParsed (parse_get_args args) fun pin => [.gpio_get pin.gpio_num]

def categories : List Category :=
  [{ name := "gpio".toList, set_handler := cat_gpio_set, get_handler := cat_gpio_get },
    { name := "net".toList, set_handler := cat_net_set, get_handler := cat_net_get },
    { name := "v24".toList, set_handler := cat_v24_set, get_handler := cat_v24_get },
    { name := "loglevel".toList, set_handler := cat_loglevel_set, get_handler := cat_loglevel_get }]

/-- A category of `set` is followed by a space. -/
def cmd_set : Handler := fun args =>
  if args = [] then []
  else
    (categories.findSome? fun category =>
      (dropWord? (category.name ++ [' ']) args).map category.set_handler).getD []

/-- A category of `get` is followed by a space or ends the text. -/
def cmd_get : Handler := fun args =>
  if args = [] then []
  else (categories.findSome? fun category => (behindName category.name args).map category.get_handler).getD []

def cmd_help : Handler := fun _ => []
def cmd_status : Handler := fun _ => [.push .EV_STATUS]
def cmd_mem : Handler := fun args => if args ≠ [] then [] else [.push .EV_MEM]
def cmd_net : Handler := fun _ => []
def cmd_pininfo : Handler := fun _ => []
def cmd_save : Handler := fun _ => [.push .EV_SAVE_CONFIG]
def cmd_wipe : Handler := fun _ => [.push .EV_WIPE_CONFIG]
def cmd_reboot : Handler := fun _ => [.push .EV_REBOOT]

def commands : List Command :=
  [{ name := "help".toList, handler := cmd_help },
    { name := "status".toList, handler := cmd_status },
    { name := "mem".toList, handler := cmd_mem },
    { name := "save".toList, handler := cmd_save },
    { name := "wipe".toList, handler := cmd_wipe },
    { name := "net".toList, handler := cmd_net },
    { name := "set".toList, handler := cmd_set },
    { name := "get".toList, handler := cmd_get },
    { name := "pininfo".toList, handler := cmd_pininfo },
    { name := "reboot".toList, handler := cmd_reboot }]

def handle_cli_line (line : List Char) : List CliAction :=
  match cli_parse line MAX_CMD_BUFFER_LEN MAX_ARG_BUFFER_LEN with
  | .error _ => []
  | .ok (cmd, args) =>
    match commands.find? fun command => command.name = cmd with
    | none => []
    | some command => command.handler args

end ether2ser.cli_commands
