import Ether2Ser.System.Error
import Ether2Ser.System.EventQueue
import Ether2Ser.Text.Scan

open Text ether2ser.error ether2ser.event_queue ether2ser.v24_config

namespace ether2ser.cli_parser

/-- `pin_info_t`. -/
structure PinInfo where
  name : List Char
  gpio_num : Nat
  is_output : Bool
  deriving DecidableEq, Repr

def pin_table : List PinInfo :=
  [{ name := "txd".toList, gpio_num := 14, is_output := true },
    { name := "rxd".toList, gpio_num := 12, is_output := false },
    { name := "rts".toList, gpio_num := 13, is_output := true },
    { name := "cts".toList, gpio_num := 11, is_output := false },
    { name := "dtr".toList, gpio_num := 15, is_output := true },
    { name := "dsr".toList, gpio_num := 10, is_output := false },
    { name := "dcd".toList, gpio_num := 9, is_output := false },
    { name := "tx_active".toList, gpio_num := 1, is_output := true },
    { name := "tck".toList, gpio_num := 5, is_output := true },
    { name := "rck".toList, gpio_num := 4, is_output := false },
    { name := "led".toList, gpio_num := 25, is_output := true }]

def find_pin (name : List Char) : Option PinInfo := pin_table.find? fun pin => pin.name = name

def UINT8_MAX : Nat := 255
def UINT16_MAX : Nat := 65535
def UINT32_ALL_ONES : UInt32 := 0xFFFFFFFF

def prefix_to_mask (prefix_length : UInt8) : Option Ipv4 :=
  if prefix_length > 32 then none
  else
    let mask_word := if prefix_length = 0 then 0 else UINT32_ALL_ONES <<< (32 - prefix_length.toUInt32)
    some
      { octet0 := (mask_word >>> 24 &&& 0xFF).toUInt8
        octet1 := (mask_word >>> 16 &&& 0xFF).toUInt8
        octet2 := (mask_word >>> 8 &&& 0xFF).toUInt8
        octet3 := (mask_word >>> 0 &&& 0xFF).toUInt8 }

def parse_u32_strict (input_str : List Char) : Option UInt32 :=
  let parsed := strtoul input_str
  if input_str = [] ∨ parsed.erange ∨ parsed.end_ptr = input_str ∨ parsed.end_ptr ≠ [] then none
  else some (UInt32.ofNat parsed.value)

def parse_i32_strict (input_str : List Char) : Option Int :=
  let parsed := strtol input_str
  if input_str = [] ∨ parsed.erange ∨ parsed.end_ptr = input_str ∨ parsed.end_ptr ≠ [] then none
  else some parsed.value

/-- The octet at the cursor of `parse_ipv4_strict`, with the text behind it. -/
def parseOctet (cursor : List Char) : Option (UInt8 × List Char) :=
  let parsed := strtoul cursor
  if cursor = [] ∨ parsed.erange ∨ parsed.end_ptr = cursor ∨ parsed.value > UINT8_MAX then none
  else some (UInt8.ofNat parsed.value, parsed.end_ptr)

/-- The octets of the turns of `parse_ipv4_strict` that are left: each but the
last is followed by a dot, and the last by the end of the text. -/
def parseOctets (cursor : List Char) : Nat → Option (List UInt8)
  | 0 => none
  | 1 =>
    match parseOctet cursor with
    | some (octet, []) => some [octet]
    | _ => none
  | turns + 2 =>
    match parseOctet cursor with
    | some (octet, '.' :: cursor) => (parseOctets cursor (turns + 1)).map (octet :: ·)
    | _ => none

def parse_ipv4_strict (input_str : List Char) : Option Ipv4 :=
  match parseOctets input_str 4 with
  | some [octet0, octet1, octet2, octet3] => some { octet0, octet1, octet2, octet3 }
  | _ => none

/-- The arguments behind an optional word and a space. -/
def skipOptional (word args : List Char) : List Char := (dropWord? (word ++ [' ']) args).getD args

def parse_ipv4_with_optional_prefix (args word : List Char) : Except E2sError Ipv4 :=
  match parse_ipv4_strict (skipOptional word args) with
  | none => .error .E2S_ERR_CLI_USAGE_SET
  | some ip_addr => .ok ip_addr

def parse_u16_with_optional_prefix (args word : List Char) : Except E2sError UInt16 :=
  match parse_u32_strict (skipOptional word args) with
  | none => .error .E2S_ERR_CLI_USAGE_SET
  | some parsed_value =>
    if parsed_value.toNat > UINT16_MAX then .error .E2S_ERR_CLI_USAGE_SET else .ok parsed_value.toUInt16

/-- The address and the mask of `A/P`. -/
def parse_set_ip_args (args : List Char) : Except E2sError (Ipv4 × Ipv4) :=
  let input_str := skipOptional "ip".toList args
  if input_str.length ≥ 32 then .error .E2S_ERR_CLI_USAGE_SET
  else
    match input_str.dropWhile (· ≠ '/') with
    | [] => .error .E2S_ERR_CLI_USAGE_SET
    | _ :: behind =>
      match parse_u32_strict behind with
      | none => .error .E2S_ERR_CLI_USAGE_SET
      | some prefix_length =>
        match parse_ipv4_strict (input_str.takeWhile (· ≠ '/')) with
        | none => .error .E2S_ERR_CLI_USAGE_SET
        | some ip_addr =>
          match prefix_to_mask prefix_length.toUInt8 with
          | none => .error .E2S_ERR_CLI_USAGE_SET
          | some netmask => .ok (ip_addr, netmask)

/-- The pin and the level of `set gpio`. -/
def parse_set_gpio_args (args : List Char) : Except E2sError (PinInfo × Bool) :=
  if args.length ≥ 64 then .error .E2S_ERR_CLI_USAGE_SET
  else
    match strtok ' ' args with
    | [tok_pin, tok_val] =>
      if tok_pin.length ≥ 16 then .error .E2S_ERR_CLI_USAGE_SET
      else
        match parse_i32_strict tok_val with
        | none => .error .E2S_ERR_CLI_USAGE_SET
        | some parsed_value =>
          if parsed_value ≠ 0 ∧ parsed_value ≠ 1 then .error .E2S_ERR_CLI_USAGE_SET
          else
            match find_pin tok_pin with
            | none => .error .E2S_ERR_CLI_UNKNOWN_PIN
            | some pin =>
              if pin.is_output then .ok (pin, parsed_value = 1) else .error .E2S_ERR_CLI_PIN_INPUT_ONLY
    | _ => .error .E2S_ERR_CLI_USAGE_SET

def parse_set_ip_remote_args (args : List Char) : Except E2sError Ipv4 :=
  parse_ipv4_with_optional_prefix args "ip".toList

def parse_set_udp_port_local_args (args : List Char) : Except E2sError UInt16 :=
  parse_u16_with_optional_prefix args "port".toList

def parse_set_udp_port_remote_args (args : List Char) : Except E2sError UInt16 :=
  parse_u16_with_optional_prefix args "port".toList

/-- A token without the spaces around it. -/
def trimSpaces (token : List Char) : List Char :=
  ((token.dropWhile (· = ' ')).reverse.dropWhile (· = ' ')).reverse

/-- The polarities with the named line inverted. -/
def invertLine (polarities : V24Polarities) (name : List Char) : Option V24Polarities :=
  let { tx_polarities, rx_polarities } := polarities
  if find_pin name = none then none
  else if name = "txd".toList then some { polarities with tx_polarities := { tx_polarities with txd_inverted := true } }
  else if name = "rts".toList then some { polarities with tx_polarities := { tx_polarities with rts_inverted := true } }
  else if name = "cts".toList then some { polarities with tx_polarities := { tx_polarities with cts_inverted := true } }
  else if name = "dtr".toList then some { polarities with tx_polarities := { tx_polarities with dtr_inverted := true } }
  else if name = "rxd".toList then some { polarities with rx_polarities := { rx_polarities with rxd_inverted := true } }
  else if name = "dcd".toList then some { polarities with rx_polarities := { rx_polarities with dcd_inverted := true } }
  else if name = "tck".toList then some { polarities with tx_polarities := { tx_polarities with txc_inverted := true } }
  else if name = "rck".toList then some { polarities with rx_polarities := { rx_polarities with rxc_inverted := true } }
  else none

/-- The loop of `parse_set_v24_polarities` over its tokens. -/
def invertLines (polarities : V24Polarities) : List (List Char) → Option V24Polarities
  | [] => some polarities
  | token_ptr :: tokens =>
    if trimSpaces token_ptr = [] then none
    else
      match invertLine polarities (trimSpaces token_ptr) with
      | none => none
      | some polarities => invertLines polarities tokens

def parse_set_v24_polarities (args : List Char) : Except E2sError V24Polarities :=
  let args := args.dropWhile (· = ' ')
  if args = [] then .ok .zero
  else
    let token_list := (dropWord? "invert ".toList args).getD args
    if token_list.length ≥ 64 then .error .E2S_ERR_CLI_USAGE_SET
    else
      match invertLines .zero (strtok ',' token_list) with
      | none => .error .E2S_ERR_CLI_USAGE_SET
      | some polarities => .ok polarities

def v24_baudrates : List UInt32 := [1200, 2400, 4800, 9600, 16000, 19200, 38400, 57600, 115200]

/-- The number behind optional spaces. -/
def parseSpacedNumber (args : List Char) : Option UInt32 := parse_u32_strict (args.dropWhile (· = ' '))

def parse_set_v24_baudrate (args : List Char) : Except E2sError UInt32 :=
  match parseSpacedNumber args with
  | none => .error .E2S_ERR_CLI_USAGE_SET
  | some baud_value => if baud_value ∈ v24_baudrates then .ok baud_value else .error .E2S_ERR_CLI_USAGE_SET

def parse_set_v24_clockmode (args : List Char) : Except E2sError Bool :=
  match parseSpacedNumber args with
  | none => .error .E2S_ERR_CLI_USAGE_SET
  | some clock_mode_value =>
    if clock_mode_value > 1 then .error .E2S_ERR_CLI_USAGE_SET else .ok (clock_mode_value = 1)

def parse_get_args (args : List Char) : Except E2sError PinInfo :=
  match sscanfWord 15 args with
  | none => .error .E2S_ERR_CLI_USAGE_GET
  | some pin_name =>
    match find_pin pin_name with
    | none => .error .E2S_ERR_CLI_UNKNOWN_PIN
    | some pin => .ok pin

/-- The command and the arguments of a line. -/
def cli_parse (line : List Char) (cmd_cap args_cap : Nat) : Except E2sError (List Char × List Char) :=
  if cmd_cap = 0 ∨ args_cap = 0 then .error .E2S_ERR_CLI_USAGE_SET
  else
    let line := line.dropWhile (· = ' ')
    if line = [] then .error .E2S_ERR_CLI_EMPTY_LINE
    else
      let cmd := line.takeWhile (· ≠ ' ')
      if cmd.length + 1 > cmd_cap then .error .E2S_ERR_CLI_LINE_TRUNCATED
      else
        let args := (line.dropWhile (· ≠ ' ')).dropWhile (· = ' ')
        if args.length ≥ args_cap then .error .E2S_ERR_CLI_LINE_TRUNCATED else .ok (cmd, args)

end ether2ser.cli_parser
