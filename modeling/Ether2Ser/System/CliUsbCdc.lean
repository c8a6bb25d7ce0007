import Ether2Ser.System.EventQueue

open ether2ser.event_queue

namespace ether2ser.cli_usb_cdc

def CLI_BUFFER_SIZE : Nat := 128
def CLI_EVENT_POOL_SIZE : Nat := EVENT_QUEUE_CAPACITY
def ASCII_BACKSPACE : Nat := 0x08
def ASCII_DELETE : Nat := 0x7F
def ASCII_FIRST_PRINTABLE : Nat := 32
def ASCII_LAST_PRINTABLE : Nat := 126
def CLI_MAX_CHARS_PER_POLL : Nat := 16

/-- The statics of `cli_poll`. A slot of the pool is the string it holds. -/
structure CliStatics where
  line_buffer : List Char
  buffer_len : Nat
  cli_line_pool : List (List Char)
  cli_line_pool_write : Nat
  deriving DecidableEq, Repr

def CliStatics.zero : CliStatics where
  line_buffer := List.replicate CLI_BUFFER_SIZE '\x00'
  buffer_len := 0
  cli_line_pool := List.replicate CLI_EVENT_POOL_SIZE []
  cli_line_pool_write := 0

/-- The console: the characters that wait to be read, the statics and the event
queue that lines go to. -/
structure Console where
  stdin : List Char
  cli : CliStatics
  queue : EventQueue Event

def Console.boot : Console where
  stdin := []
  cli := .zero
  queue := event_queue_init .EV_NONE

/-- The string at the start of a buffer. -/
def cString (buffer : List Char) : List Char := buffer.takeWhile (· ≠ '\x00')

/-- The end of a line: copy it to a slot of the pool and push the slot. -/
def completeLine (console : Console) : Console :=
  let line_buffer := console.cli.line_buffer.set console.cli.buffer_len '\x00'
  let written := (cString line_buffer).length
  let line_slot := (cString line_buffer).take (CLI_BUFFER_SIZE - 1)
  let cli := { console.cli with
    line_buffer
    cli_line_pool := console.cli.cli_line_pool.set console.cli.cli_line_pool_write line_slot }
  if written ≥ CLI_BUFFER_SIZE then { console with cli := { cli with buffer_len := 0 } }
  else
    match event_queue_push console.queue (.EV_CLI_LINE console.cli.cli_line_pool_write (line_slot.length + 1)) with
    | (true, queue) =>
      { console with
        cli := { cli with
          cli_line_pool_write := (cli.cli_line_pool_write + 1) % CLI_EVENT_POOL_SIZE
          buffer_len := 0 }
        queue }
    | (false, queue) => { console with cli := { cli with buffer_len := 0 }, queue }

/-- The body of the loop of `cli_poll`. -/
def processChar (console : Console) (input_char : Char) : Console :=
  let cli := console.cli
  if input_char = '\n' ∨ input_char = '\r' then completeLine console
  else if input_char.toNat = ASCII_BACKSPACE ∨ input_char.toNat = ASCII_DELETE then
    { console with cli := { cli with buffer_len := if cli.buffer_len ≠ 0 then cli.buffer_len - 1 else cli.buffer_len } }
  else if input_char.toNat ≥ ASCII_FIRST_PRINTABLE ∧ input_char.toNat ≤ ASCII_LAST_PRINTABLE then
    if cli.buffer_len < CLI_BUFFER_SIZE - 1 then
      { console with cli := { cli with
          line_buffer := cli.line_buffer.set cli.buffer_len input_char
          buffer_len := cli.buffer_len + 1 } }
    else console
  else console

/-- Read the characters that wait, but not more than one poll may. -/
def cli_poll (console : Console) : Console :=
  (console.stdin.take CLI_MAX_CHARS_PER_POLL).foldl processChar
    { console with stdin := console.stdin.drop CLI_MAX_CHARS_PER_POLL }

/-- The string that a queued line points to. -/
def CliStatics.line (cli : CliStatics) (line_slot : Nat) : List Char := cli.cli_line_pool[line_slot]?.getD []

end ether2ser.cli_usb_cdc
