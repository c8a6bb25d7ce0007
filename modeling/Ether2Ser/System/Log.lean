import Mathlib.Init

namespace ether2ser.log

def LOG_QUEUE_DEPTH : Nat := 128
def LOG_QUEUE_MASK : Nat := LOG_QUEUE_DEPTH - 1
def LOG_LINE_MAX : Nat := 160

/-- `log_level_t`. -/
inductive LogLevel where
  | LOG_LEVEL_PLAIN
  | LOG_LEVEL_ERROR
  | LOG_LEVEL_INFO
  | LOG_LEVEL_DEBUG
  | LOG_LEVEL_TRACE
  deriving DecidableEq, Repr

def LogLevel.value : LogLevel → Nat
  | .LOG_LEVEL_PLAIN => 0
  | .LOG_LEVEL_ERROR => 1
  | .LOG_LEVEL_INFO => 2
  | .LOG_LEVEL_DEBUG => 3
  | .LOG_LEVEL_TRACE => 4

abbrev LogLine := List Char

/-- `global_log_state_t`, which both cores access. -/
structure GlobalLogState where
  current_log_level : LogLevel
  head : Nat
  tail : Nat
  dropped : UInt32
  high_water_mark : UInt32
  log_emitted : Bool
  queue : List LogLine
  deriving DecidableEq, Repr

def global_logstate : GlobalLogState where
  current_log_level := .LOG_LEVEL_INFO
  head := 0
  tail := 0
  dropped := 0
  high_water_mark := 0
  log_emitted := false
  queue := List.replicate LOG_QUEUE_DEPTH []

/-- The index behind an index of the queue. -/
def advance (index : Nat) : Nat := (index + 1) &&& LOG_QUEUE_MASK

/-- A call of `log_write`. The text is missing if `vsnprintf` cannot format it. -/
structure LogCall where
  level : LogLevel
  text : Option (List Char)
  deriving DecidableEq, Repr

/-- How far core 0 is in `log_write`, with the local variables it still needs. -/
inductive LogWriter where
  | outside
  | formatted (level : LogLevel) (line : LogLine)
  | loaded (level : LogLevel) (line : LogLine) (head : Nat)
  | free (level : LogLevel) (line : LogLine) (head next : Nat)
  | stored (level : LogLevel) (line : LogLine) (next : Nat)
  | published (level : LogLevel) (next : Nat)
  deriving DecidableEq, Repr

/-- How far core 1 is in `log_core1_drain`. The two reads of the loop condition
may come in either order. -/
inductive LogDrainer where
  | outside
  | checking
  | tailRead (tail : Nat)
  | headRead (head : Nat)
  | entered
  | loaded (tail : Nat)
  | printed (tail : Nat)
  deriving DecidableEq, Repr

/-- Both cores with the log state they share. The further fields record the
lines of the enabled calls, whether each of them has found a free slot, the
lines core 1 has printed and the dropped counts that have been taken. -/
structure LogSystem where
  state : GlobalLogState
  writer : LogWriter
  drainer : LogDrainer
  calls : List LogLine
  outcomes : List (LogLine × Bool)
  printed : List LogLine
  taken : UInt32
  deriving DecidableEq, Repr

def LogSystem.start : LogSystem where
  state := global_logstate
  writer := .outside
  drainer := .outside
  calls := []
  outcomes := []
  printed := []
  taken := 0

/-- The first part of `log_write`, which touches nothing that core 1 reads. -/
def log_write (system : LogSystem) (call : LogCall) : LogSystem :=
  if system.state.current_log_level.value < call.level.value then system
  else
    match call.text with
    | none => system
    | some text =>
      let line := text.take (LOG_LINE_MAX - 1)
      { system with writer := .formatted call.level line, calls := system.calls ++ [line] }

/-- The next access of core 0 to the head, the tail or a slot. -/
def log_write_step (system : LogSystem) : LogSystem :=
  let log := system.state
  match system.writer with
  | .outside => system
  | .formatted level line => { system with writer := .loaded level line log.head }
  | .loaded level line head =>
    let next := advance head
    if next = log.tail then
      { system with
        state := { log with dropped := log.dropped + 1 }
        writer := .outside
        outcomes := system.outcomes ++ [(line, false)] }
    else { system with writer := .free level line head next, outcomes := system.outcomes ++ [(line, true)] }
  | .free level line head next =>
    { system with state := { log with queue := log.queue.set head line }, writer := .stored level line next }
  | .stored level _ next => { system with state := { log with head := next }, writer := .published level next }
  | .published level next =>
    let depth := UInt32.ofNat ((next + UInt32.size - log.tail) % UInt32.size &&& LOG_QUEUE_MASK)
    { system with
      state := { log with
        high_water_mark := if depth > log.high_water_mark then depth else log.high_water_mark
        log_emitted := if level.value > LogLevel.LOG_LEVEL_PLAIN.value then true else log.log_emitted }
      writer := .outside }

def set_loglevel (system : LogSystem) (level : LogLevel) : LogSystem :=
  { system with state := { system.state with current_log_level := level } }

def log_take_dropped_count (system : LogSystem) : LogSystem :=
  { system with state := { system.state with dropped := 0 }, taken := system.taken + system.state.dropped }

def log_take_emitted_flag (system : LogSystem) : LogSystem :=
  { system with state := { system.state with log_emitted := false } }

def log_core1_drain (system : LogSystem) : LogSystem := { system with drainer := .checking }

/-- The next access of core 1 to the head, the tail or a slot. -/
def log_core1_drain_step (headFirst : Bool) (system : LogSystem) : LogSystem :=
  let log := system.state
  match system.drainer with
  | .outside => system
  | .checking => { system with drainer := if headFirst then .headRead log.head else .tailRead log.tail }
  | .tailRead tail => { system with drainer := if tail ≠ log.head then .entered else .outside }
  | .headRead head => { system with drainer := if log.tail ≠ head then .entered else .outside }
  | .entered => { system with drainer := .loaded log.tail }
  | .loaded tail =>
    { system with printed := system.printed ++ [log.queue.getD tail []], drainer := .printed tail }
  | .printed tail => { system with state := { log with tail := advance tail }, drainer := .checking }

/-- One step of one of the cores. Core 0 makes its calls one after the other. -/
inductive LogStep : LogSystem → LogSystem → Prop where
  | call (system : LogSystem) (call : LogCall) (hidle : system.writer = .outside) :
      LogStep system (log_write system call)
  | write (system : LogSystem) : LogStep system (log_write_step system)
  | set_level (system : LogSystem) (level : LogLevel) (hidle : system.writer = .outside) :
      LogStep system (set_loglevel system level)
  | take_dropped (system : LogSystem) (hidle : system.writer = .outside) :
      LogStep system (log_take_dropped_count system)
  | take_emitted (system : LogSystem) (hidle : system.writer = .outside) :
      LogStep system (log_take_emitted_flag system)
  | drain (system : LogSystem) (hidle : system.drainer = .outside) : LogStep system (log_core1_drain system)
  | read (system : LogSystem) (headFirst : Bool) : LogStep system (log_core1_drain_step headFirst system)

/-- The next step of the loop of core 1 around `log_core1_drain`. -/
def core1_entry_step (system : LogSystem) : LogSystem :=
  if system.drainer = .outside then log_core1_drain system else log_core1_drain_step false system

end ether2ser.log
