import Ether2Ser.System.CliUsbCdc
import Ether2Ser.Words.Select
import Mathlib.Data.List.Induction

open Memory Words ether2ser.event_queue

namespace ether2ser.cli_usb_cdc

def isNewline (key : Char) : Bool := key = '\n' ∨ key = '\r'

def isPrintable (key : Char) : Bool := ASCII_FIRST_PRINTABLE ≤ key.toNat ∧ key.toNat ≤ ASCII_LAST_PRINTABLE

/-- A line after one more key, which is not the end of the line. -/
def editKey (line : List Char) (key : Char) : List Char :=
  if key.toNat = ASCII_BACKSPACE ∨ key.toNat = ASCII_DELETE then line.dropLast
  else if isPrintable key ∧ line.length < CLI_BUFFER_SIZE - 1 then line ++ [key]
  else line

/-- The complete lines, and the line that is being typed. -/
structure Edited where
  lines : List (List Char)
  line : List Char
  deriving DecidableEq, Repr

def Edited.type (edited : Edited) (key : Char) : Edited :=
  if isNewline key then { lines := edited.lines ++ [edited.line], line := [] }
  else { edited with line := editKey edited.line key }

/-- The lines that a sequence of keys spells. -/
def editKeys (keys : List Char) : Edited := keys.foldl Edited.type { lines := [], line := [] }

/-- The slot of a queued line, with its length. -/
def lineEvent : Event → Option (Nat × Nat)
  | .EV_CLI_LINE line_slot data_len => some (line_slot, data_len)
  | _ => none

/-- The string that `event_dispatch` hands to the commands. -/
def dispatchedLine (cli : CliStatics) (event : Event) : Option (List Char) :=
  match lineEvent event with
  | some (line_slot, data_len) => if data_len < 1 then none else some (cli.line line_slot)
  | none => none

/-- A run of the console, with the keys that polls have read, whether the queue
had room for each complete line, and the lines that have been dispatched. -/
structure ConsoleRun where
  console : Console
  keys : List Char
  accepted : List Bool
  dispatched : List (List Char)

def ConsoleRun.boot : ConsoleRun where
  console := .boot
  keys := []
  accepted := []
  dispatched := []

/-- A step of the world around the console: keys arrive, the loop polls, an event
is taken from the queue, or an event of another type is pushed. -/
inductive ConsoleStep where
  | type (keys : List Char)
  | cli_poll
  | pop
  | push (event : Event) (hother : lineEvent event = none)

def ConsoleRun.readKey (run : ConsoleRun) (key : Char) : ConsoleRun :=
  { run with
    console := processChar run.console key
    keys := run.keys ++ [key]
    accepted := if isNewline key then run.accepted ++ [!event_queue_is_full run.console.queue] else run.accepted }

def ConsoleRun.step (run : ConsoleRun) : ConsoleStep → ConsoleRun
  | .type keys => { run with console := { run.console with stdin := run.console.stdin ++ keys } }
  | .cli_poll =>
    (run.console.stdin.take CLI_MAX_CHARS_PER_POLL).foldl ConsoleRun.readKey
      { run with console := { run.console with stdin := run.console.stdin.drop CLI_MAX_CHARS_PER_POLL } }
  | .pop =>
    match event_queue_pop run.console.queue with
    | none => run
    | some (event, queue) =>
      { run with
        console := { run.console with queue }
        dispatched := run.dispatched ++ (dispatchedLine run.console.cli event).toList }
  | .push event _ => { run with console := { run.console with queue := (event_queue_push run.console.queue event).2 } }

def ConsoleRun.steps (run : ConsoleRun) (steps : List ConsoleStep) : ConsoleRun := steps.foldl ConsoleRun.step run

/-- The lines that wait in the queue. -/
def Console.queuedLines (console : Console) : List (List Char) :=
  console.queue.events.filterMap (dispatchedLine console.cli)

theorem console_foldl_readKey (run : ConsoleRun) (keys : List Char) :
    (keys.foldl ConsoleRun.readKey run).console = keys.foldl processChar run.console := by
  induction keys generalizing run with
  | nil => rfl
  | cons key keys ih => exact ih _

/-- The recorded poll is the poll of the source. -/
theorem console_step_cli_poll (run : ConsoleRun) : (run.step .cli_poll).console = cli_poll run.console :=
  console_foldl_readKey _ _

theorem dispatched_step_cli_poll (run : ConsoleRun) : (run.step .cli_poll).dispatched = run.dispatched := by
  have hkeys : ∀ (keys : List Char) (run : ConsoleRun),
      (keys.foldl ConsoleRun.readKey run).dispatched = run.dispatched := by
    intro keys
    induction keys with
    | nil => exact fun run => rfl
    | cons key keys ih => exact fun run => ih _
  exact hkeys _ _

/-- The buffer holds the line that is being typed. -/
structure Typing (cli : CliStatics) (line : List Char) : Prop where
  length_buffer : cli.line_buffer.length = CLI_BUFFER_SIZE
  len_lt : cli.buffer_len < CLI_BUFFER_SIZE
  take_eq : cli.line_buffer.take cli.buffer_len = line
  printable : ∀ key ∈ line, isPrintable key = true

theorem Typing.length_line {cli : CliStatics} {line : List Char} (h : Typing cli line) :
    line.length = cli.buffer_len := by
  rw [← h.take_eq, List.length_take, h.length_buffer, Nat.min_eq_left (Nat.le_of_lt h.len_lt)]

theorem Typing.cString_eq {cli : CliStatics} {line : List Char} (h : Typing cli line) :
    cString (cli.line_buffer.set cli.buffer_len '\x00') = line := by
  have hlt : cli.buffer_len < cli.line_buffer.length := by
    rw [h.length_buffer]
    exact h.len_lt
  have hkeys : ∀ key ∈ line, (key ≠ '\x00') = true := by
    intro key hmem
    have hprintable := h.printable key hmem
    simp only [eq_iff_iff, iff_true]
    rintro rfl
    cases hprintable
  rw [List.set_eq_take_append_cons_drop, if_pos hlt, h.take_eq, cString]
  rw [List.takeWhile_append_of_pos (by simpa using hkeys)]
  simp

theorem typing_nil {cli : CliStatics} (hlength : cli.line_buffer.length = CLI_BUFFER_SIZE) (hlen : cli.buffer_len = 0) :
    Typing cli [] where
  length_buffer := hlength
  len_lt := by
    rw [hlen]
    decide
  take_eq := by rw [hlen, List.take_zero]
  printable := nofun

theorem Typing.backspace {cli : CliStatics} {line : List Char} (h : Typing cli line) :
    Typing { cli with buffer_len := if cli.buffer_len ≠ 0 then cli.buffer_len - 1 else cli.buffer_len }
      line.dropLast where
  length_buffer := h.length_buffer
  len_lt := by
    have hlt := h.len_lt
    simp only
    split <;> omega
  take_eq := by
    have hlength := h.length_line
    have hpred : (if cli.buffer_len ≠ 0 then cli.buffer_len - 1 else cli.buffer_len) = line.length - 1 := by
      split <;> omega
    simp only [hpred]
    calc cli.line_buffer.take (line.length - 1)
      _ = (cli.line_buffer.take cli.buffer_len).take (line.length - 1) := by
        rw [List.take_take, Nat.min_eq_left (by omega)]
      _ = line.dropLast := by rw [h.take_eq, List.dropLast_eq_take]
  printable := fun key hmem => h.printable key (List.dropLast_subset line hmem)

theorem Typing.insert {cli : CliStatics} {line : List Char} (h : Typing cli line) {key : Char}
    (hkey : isPrintable key = true) (hroom : cli.buffer_len < CLI_BUFFER_SIZE - 1) :
    Typing { cli with line_buffer := cli.line_buffer.set cli.buffer_len key, buffer_len := cli.buffer_len + 1 }
      (line ++ [key]) where
  length_buffer := List.length_set.trans h.length_buffer
  len_lt := Nat.add_lt_of_lt_sub hroom
  take_eq := by
    have hlt : cli.buffer_len < cli.line_buffer.length := by
      rw [h.length_buffer]
      exact h.len_lt
    simp only
    rw [List.take_add_one, List.take_set_of_le (Nat.le_refl _), h.take_eq, List.getElem?_set_self hlt]
    rfl
  printable := by
    intro other hmem
    rcases List.mem_append.mp hmem with hmem | hmem
    · exact h.printable other hmem
    · rw [List.mem_singleton.mp hmem]
      exact hkey

theorem Typing.length_lt {cli : CliStatics} {line : List Char} (h : Typing cli line) :
    line.length < CLI_BUFFER_SIZE := by
  rw [h.length_line]
  exact h.len_lt

/-- A complete line is copied to the slot behind the queued ones and pushed, and
the slot is kept if the queue takes it. -/
theorem completeLine_eq {console : Console} {line : List Char} (h : Typing console.cli line) :
    let pushed := event_queue_push console.queue (.EV_CLI_LINE console.cli.cli_line_pool_write (line.length + 1))
    Typing (completeLine console).cli [] ∧
      (completeLine console).cli.cli_line_pool =
        console.cli.cli_line_pool.set console.cli.cli_line_pool_write line ∧
      (completeLine console).cli.cli_line_pool_write =
        (if pushed.1 then (console.cli.cli_line_pool_write + 1) % CLI_EVENT_POOL_SIZE
        else console.cli.cli_line_pool_write) ∧
      (completeLine console).queue = pushed.2 := by
  have hlt := h.length_lt
  have hline : line.take (CLI_BUFFER_SIZE - 1) = line := List.take_of_length_le (Nat.le_sub_one_of_lt hlt)
  have hempty : ∀ cli : CliStatics, cli.line_buffer = console.cli.line_buffer.set console.cli.buffer_len '\x00' →
      cli.buffer_len = 0 → Typing cli [] := by
    intro cli hbuffer hlen
    exact typing_nil ((congrArg List.length hbuffer).trans (List.length_set.trans h.length_buffer)) hlen
  unfold completeLine
  simp only [h.cString_eq, hline]
  rw [if_neg (Nat.not_le.mpr hlt)]
  cases event_queue_push console.queue (.EV_CLI_LINE console.cli.cli_line_pool_write (line.length + 1)) with
  | mk accepted queue => cases accepted <;> exact ⟨hempty _ rfl rfl, rfl, rfl, rfl⟩

/-- The events of lines that lie in successive slots. -/
def lineSlots (first : Nat) : List (List Char) → List (Nat × Nat)
  | [] => []
  | line :: lines => (first, line.length + 1) :: lineSlots ((first + 1) % CLI_EVENT_POOL_SIZE) lines

theorem lineSlots_concat {first : Nat} (hfirst : first < CLI_EVENT_POOL_SIZE) (lines : List (List Char))
    (line : List Char) :
    lineSlots first (lines ++ [line]) =
      lineSlots first lines ++ [(ringEnd CLI_EVENT_POOL_SIZE first lines, line.length + 1)] := by
  induction lines generalizing first with
  | nil =>
    rw [ringEnd, List.length_nil, Nat.add_zero, Nat.mod_eq_of_lt hfirst]
    rfl
  | cons head lines ih =>
    rw [ringEnd_cons]
    exact congrArg _ (ih (Nat.mod_lt _ (by decide)))

theorem length_lineSlots (first : Nat) (lines : List (List Char)) : (lineSlots first lines).length = lines.length := by
  induction lines generalizing first with
  | nil => rfl
  | cons line lines ih => exact congrArg (· + 1) (ih _)

/-- The pending lines lie in successive slots of the pool, in front of the slot
that is written next, and the queue points to them in this order. -/
structure PoolHolds (console : Console) (pending : List (List Char)) (first : Nat) : Prop where
  ring : RingHolds CLI_EVENT_POOL_SIZE console.cli.cli_line_pool first pending
  write_eq : ringEnd CLI_EVENT_POOL_SIZE first pending = console.cli.cli_line_pool_write
  queued : console.queue.events.filterMap lineEvent = lineSlots first pending

theorem PoolHolds.length_le {console : Console} {pending : List (List Char)} {first : Nat}
    (h : PoolHolds console pending first) : pending.length ≤ console.queue.events.length := by
  rw [← length_lineSlots first pending, ← h.queued]
  exact List.length_filterMap_le _ _

theorem PoolHolds.completeLine_room {console : Console} {pending : List (List Char)} {first : Nat}
    (h : PoolHolds console pending first) {line : List Char} (htyping : Typing console.cli line)
    (hroom : console.queue.events.length + 1 < EVENT_QUEUE_CAPACITY) :
    PoolHolds (completeLine console) (pending ++ [line]) first := by
  obtain ⟨-, hpool, hwrite, hqueue⟩ := completeLine_eq htyping
  obtain ⟨haccepted, hevents⟩ := event_queue_push_room
    (.EV_CLI_LINE console.cli.cli_line_pool_write (line.length + 1)) hroom
  rw [haccepted, if_pos rfl] at hwrite
  have hlength := h.length_le
  constructor
  · rw [hpool, ← h.write_eq]
    apply (h.ring.set line).concat _ (h.ring.getElem?_set line)
    exact Nat.lt_of_le_of_lt (Nat.succ_le_succ hlength) hroom
  · rw [hwrite, ringEnd_concat, h.write_eq]
  · rw [hqueue, hevents, List.filterMap_append, h.queued, lineSlots_concat h.ring.first_lt, h.write_eq]
    rfl

theorem PoolHolds.completeLine_full {console : Console} {pending : List (List Char)} {first : Nat}
    (h : PoolHolds console pending first) {line : List Char} (htyping : Typing console.cli line)
    (hfull : console.queue.events.length + 1 = EVENT_QUEUE_CAPACITY) :
    PoolHolds (completeLine console) pending first := by
  obtain ⟨-, hpool, hwrite, hqueue⟩ := completeLine_eq htyping
  obtain ⟨hrefused, hevents⟩ := event_queue_push_full
    (.EV_CLI_LINE console.cli.cli_line_pool_write (line.length + 1)) hfull
  rw [hrefused, if_neg Bool.false_ne_true] at hwrite
  constructor
  · rw [hpool, ← h.write_eq]
    exact h.ring.set line
  · rw [hwrite]
    exact h.write_eq
  · rw [hqueue, hevents]
    exact h.queued

/-- The queued lines are the pending ones. -/
theorem PoolHolds.queuedLines_eq {console : Console} {pending : List (List Char)} {first : Nat}
    (h : PoolHolds console pending first) : console.queuedLines = pending := by
  have hresolve : dispatchedLine console.cli = fun event => (lineEvent event).bind fun (line_slot, data_len) =>
      if data_len < 1 then none else some (console.cli.line line_slot) := by
    funext event
    unfold dispatchedLine
    cases lineEvent event with
    | none => rfl
    | some line => rfl
  rw [Console.queuedLines, hresolve, ← List.filterMap_filterMap, h.queued]
  have hring := h.ring
  clear h hresolve
  induction pending generalizing first with
  | nil => rfl
  | cons line pending ih =>
    have hline : console.cli.line first = line := by rw [CliStatics.line, hring.head, Option.getD_some]
    rw [lineSlots, List.filterMap_cons]
    simp only [Nat.succ_lt_succ_iff, Nat.not_lt_zero, if_false, hline]
    exact congrArg (line :: ·) (ih hring.tail)

/-- A key within a line leaves the pool and the queue alone. -/
theorem processChar_edit {console : Console} {line : List Char} (h : Typing console.cli line) {key : Char}
    (hkey : isNewline key = false) :
    Typing (processChar console key).cli (editKey line key) ∧
      (processChar console key).cli.cli_line_pool = console.cli.cli_line_pool ∧
      (processChar console key).cli.cli_line_pool_write = console.cli.cli_line_pool_write ∧
      (processChar console key).queue = console.queue := by
  have hnot : ¬ (key = '\n' ∨ key = '\r') := of_decide_eq_false hkey
  unfold processChar editKey
  simp only
  rw [if_neg hnot, h.length_line]
  by_cases hback : key.toNat = ASCII_BACKSPACE ∨ key.toNat = ASCII_DELETE
  · rw [if_pos hback, if_pos hback]
    exact ⟨h.backspace, rfl, rfl, rfl⟩
  · rw [if_neg hback, if_neg hback]
    by_cases hprintable : key.toNat ≥ ASCII_FIRST_PRINTABLE ∧ key.toNat ≤ ASCII_LAST_PRINTABLE
    · have hkind : isPrintable key = true := decide_eq_true hprintable
      rw [if_pos hprintable]
      by_cases hroom : console.cli.buffer_len < CLI_BUFFER_SIZE - 1
      · rw [if_pos hroom, if_pos ⟨hkind, hroom⟩]
        exact ⟨h.insert hkind hroom, rfl, rfl, rfl⟩
      · rw [if_neg hroom, if_neg (fun hboth => hroom hboth.2)]
        exact ⟨h, rfl, rfl, rfl⟩
    · have hkind : isPrintable key = false := decide_eq_false hprintable
      rw [if_neg hprintable, hkind, if_neg (fun hboth => Bool.false_ne_true hboth.1)]
      exact ⟨h, rfl, rfl, rfl⟩

theorem processChar_newline {console : Console} {key : Char} (hkey : isNewline key = true) :
    processChar console key = completeLine console := by
  unfold processChar
  rw [if_pos (of_decide_eq_true hkey)]

/-- The accepted lines are those that have been dispatched and those that the
pool still holds. -/
structure Intact (run : ConsoleRun) : Prop where
  typing : Typing run.console.cli (editKeys run.keys).line
  length_accepted : run.accepted.length = (editKeys run.keys).lines.length
  held : ∃ pending first,
    select run.accepted (editKeys run.keys).lines = run.dispatched ++ pending ∧ PoolHolds run.console pending first

theorem intact_boot : Intact .boot where
  typing := typing_nil List.length_replicate rfl
  length_accepted := rfl
  held := ⟨[], 0, rfl, ringHolds_nil List.length_replicate (by decide), rfl, rfl⟩

theorem editKeys_concat (keys : List Char) (key : Char) : editKeys (keys ++ [key]) = (editKeys keys).type key := by
  rw [editKeys, List.foldl_append]
  rfl

theorem Intact.readKey_edit {run : ConsoleRun} (h : Intact run) {key : Char} (hkey : isNewline key = false) :
    Intact (run.readKey key) := by
  obtain ⟨htyping, hpool, hwrite, hqueue⟩ := processChar_edit h.typing hkey
  obtain ⟨pending, first, hlines, hring, hend, hqueued⟩ := h.held
  have hedited : editKeys (run.readKey key).keys =
      { lines := (editKeys run.keys).lines, line := editKey (editKeys run.keys).line key } := by
    rw [ConsoleRun.readKey, editKeys_concat, Edited.type, hkey]
    rfl
  have haccepted : (run.readKey key).accepted = run.accepted := by
    rw [ConsoleRun.readKey, hkey]
    rfl
  refine ⟨?_, ?_, pending, first, ?_, ?_, ?_, ?_⟩
  · rw [hedited]
    exact htyping
  · rw [hedited, haccepted]
    exact h.length_accepted
  · rw [hedited, haccepted]
    exact hlines
  · change RingHolds _ (processChar run.console key).cli.cli_line_pool first pending
    rw [hpool]
    exact hring
  · exact hend.trans hwrite.symm
  · change (processChar run.console key).queue.events.filterMap lineEvent = _
    rw [hqueue]
    exact hqueued

theorem Intact.readKey_newline {run : ConsoleRun} (h : Intact run) {key : Char} (hkey : isNewline key = true) :
    Intact (run.readKey key) := by
  obtain ⟨pending, first, hlines, hpool⟩ := h.held
  have hedited : editKeys (run.readKey key).keys =
      { lines := (editKeys run.keys).lines ++ [(editKeys run.keys).line], line := [] } := by
    rw [ConsoleRun.readKey, editKeys_concat, Edited.type, hkey]
    rfl
  have haccepted : (run.readKey key).accepted = run.accepted ++ [!event_queue_is_full run.console.queue] := by
    rw [ConsoleRun.readKey, hkey]
    rfl
  have hconsole : (run.readKey key).console = completeLine run.console := processChar_newline hkey
  have hmark : select (run.readKey key).accepted (editKeys (run.readKey key).keys).lines =
      (run.dispatched ++ pending) ++
        select [!event_queue_is_full run.console.queue] [(editKeys run.keys).line] := by
    rw [hedited, haccepted, select_append h.length_accepted, hlines]
  have hlength : (run.readKey key).accepted.length = (editKeys (run.readKey key).keys).lines.length := by
    rw [hedited, haccepted, List.length_append, List.length_append, h.length_accepted]
    rfl
  have htyping : Typing (run.readKey key).console.cli (editKeys (run.readKey key).keys).line := by
    rw [hedited, hconsole]
    exact (completeLine_eq h.typing).1
  obtain hroom | hfull := room_or_full run.console.queue
  · have hopen : event_queue_is_full run.console.queue = false := by
      apply decide_eq_false
      rw [full_iff]
      omega
    rw [hopen] at hmark
    refine ⟨htyping, hlength, pending ++ [(editKeys run.keys).line], first, ?_, ?_⟩
    · rw [hmark, List.append_assoc]
      rfl
    · rw [hconsole]
      exact hpool.completeLine_room h.typing hroom
  · have hclosed : event_queue_is_full run.console.queue = true := decide_eq_true ((full_iff _).mpr hfull)
    rw [hclosed] at hmark
    refine ⟨htyping, hlength, pending, first, ?_, ?_⟩
    · rw [hmark]
      exact List.append_nil _
    · rw [hconsole]
      exact hpool.completeLine_full h.typing hfull

theorem Intact.readKeys {run : ConsoleRun} (h : Intact run) (keys : List Char) :
    Intact (keys.foldl ConsoleRun.readKey run) := by
  induction keys generalizing run with
  | nil => exact h
  | cons key keys ih =>
    apply ih
    cases hkey : isNewline key with
    | true => exact h.readKey_newline hkey
    | false => exact h.readKey_edit hkey

/-- Taking an event from the queue dispatches the oldest pending line, or none. -/
theorem Intact.pop {run : ConsoleRun} (h : Intact run) : Intact (run.step .pop) := by
  obtain ⟨pending, first, hlines, hpool⟩ := h.held
  unfold ConsoleRun.step
  cases hpop : event_queue_pop run.console.queue with
  | none => exact h
  | some popped =>
    obtain ⟨event, queue⟩ := popped
    have hqueued := hpool.queued
    rw [events_of_pop hpop, List.filterMap_cons] at hqueued
    refine ⟨h.typing, h.length_accepted, ?_⟩
    cases hevent : lineEvent event with
    | none =>
      rw [hevent] at hqueued
      refine ⟨pending, first, ?_, hpool.ring, hpool.write_eq, hqueued⟩
      simp only [dispatchedLine, hevent, Option.toList_none, List.append_nil]
      exact hlines
    | some slot =>
      rw [hevent] at hqueued
      cases pending with
      | nil => cases hqueued
      | cons line pending =>
        obtain ⟨rfl, hrest⟩ := List.cons_eq_cons.mp hqueued
        have hline : run.console.cli.line first = line := by rw [CliStatics.line, hpool.ring.head, Option.getD_some]
        refine ⟨pending, _, ?_, hpool.ring.tail, ringEnd_cons.symm.trans hpool.write_eq, hrest⟩
        simp only [dispatchedLine, hevent, Nat.succ_lt_succ_iff, Nat.not_lt_zero, if_false, hline,
          Option.toList_some, List.append_assoc]
        exact hlines

theorem Intact.push {run : ConsoleRun} (h : Intact run) {event : Event} (hother : lineEvent event = none) :
    Intact (run.step (.push event hother)) := by
  obtain ⟨pending, first, hlines, hpool⟩ := h.held
  refine ⟨h.typing, h.length_accepted, pending, first, hlines, hpool.ring, hpool.write_eq, ?_⟩
  change (event_queue_push run.console.queue event).2.events.filterMap lineEvent = _
  obtain hroom | hfull := room_or_full run.console.queue
  · rw [(event_queue_push_room event hroom).2, List.filterMap_append, hpool.queued, List.filterMap_cons, hother]
    exact List.append_nil _
  · rw [(event_queue_push_full event hfull).2]
    exact hpool.queued

theorem Intact.step {run : ConsoleRun} (h : Intact run) (step : ConsoleStep) : Intact (run.step step) := by
  cases step with
  | type keys =>
    obtain ⟨pending, first, hlines, hring, hend, hqueued⟩ := h.held
    exact ⟨h.typing, h.length_accepted, pending, first, hlines, hring, hend, hqueued⟩
  | cli_poll =>
    obtain ⟨pending, first, hlines, hring, hend, hqueued⟩ := h.held
    apply Intact.readKeys
    exact ⟨h.typing, h.length_accepted, pending, first, hlines, hring, hend, hqueued⟩
  | pop => exact h.pop
  | push event hother => exact h.push hother

theorem Intact.steps {run : ConsoleRun} (h : Intact run) (steps : List ConsoleStep) : Intact (run.steps steps) := by
  unfold ConsoleRun.steps
  induction steps generalizing run with
  | nil => exact h
  | cons step steps ih => exact ih (h.step step)

/-- The keys that arrive in a sequence of steps. -/
def typedKeys (steps : List ConsoleStep) : List Char :=
  steps.flatMap fun
    | .type keys => keys
    | _ => []

theorem keys_foldl_readKey (run : ConsoleRun) (keys : List Char) :
    (keys.foldl ConsoleRun.readKey run).keys = run.keys ++ keys := by
  induction keys generalizing run with
  | nil => exact (List.append_nil _).symm
  | cons key keys ih => rw [List.foldl_cons, ih, ConsoleRun.readKey, List.append_assoc, List.singleton_append]

theorem stdin_processChar (console : Console) (key : Char) : (processChar console key).stdin = console.stdin := by
  unfold processChar completeLine
  simp only
  split_ifs
  · rfl
  · split <;> rfl
  all_goals rfl

theorem stdin_foldl_processChar (console : Console) (keys : List Char) :
    (keys.foldl processChar console).stdin = console.stdin := by
  induction keys generalizing console with
  | nil => rfl
  | cons key keys ih => exact (ih _).trans (stdin_processChar console key)

/-- Polls read the keys in the order in which they arrive. -/
theorem keys_append_stdin_step (run : ConsoleRun) (step : ConsoleStep) :
    (run.step step).keys ++ (run.step step).console.stdin = run.keys ++ run.console.stdin ++ typedKeys [step] := by
  cases step with
  | type keys => simp [ConsoleRun.step, typedKeys]
  | cli_poll =>
    rw [console_step_cli_poll, cli_poll, stdin_foldl_processChar]
    simp [ConsoleRun.step, typedKeys, keys_foldl_readKey]
  | pop =>
    simp only [ConsoleRun.step, typedKeys, List.flatMap_cons, List.flatMap_nil, List.append_nil]
    split <;> rfl
  | push event hother => simp [ConsoleRun.step, typedKeys]

theorem keys_append_stdin (run : ConsoleRun) (steps : List ConsoleStep) :
    (run.steps steps).keys ++ (run.steps steps).console.stdin = run.keys ++ run.console.stdin ++ typedKeys steps := by
  unfold ConsoleRun.steps
  induction steps generalizing run with
  | nil => exact (List.append_nil _).symm
  | cons step steps ih =>
    rw [List.foldl_cons, ih, keys_append_stdin_step, List.append_assoc]
    congr 1
    simp [typedKeys]

/-- An edited line fits its buffer and is printable. -/
def FitsBuffer (line : List Char) : Prop := line.length ≤ CLI_BUFFER_SIZE - 1 ∧ ∀ key ∈ line, isPrintable key = true

theorem fitsBuffer_editKey {line : List Char} (h : FitsBuffer line) (key : Char) : FitsBuffer (editKey line key) := by
  unfold editKey
  split
  · exact ⟨Nat.le_trans (List.length_dropLast ▸ Nat.sub_le _ _) h.1,
      fun other hmem => h.2 other (List.dropLast_subset line hmem)⟩
  · split
    · rename_i hinsert
      refine ⟨List.length_append ▸ hinsert.2, ?_⟩
      intro other hmem
      rcases List.mem_append.mp hmem with hmem | hmem
      · exact h.2 other hmem
      · rw [List.mem_singleton.mp hmem]
        exact hinsert.1
    · exact h

theorem fitsBuffer_editKeys (keys : List Char) :
    FitsBuffer (editKeys keys).line ∧ ∀ line ∈ (editKeys keys).lines, FitsBuffer line := by
  have hnil : FitsBuffer [] := ⟨Nat.zero_le _, nofun⟩
  induction keys using List.reverseRecOn with
  | nil => exact ⟨hnil, nofun⟩
  | append_singleton keys key ih =>
    rw [editKeys_concat, Edited.type]
    split
    · refine ⟨hnil, fun line hmem => ?_⟩
      rcases List.mem_append.mp hmem with hmem | hmem
      · exact ih.2 line hmem
      · rw [List.mem_singleton.mp hmem]
        exact ih.1
    · exact ⟨fitsBuffer_editKey ih.1 key, ih.2⟩

/-- Queued lines are never overwritten: for every order of polls, pops and other
pushes, the strings dispatched so far and those that the queue still points to
are the edited lines in the order typed, less those whose push was refused. -/
theorem cli_lines_dispatched_intact (steps : List ConsoleStep) :
    let run := ConsoleRun.boot.steps steps
    let edited := editKeys run.keys
    run.keys ++ run.console.stdin = typedKeys steps ∧
      run.accepted.length = edited.lines.length ∧
      run.dispatched ++ run.console.queuedLines = select run.accepted edited.lines ∧
      ∀ line ∈ edited.lines, line.length ≤ 127 ∧ ∀ key ∈ line, isPrintable key = true := by
  intro run edited
  have hintact : Intact run := intact_boot.steps steps
  obtain ⟨pending, first, hlines, hpool⟩ := hintact.held
  refine ⟨keys_append_stdin .boot steps, hintact.length_accepted, ?_, ?_⟩
  · rw [hpool.queuedLines_eq]
    exact hlines.symm
  · exact fun line hmem => (fitsBuffer_editKeys run.keys).2 line hmem

end ether2ser.cli_usb_cdc
