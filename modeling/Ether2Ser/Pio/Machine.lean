import Mathlib.Data.List.Basic

namespace Pio

/-- When a jump is taken. -/
inductive Condition where
  | always
  | x_nonzero_decrement
  | pin
  deriving DecidableEq, Repr

/-- What an instruction does, for state machines that read, write and wait on
one pin each. -/
inductive Operation where
  | jmp (condition : Condition) (target : Nat)
  | wait (polarity : Bool)
  | in_pins
  | out_pins
  | pull_block
  | set_x (data : BitVec 32)
  | nop
  deriving DecidableEq, Repr

/-- An instruction with the level of the side-set pin and the cycles it idles
afterwards. -/
structure Instruction where
  operation : Operation
  side : Option Bool
  delay : Nat
  deriving DecidableEq, Repr

/-- An instruction without side-set and without delay. -/
def Operation.plain (operation : Operation) : Instruction := { operation, side := none, delay := 0 }

/-- How a shift register is set up. -/
structure Shift where
  right : Bool
  auto : Bool
  threshold : Nat
  deriving DecidableEq, Repr

/-- A program and the configuration of the state machine that runs it. -/
structure Config where
  program : List Instruction
  wrap_target : Nat
  wrap : Nat
  in_shift : Shift
  out_shift : Shift
  tx_depth : Nat
  rx_depth : Nat
  deriving DecidableEq, Repr

/-- The levels on the pins of JMP PIN and of IN and WAIT. -/
structure Pins where
  jmp_pin : Bool
  in_pin : Bool
  deriving DecidableEq, Repr

/-- A state machine. The two flags are the sticky ones of its FIFOs. -/
structure Machine where
  pc : Nat
  delay : Nat
  x : BitVec 32
  isr : BitVec 32
  isr_count : Nat
  osr : BitVec 32
  osr_count : Nat
  tx_fifo : List (BitVec 32)
  rx_fifo : List (BitVec 32)
  out_pin : Bool
  side_pin : Bool
  txstall : Bool
  rxstall : Bool
  deriving DecidableEq, Repr

/-- A state machine as its initialisation leaves it: the input register is empty
and nothing is left in the output register. -/
def Machine.init : Machine where
  pc := 0
  delay := 0
  x := 0
  isr := 0
  isr_count := 0
  osr := 0
  osr_count := 32
  tx_fifo := []
  rx_fifo := []
  out_pin := false
  side_pin := false
  txstall := false
  rxstall := false

/-- Shift a bit into a register. -/
def Shift.shiftIn (shift : Shift) (register : BitVec 32) (bit : Bool) : BitVec 32 :=
  if shift.right then (register >>> 1) ||| (if bit then 1#32 <<< 31 else 0)
  else (register <<< 1) ||| (if bit then 1 else 0)

/-- Shift a bit out of a register. -/
def Shift.shiftOut (shift : Shift) (register : BitVec 32) : Bool × BitVec 32 :=
  if shift.right then (register.getLsbD 0, register >>> 1) else (register.getLsbD 31, register <<< 1)

/-- Go on with another instruction once the cycles of this one are over. -/
def Machine.goto (m : Machine) (pc delay : Nat) : Machine := { m with pc, delay }

/-- The instruction behind the current one. -/
def Machine.following (config : Config) (m : Machine) : Nat :=
  if m.pc = config.wrap then config.wrap_target else m.pc + 1

/-- Load the next word of the transmit FIFO into the output register. -/
def Machine.load (m : Machine) : Option Machine :=
  match m.tx_fifo with
  | [] => none
  | word :: tx_fifo => some { m with osr := word, osr_count := 0, tx_fifo }

/-- With autopull, an output register that has been shifted out is loaded again in
any cycle. -/
def Machine.refill (config : Config) (m : Machine) : Machine :=
  if config.out_shift.auto ∧ config.out_shift.threshold ≤ m.osr_count then m.load.getD m else m

/-- IN: with autopush, the register is pushed when it is full. It stalls as long
as there is no room. -/
def Machine.inPins (config : Config) (delay : Nat) (bit : Bool) (m : Machine) : Machine :=
  let isr := config.in_shift.shiftIn m.isr bit
  let isr_count := min 32 (m.isr_count + 1)
  if config.in_shift.auto ∧ config.in_shift.threshold ≤ isr_count then
    if m.rx_fifo.length ≥ config.rx_depth then { m with rxstall := true }
    else
      { m with rx_fifo := m.rx_fifo ++ [isr], isr := 0, isr_count := 0 }.goto (m.following config) delay
  else { m with isr, isr_count }.goto (m.following config) delay

/-- OUT: with autopull, it stalls as long as there is nothing left to shift
out. -/
def Machine.outPins (config : Config) (delay : Nat) (m : Machine) : Machine :=
  if config.out_shift.auto ∧ config.out_shift.threshold ≤ m.osr_count then
    m.load.getD { m with txstall := true }
  else
    let (out_pin, osr) := config.out_shift.shiftOut m.osr
    ({ m with out_pin, osr, osr_count := min 32 (m.osr_count + 1) }.goto (m.following config) delay).refill config

/-- Every other operation. A blocking PULL stalls on an empty FIFO and a WAIT on
the other level. -/
def Machine.execute (config : Config) (pins : Pins) (instruction : Instruction) (m : Machine) : Machine :=
  match instruction.operation with
  | .jmp .always target => (m.goto target instruction.delay).refill config
  | .jmp .x_nonzero_decrement target =>
    ({ m with x := m.x - 1 }.goto (if m.x ≠ 0 then target else m.following config) instruction.delay).refill config
  | .jmp .pin target =>
    (m.goto (if pins.jmp_pin then target else m.following config) instruction.delay).refill config
  | .wait polarity =>
    (if pins.in_pin = polarity then m.goto (m.following config) instruction.delay else m).refill config
  | .in_pins => (m.inPins config instruction.delay pins.in_pin).refill config
  | .out_pins => m.outPins config instruction.delay
  | .pull_block =>
    match m.load with
    | none => { m with txstall := true }
    | some loaded => loaded.goto (m.following config) instruction.delay
  | .set_x data => ({ m with x := data }.goto (m.following config) instruction.delay).refill config
  | .nop => (m.goto (m.following config) instruction.delay).refill config

/-- One cycle: idle, or execute an instruction, which drives the side-set pin even
when it stalls. -/
def Machine.cycle (config : Config) (m : Machine) (pins : Pins) : Machine :=
  match m.delay with
  | delay + 1 => { m with delay }.refill config
  | 0 =>
    match config.program[m.pc]? with
    | none => m
    | some instruction => { m with side_pin := instruction.side.getD m.side_pin }.execute config pins instruction

/-- A machine that is not idle executes the instruction it is at. -/
theorem Machine.cycle_of_fetch {config : Config} {m : Machine} {instruction : Instruction} (hdelay : m.delay = 0)
    (hfetch : config.program[m.pc]? = some instruction) (pins : Pins) :
    m.cycle config pins = { m with side_pin := instruction.side.getD m.side_pin }.execute config pins instruction := by
  unfold cycle
  rw [hdelay]
  simp only [hfetch, ← hdelay]

theorem Machine.cycle_of_plain {config : Config} {m : Machine} {operation : Operation} (hdelay : m.delay = 0)
    (hfetch : config.program[m.pc]? = some operation.plain) (pins : Pins) :
    m.cycle config pins = m.execute config pins operation.plain :=
  m.cycle_of_fetch hdelay hfetch pins

theorem Machine.cycle_of_delay {config : Config} {m : Machine} {delay : Nat} (hdelay : m.delay = delay + 1)
    (pins : Pins) : m.cycle config pins = { m with delay }.refill config := by
  unfold cycle
  rw [hdelay]

theorem Machine.refill_of_manual {config : Config} (hmanual : config.out_shift.auto = false) (m : Machine) :
    m.refill config = m := if_neg (by simp [hmanual])

@[simp]
theorem Machine.rxstall_refill (config : Config) (m : Machine) : (m.refill config).rxstall = m.rxstall := by
  unfold refill load
  split
  · cases m.tx_fifo <;> rfl
  · rfl

/-- The stall flag of the receive FIFO stays set. -/
theorem Machine.rxstall_cycle {config : Config} {m : Machine} {pins : Pins} (h : m.rxstall = true) :
    (m.cycle config pins).rxstall = true := by
  unfold cycle
  split
  · rw [rxstall_refill]
    exact h
  · split
    · exact h
    · rename_i instruction hfetch
      unfold execute
      split
      · rw [rxstall_refill]
        exact h
      · rw [rxstall_refill]
        exact h
      · rw [rxstall_refill]
        exact h
      · rw [rxstall_refill]
        split <;> exact h
      · rw [rxstall_refill, inPins]
        dsimp only
        split
        · split
          · rfl
          · exact h
        · exact h
      · unfold outPins load
        dsimp only
        split
        · cases m.tx_fifo <;> exact h
        · rw [rxstall_refill]
          exact h
      · unfold load
        cases m.tx_fifo <;> exact h
      · rw [rxstall_refill]
        exact h
      · rw [rxstall_refill]
        exact h

theorem Machine.tx_fifo_load {m loaded other : Machine} (hother : other.tx_fifo <:+ m.tx_fifo)
    (hloaded : loaded.tx_fifo = m.tx_fifo) : (loaded.load.getD other).tx_fifo <:+ m.tx_fifo := by
  rw [← hloaded] at hother ⊢
  unfold load
  cases hwords : loaded.tx_fifo with
  | nil =>
    rw [hwords] at hother
    exact hother
  | cons word words => exact List.suffix_cons word words

theorem Machine.tx_fifo_refill (config : Config) (m : Machine) : (m.refill config).tx_fifo <:+ m.tx_fifo := by
  unfold refill
  split
  · exact tx_fifo_load List.suffix_rfl rfl
  · exact List.suffix_rfl

/-- The state machine only takes from its transmit FIFO. -/
theorem Machine.tx_fifo_cycle (config : Config) (m : Machine) (pins : Pins) :
    (m.cycle config pins).tx_fifo <:+ m.tx_fifo := by
  unfold cycle
  split
  · exact tx_fifo_refill config _
  · split
    · exact List.suffix_rfl
    · rename_i instruction hfetch
      unfold execute
      split
      · exact tx_fifo_refill config _
      · exact tx_fifo_refill config _
      · exact tx_fifo_refill config _
      · refine (tx_fifo_refill config _).trans ?_
        split <;> exact List.suffix_rfl
      · refine (tx_fifo_refill config _).trans ?_
        unfold inPins
        dsimp only
        split
        · split <;> exact List.suffix_rfl
        · exact List.suffix_rfl
      · unfold outPins
        split
        · exact tx_fifo_load List.suffix_rfl rfl
        · exact tx_fifo_refill config _
      · unfold load
        cases hwords : m.tx_fifo with
        | nil => exact List.nil_suffix
        | cons word words => exact List.suffix_cons word words
      · exact tx_fifo_refill config _
      · exact tx_fifo_refill config _

/-- What software does to a state machine. -/
def Machine.put (m : Machine) (word : BitVec 32) : Machine := { m with tx_fifo := m.tx_fifo ++ [word] }

def Machine.get? (m : Machine) : Option (BitVec 32 × Machine) :=
  match m.rx_fifo with
  | [] => none
  | word :: rx_fifo => some (word, { m with rx_fifo })

def Machine.clear_fifos (m : Machine) : Machine := { m with tx_fifo := [], rx_fifo := [] }

/-- A restart forgets what the shift registers count and the rest of a delay. It
goes on at the same instruction. -/
def Machine.restart (m : Machine) : Machine := { m with delay := 0, isr := 0, isr_count := 0, osr_count := 32 }

end Pio
