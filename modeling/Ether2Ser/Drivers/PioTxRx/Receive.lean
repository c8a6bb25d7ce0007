import Ether2Ser.Pio.Shift
import Ether2Ser.Signals.Clocked

open Bits Pio Signals

namespace ether2ser.pio_tx_rx_driver

def CHAR_BIT : Nat := 8
def RX_SHIFT_TO_LSB : Nat := 3 * CHAR_BIT

/-- `rck_rxd.pio`, with `wait_high` at 0 and `got_high` at 2. -/
def rck_rxd_program : List Instruction :=
  [ Operation.plain (.jmp .pin 2),
    Operation.plain (.jmp .always 0),
    Operation.plain (.jmp .pin 2),
    Operation.plain .in_pins ]

/-- The configuration of `rx_clock_init`: RXC on the jump pin, RXD on the input
pin, and both FIFOs joined for receiving. -/
def rx_clock_config : Config where
  program := rck_rxd_program
  wrap_target := 0
  wrap := 3
  in_shift := { right := true, auto := true, threshold := CHAR_BIT }
  out_shift := { right := true, auto := false, threshold := 32 }
  tx_depth := 0
  rx_depth := 8

/-- Read one received byte. -/
def rx_get (rx : Machine) : Option (UInt8 × Machine) :=
  rx.get?.map fun (word, rx) => (UInt8.ofBitVec ((word >>> RX_SHIFT_TO_LSB).setWidth 8), rx)

def rx_clock_poll_stall (rx : Machine) : Bool × Machine :=
  if rx.rxstall then (true, { rx with rxstall := false }) else (false, rx)

/-- `rx_clock_hard_reset`, during which the state machine is disabled. -/
def rx_clock_hard_reset (rx : Machine) : Machine := rx.clear_fifos.restart

/-- The pins of the receiver. -/
def rxPins (line : Line) : Pins where
  jmp_pin := line.clock
  in_pin := line.data

/-- What happens to the receiver: a cycle of its state machine, or a call of the
driver. -/
inductive RxAction where
  | sample (line : Line)
  | rx_get
  | rx_clock_poll_stall
  | rx_clock_hard_reset
  deriving DecidableEq, Repr

/-- The receiver with the results of `rx_clock_poll_stall`, and with the samples
and the bytes read since the last reset, where `before` remembers the samples
until then. -/
structure RxWorld where
  rx : Machine
  stalls : List Bool
  before : Reader
  lines : List Line
  received : List UInt8
  deriving DecidableEq, Repr

/-- After `rx_clock_init`, on a line that has been low. -/
def RxWorld.boot : RxWorld where
  rx := .init
  stalls := []
  before := .steady false
  lines := []
  received := []

def RxWorld.step (world : RxWorld) : RxAction → RxWorld
  | .sample line =>
    { world with
      rx := world.rx.cycle rx_clock_config (rxPins line)
      lines := world.lines ++ [line] }
  | .rx_get =>
    match pio_tx_rx_driver.rx_get world.rx with
    | none => world
    | some (data, rx) => { world with rx, received := world.received ++ [data] }
  | .rx_clock_poll_stall =>
    let (stalled, rx) := pio_tx_rx_driver.rx_clock_poll_stall world.rx
    { world with rx, stalls := world.stalls ++ [stalled] }
  | .rx_clock_hard_reset =>
    { world with
      rx := pio_tx_rx_driver.rx_clock_hard_reset world.rx
      before := world.before.run world.lines
      lines := []
      received := [] }

def RxWorld.run (world : RxWorld) (actions : List RxAction) : RxWorld := actions.foldl RxWorld.step world

/-- The samples of a sequence of actions. -/
def RxAction.line? : RxAction → Option Line
  | .sample line => some line
  | .rx_get | .rx_clock_poll_stall | .rx_clock_hard_reset => none

/-- Everything that the reader of the line has seen. -/
def RxWorld.reader (world : RxWorld) : Reader := world.before.run world.lines

/-- A stall of the receive FIFO has been reported, or would be. -/
def RxWorld.Stalled (world : RxWorld) : Prop := world.rx.rxstall = true ∨ true ∈ world.stalls

instance (world : RxWorld) : Decidable world.Stalled := inferInstanceAs (Decidable (_ ∨ _))

/-- Where the program stands, by what it has seen of the clock. -/
inductive RxPhase : Nat → Reader → Prop where
  | wait_high {reader : Reader} (hrose : reader.clock = true → reader.rising = true) (hfallen : reader.fallen = none) :
      RxPhase 0 reader
  | wait_again {reader : Reader} (hclock : reader.clock = false) (hfallen : reader.fallen = none) : RxPhase 1 reader
  | got_high {reader : Reader} (hclock : reader.clock = true) (hfallen : reader.fallen = none) : RxPhase 2 reader
  | fell {reader : Reader} (bit : Bool) (hclock : reader.clock = false) (hfallen : reader.fallen = some bit) :
      RxPhase 3 reader

/-- The state machine is in step with the line. -/
structure RxInStep (rx : Machine) (reader : Reader) : Prop where
  phase : RxPhase rx.pc reader
  delay_eq : rx.delay = 0
  isr_count_lt : rx.isr_count < 8

theorem refill_rx (rx : Machine) : rx.refill rx_clock_config = rx := rx.refill_of_manual rfl

/-- A jump of the program that waits for the clock. -/
theorem cycle_jmp_pin {rx : Machine} (hdelay : rx.delay = 0)
    (hfetch : rck_rxd_program[rx.pc]? = some (Operation.jmp .pin 2).plain) (line : Line) :
    rx.cycle rx_clock_config (rxPins line) =
      { rx with pc := if line.clock then 2 else rx.following rx_clock_config } := by
  rw [rx.cycle_of_plain hdelay hfetch]
  simp only [Machine.execute, Operation.plain, refill_rx, Machine.goto, rxPins, ← hdelay]
  rfl

/-- A sample that the program can follow keeps it in step with the line and
gathers the data of the last falling edge. -/
theorem RxInStep.sample {rx : Machine} {reader : Reader} (h : RxInStep rx reader) {line : Line}
    (haccepts : reader.Accepts line) (hroom : (rx.cycle rx_clock_config (rxPins line)).rxstall = false) :
    RxInStep (rx.cycle rx_clock_config (rxPins line)) (reader.next line) ∧
      (rx.cycle rx_clock_config (rxPins line)).gathered rx_clock_config =
        rx.gathered rx_clock_config ++ reader.fallen.toList := by
  obtain ⟨hphase, hdelay, hcount⟩ := h
  generalize hpc : rx.pc = pc at hphase
  cases hphase with
  | wait_high hrose hfallen =>
    rw [cycle_jmp_pin hdelay (by rw [hpc]; rfl), hfallen]
    refine ⟨⟨?_, hdelay, hcount⟩, (List.append_nil _).symm⟩
    cases hclock : line.clock with
    | true => exact .got_high hclock (by simp [Reader.next, hclock])
    | false =>
      have hlow : reader.clock = false := by
        by_contra hhigh
        rw [Bool.not_eq_false] at hhigh
        rw [haccepts.1 (hrose hhigh)] at hclock
        cases hclock
      simp only [Machine.following, hpc]
      exact .wait_again hclock (by simp [Reader.next, hlow])
  | wait_again hclock hfallen =>
    have hfetch : rck_rxd_program[rx.pc]? = some (Operation.jmp .always 0).plain := by
      rw [hpc]
      rfl
    rw [rx.cycle_of_plain hdelay hfetch, hfallen]
    simp only [Machine.execute, Operation.plain, refill_rx]
    refine ⟨⟨.wait_high ?_ ?_, rfl, hcount⟩, (List.append_nil _).symm⟩
    · simp [Reader.next, hclock]
    · simp [Reader.next, hclock]
  | got_high hclock hfallen =>
    rw [cycle_jmp_pin hdelay (by rw [hpc]; rfl), hfallen]
    refine ⟨⟨?_, hdelay, hcount⟩, (List.append_nil _).symm⟩
    cases hline : line.clock with
    | true => exact .got_high hline (by simp [Reader.next, hline])
    | false =>
      simp only [Machine.following, hpc]
      exact .fell line.data hline (by simp [Reader.next, hclock, hline])
  | fell bit hclock hfallen =>
    have hfetch : rck_rxd_program[rx.pc]? = some Operation.in_pins.plain := by
      rw [hpc]
      rfl
    rw [rx.cycle_of_plain hdelay hfetch] at hroom ⊢
    simp only [Machine.execute, Operation.plain, refill_rx] at hroom ⊢
    obtain ⟨hgathered, hnext, hdelay', hcount'⟩ := Machine.gathered_inPins rfl rfl (by decide) hcount hroom
    refine ⟨⟨?_, hdelay', hcount'⟩, ?_⟩
    · rw [hnext, Machine.following, hpc]
      exact .wait_high (by simp [Reader.next, hclock]) (by simp [Reader.next, hclock])
    · rw [hgathered, hfallen, rxPins, haccepts.2 bit hfallen]
      rfl

/-- The bytes read since the last reset, and the bits still in the state machine,
are the data behind the falling edges since then. -/
structure RxWorld.Complete (world : RxWorld) : Prop where
  inStep : RxInStep world.rx world.reader
  bits_eq : bytesBits true world.received ++ (world.rx.gathered rx_clock_config ++ world.reader.fallen.toList) =
    world.before.fallen.toList ++ world.before.bits world.lines

theorem complete_boot : RxWorld.boot.Complete where
  inStep := ⟨.wait_high Bool.noConfusion rfl, rfl, Nat.zero_lt_succ _⟩
  bits_eq := rfl

theorem reader_snoc (world : RxWorld) (line : Line) :
    world.before.run (world.lines ++ [line]) = world.reader.next line := Reader.run_append _ _ _

theorem RxWorld.Complete.sample {world : RxWorld} (h : world.Complete) {line : Line}
    (haccepts : world.reader.Accepts line) (hroom : (world.step (.sample line)).rx.rxstall = false) :
    (world.step (.sample line)).Complete := by
  obtain ⟨hstep, hgathered⟩ := h.inStep.sample haccepts hroom
  refine ⟨?_, ?_⟩
  · rw [← reader_snoc] at hstep
    exact hstep
  · have hbits : world.before.bits (world.lines ++ [line]) =
        world.before.bits world.lines ++ (world.reader.next line).fallen.toList := by
      rw [Reader.bits_append, Reader.bits, Reader.bits, List.append_nil]
      rfl
    simp only [RxWorld.reader, RxWorld.step, reader_snoc] at hgathered ⊢
    rw [hgathered, hbits, ← List.append_assoc _ (world.before.bits _), ← h.bits_eq]
    simp only [List.append_assoc]
    rfl

theorem RxWorld.Complete.get {world : RxWorld} (h : world.Complete) : (world.step .rx_get).Complete := by
  unfold RxWorld.step pio_tx_rx_driver.rx_get Machine.get?
  cases hfifo : world.rx.rx_fifo with
  | nil => exact h
  | cons word rx_fifo =>
    refine ⟨⟨h.inStep.phase, h.inStep.delay_eq, h.inStep.isr_count_lt⟩, ?_⟩
    have hbits := h.bits_eq
    have hword : byteBits true (UInt8.ofBitVec ((word >>> RX_SHIFT_TO_LSB).setWidth 8)) = inBits word 8 :=
      byteBits_upperByte word
    simp only [Machine.gathered, hfifo, List.flatMap_cons, List.append_assoc] at hbits
    simp only [Option.map_some, bytesBits_append, bytesBits_cons, bytesBits_nil, List.append_nil, hword,
      Machine.gathered, List.append_assoc]
    exact hbits

theorem RxWorld.Complete.poll_stall {world : RxWorld} (h : world.Complete) :
    (world.step .rx_clock_poll_stall).Complete := by
  simp only [RxWorld.step, pio_tx_rx_driver.rx_clock_poll_stall]
  split
  · exact ⟨⟨h.inStep.phase, h.inStep.delay_eq, h.inStep.isr_count_lt⟩, h.bits_eq⟩
  · exact ⟨h.inStep, h.bits_eq⟩

theorem RxWorld.Complete.hard_reset {world : RxWorld} (h : world.Complete) :
    (world.step .rx_clock_hard_reset).Complete where
  inStep := ⟨h.inStep.phase, rfl, Nat.zero_lt_succ _⟩
  bits_eq := (List.append_nil _).symm

theorem RxWorld.Stalled.step {world : RxWorld} (h : world.Stalled) (action : RxAction) :
    (world.step action).Stalled := by
  rcases h with hflag | hreported
  · cases action with
    | sample line => exact .inl (Machine.rxstall_cycle hflag)
    | rx_get =>
      unfold RxWorld.step pio_tx_rx_driver.rx_get Machine.get?
      cases world.rx.rx_fifo <;> exact .inl hflag
    | rx_clock_poll_stall =>
      right
      simp only [RxWorld.step, pio_tx_rx_driver.rx_clock_poll_stall, hflag, if_true]
      exact List.mem_append_right _ (List.mem_singleton_self _)
    | rx_clock_hard_reset => exact .inl hflag
  · right
    cases action with
    | sample line => exact hreported
    | rx_get =>
      unfold RxWorld.step
      dsimp only
      split <;> exact hreported
    | rx_clock_poll_stall => exact List.mem_append_left _ hreported
    | rx_clock_hard_reset => exact hreported

theorem RxWorld.Stalled.run {world : RxWorld} (h : world.Stalled) (actions : List RxAction) :
    (world.run actions).Stalled := List.foldlRecOn actions _ h fun _ hstalled action _ => hstalled.step action

/-- The reader goes on over a reset of the state machine. -/
theorem reader_step (world : RxWorld) (action : RxAction) :
    (world.step action).reader = world.reader.run action.line?.toList := by
  cases action with
  | sample line => exact reader_snoc world line
  | rx_get =>
    unfold RxWorld.step
    dsimp only
    split <;> rfl
  | rx_clock_poll_stall => rfl
  | rx_clock_hard_reset => rfl

/-- Without a reset, the port goes on from what it was initialised to. -/
theorem lines_of_no_hard_reset {actions : List RxAction} (hreset : .rx_clock_hard_reset ∉ actions) (world : RxWorld) :
    (world.run actions).before = world.before ∧
      (world.run actions).lines = world.lines ++ actions.filterMap RxAction.line? := by
  induction actions generalizing world with
  | nil => exact ⟨rfl, (List.append_nil _).symm⟩
  | cons action actions ih =>
    rw [List.mem_cons, not_or] at hreset
    obtain ⟨hbefore, hlines⟩ := ih hreset.2 (world.step action)
    change ((world.step action).run actions).before = _ ∧ ((world.step action).run actions).lines = _
    rw [hbefore, hlines]
    cases action with
    | sample line => exact ⟨rfl, List.append_assoc ..⟩
    | rx_get =>
      unfold RxWorld.step
      dsimp only
      split <;> exact ⟨rfl, rfl⟩
    | rx_clock_poll_stall => exact ⟨rfl, rfl⟩
    | rx_clock_hard_reset => exact absurd rfl hreset.1

theorem RxWorld.Complete.run {world : RxWorld} (h : world.Complete) {actions : List RxAction}
    (hreadable : world.reader.Readable (actions.filterMap RxAction.line?)) (hroom : ¬ (world.run actions).Stalled) :
    (world.run actions).Complete := by
  induction actions generalizing world with
  | nil => exact h
  | cons action actions ih =>
    have hstep : ¬ (world.step action).Stalled := fun hstalled => hroom (hstalled.run actions)
    have hsplit : (action :: actions).filterMap RxAction.line? =
        action.line?.toList ++ actions.filterMap RxAction.line? := by
      cases action <;> rfl
    rw [hsplit, Reader.readable_append, ← reader_step] at hreadable
    refine ih ?_ hreadable.2 hroom
    cases action with
    | sample line =>
      apply h.sample hreadable.1.1
      rw [← Bool.not_eq_true]
      exact fun hflag => hstep (.inl hflag)
    | rx_get => exact h.get
    | rx_clock_poll_stall => exact h.poll_stall
    | rx_clock_hard_reset => exact h.hard_reset

/-- As long as no stall is reported, the receiver loses no bit: the bytes read
since the last reset and what its FIFO and its shift register hold are the data
at the falling edges since then, least significant bit first. Only an edge in the
very last sample is not gathered yet. -/
theorem rx_bits_complete {actions : List RxAction}
    (hreadable : (Reader.steady false).Readable (actions.filterMap RxAction.line?))
    (hroom : ¬ (RxWorld.boot.run actions).Stalled) :
    bytesBits true (RxWorld.boot.run actions).received ++
        ((RxWorld.boot.run actions).rx.gathered rx_clock_config ++
          (RxWorld.boot.run actions).reader.fallen.toList) =
      (RxWorld.boot.run actions).before.fallen.toList ++
        (RxWorld.boot.run actions).before.bits (RxWorld.boot.run actions).lines :=
  (complete_boot.run hreadable hroom).bits_eq

/-- Nine clock periods of four samples each, and a byte that is read behind
them. -/
def nineBits : List RxAction :=
  ([true, false, true, true, false, false, true, false, true].flatMap fun data =>
    [.sample { clock := true, data }, .sample { clock := true, data }, .sample { clock := false, data },
      .sample { clock := false, data }]) ++ [.rx_clock_poll_stall, .rx_get]

theorem rx_bits_complete_nine :
    bytesBits true (RxWorld.boot.run nineBits).received ++
        ((RxWorld.boot.run nineBits).rx.gathered rx_clock_config ++
          (RxWorld.boot.run nineBits).reader.fallen.toList) =
      (RxWorld.boot.run nineBits).before.fallen.toList ++
        (RxWorld.boot.run nineBits).before.bits (RxWorld.boot.run nineBits).lines :=
  rx_bits_complete (by decide +kernel) (by decide +kernel)

end ether2ser.pio_tx_rx_driver
