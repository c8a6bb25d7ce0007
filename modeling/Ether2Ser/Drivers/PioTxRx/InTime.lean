import Ether2Ser.Drivers.PioTxRx.Receive

open Bits Pio Signals

namespace ether2ser.pio_tx_rx_driver

/-- The bits that the receiver holds, with the edge that it has yet to read. -/
def RxWorld.pending (world : RxWorld) : Nat :=
  (world.rx.gathered rx_clock_config).length + world.reader.fallen.toList.length

/-- The bits for which the FIFO and the shift register have room together. -/
def rxCapacity : Nat := CHAR_BIT * rx_clock_config.rx_depth + (CHAR_BIT - 1)

/-- The bits that may follow a drain: less than the capacity by the rest of a byte
and the edge that a drain leaves behind. -/
def rxHeadroom : Nat := rxCapacity - CHAR_BIT

/-- The bits since the FIFO was last found empty, or reset. -/
def RxWorld.sinceEmpty (world : RxWorld) (since : Nat) : RxAction → Nat
  | .sample line => since + (world.reader.next line).fallen.toList.length
  | .rx_get => if world.rx.rx_fifo = [] then 0 else since
  | .rx_clock_poll_stall => since
  | .rx_clock_hard_reset => 0

def RxWorld.sinceEmptyRun (world : RxWorld) (since : Nat) : List RxAction → Nat
  | [] => since
  | action :: actions => (world.step action).sinceEmptyRun (world.sinceEmpty since action) actions

/-- Whatever the order of the samples and the calls, no more bits come between two
calls that find the FIFO empty than the receiver has room for. -/
def RxWorld.InTime (world : RxWorld) (since : Nat) : List RxAction → Prop
  | [] => True
  | action :: actions =>
    world.sinceEmpty since action ≤ rxHeadroom ∧ (world.step action).InTime (world.sinceEmpty since action) actions

instance RxWorld.decidableInTime :
    (world : RxWorld) → (since : Nat) → (actions : List RxAction) → Decidable (world.InTime since actions)
  | _, _, [] => isTrue trivial
  | world, since, action :: actions =>
    have := decidableInTime (world.step action) (world.sinceEmpty since action) actions
    inferInstanceAs (Decidable (_ ∧ _))

theorem length_gathered (rx : Machine) :
    (rx.gathered rx_clock_config).length = CHAR_BIT * rx.rx_fifo.length + rx.isr_count := by
  have hwords : ∀ words : List (BitVec 32),
      (words.flatMap fun word => inBits word rx_clock_config.in_shift.threshold).length = CHAR_BIT * words.length := by
    intro words
    induction words with
    | nil => rfl
    | cons word words ih =>
      rw [List.flatMap_cons, List.length_append, ih, length_inBits, List.length_cons, Nat.mul_succ, Nat.add_comm]
      rfl
  rw [Machine.gathered, List.length_append, length_inBits, hwords]

theorem length_fallen_le (reader : Reader) : reader.fallen.toList.length ≤ 1 := by
  cases reader.fallen <;> simp

/-- A state machine in step with the line does not stall as long as it has
room. -/
theorem RxInStep.has_room {rx : Machine} {reader : Reader} (h : RxInStep rx reader) (hclear : rx.rxstall = false)
    (hroom : (rx.gathered rx_clock_config).length + reader.fallen.toList.length ≤ rxCapacity) (line : Line) :
    (rx.cycle rx_clock_config (rxPins line)).rxstall = false := by
  obtain ⟨hphase, hdelay, hcount⟩ := h
  generalize hpc : rx.pc = pc at hphase
  cases hphase with
  | wait_high hrose hfallen =>
    rw [cycle_jmp_pin hdelay (by rw [hpc]; rfl)]
    exact hclear
  | wait_again hclock hfallen =>
    have hfetch : rck_rxd_program[rx.pc]? = some (Operation.jmp .always 0).plain := by
      rw [hpc]
      rfl
    rw [rx.cycle_of_plain hdelay hfetch]
    exact hclear
  | got_high hclock hfallen =>
    rw [cycle_jmp_pin hdelay (by rw [hpc]; rfl)]
    exact hclear
  | fell bit hclock hfallen =>
    have hfetch : rck_rxd_program[rx.pc]? = some Operation.in_pins.plain := by
      rw [hpc]
      rfl
    rw [rx.cycle_of_plain hdelay hfetch]
    rw [length_gathered, hfallen] at hroom
    simp only [Machine.execute, Operation.plain, refill_rx, Machine.inPins]
    split
    · rename_i hpush
      rw [if_neg]
      · exact hclear
      · intro hfull
        simp [rxCapacity, CHAR_BIT, rx_clock_config] at hroom hpush hfull
        omega
    · exact hclear

/-- A receiver that has lost nothing and reported nothing, and holds no more than
what has come since it was last found empty and the rest from before. -/
structure RxWorld.Sound (world : RxWorld) (since : Nat) : Prop where
  complete : world.Complete
  clear : world.rx.rxstall = false
  quiet : true ∉ world.stalls
  pending_le : world.pending ≤ CHAR_BIT + since

theorem sound_boot : RxWorld.boot.Sound 0 where
  complete := complete_boot
  clear := rfl
  quiet := List.not_mem_nil
  pending_le := Nat.zero_le _

theorem RxWorld.Sound.not_stalled {world : RxWorld} {since : Nat} (h : world.Sound since) : ¬ world.Stalled := by
  rintro (hflag | hreported)
  · rw [h.clear] at hflag
    cases hflag
  · exact h.quiet hreported

/-- There is room for another sample, which adds the bit of its edge. -/
theorem RxWorld.Sound.sample {world : RxWorld} {since : Nat} (h : world.Sound since) {line : Line}
    (haccepts : world.reader.Accepts line) (hroom : world.sinceEmpty since (.sample line) ≤ rxHeadroom) :
    (world.step (.sample line)).Sound (world.sinceEmpty since (.sample line)) := by
  have hplace : world.pending ≤ rxCapacity := by
    have hpending := h.pending_le
    simp only [sinceEmpty, rxHeadroom, rxCapacity, CHAR_BIT, rx_clock_config] at hroom hpending ⊢
    omega
  have hclear : (world.step (.sample line)).rx.rxstall = false := h.complete.inStep.has_room h.clear hplace line
  obtain ⟨-, hgathered⟩ := h.complete.inStep.sample haccepts hclear
  refine ⟨h.complete.sample haccepts hclear, hclear, h.quiet, ?_⟩
  calc (world.step (.sample line)).pending
      = world.pending + (world.reader.next line).fallen.toList.length := by
        simp only [pending, RxWorld.reader, RxWorld.step, reader_snoc] at hgathered ⊢
        rw [hgathered, List.length_append]
    _ ≤ CHAR_BIT + world.sinceEmpty since (.sample line) := by
        rw [sinceEmpty, ← Nat.add_assoc]
        exact Nat.add_le_add_right h.pending_le _

/-- A call that finds the FIFO empty leaves the rest of a byte and the edge that is
yet to be read. -/
theorem RxWorld.Sound.get {world : RxWorld} {since : Nat} (h : world.Sound since) :
    (world.step .rx_get).Sound (world.sinceEmpty since .rx_get) := by
  cases hfifo : world.rx.rx_fifo with
  | nil =>
    have hsame : world.step .rx_get = world := by
      simp only [RxWorld.step, pio_tx_rx_driver.rx_get, Machine.get?, hfifo]
      rfl
    rw [sinceEmpty, if_pos hfifo, hsame]
    refine ⟨h.complete, h.clear, h.quiet, ?_⟩
    have hcount := h.complete.inStep.isr_count_lt
    have hedge := length_fallen_le world.reader
    rw [pending, length_gathered, hfifo, List.length_nil]
    simp only [CHAR_BIT]
    omega
  | cons word rx_fifo =>
    have hrx : (world.step .rx_get).rx = { world.rx with rx_fifo } ∧ (world.step .rx_get).stalls = world.stalls := by
      simp [RxWorld.step, pio_tx_rx_driver.rx_get, Machine.get?, hfifo]
    have hpending : (world.step .rx_get).pending + CHAR_BIT = world.pending := by
      rw [pending, pending, length_gathered, length_gathered, reader_step world .rx_get, hrx.1, hfifo,
        List.length_cons, Nat.mul_succ]
      simp only [RxAction.line?, Option.toList_none, Reader.run_nil]
      omega
    have hkept := h.pending_le
    rw [sinceEmpty, if_neg (by rw [hfifo]; exact List.cons_ne_nil _ _)]
    exact ⟨h.complete.get, hrx.1 ▸ h.clear, hrx.2 ▸ h.quiet, by omega⟩

theorem RxWorld.Sound.poll_stall {world : RxWorld} {since : Nat} (h : world.Sound since) :
    (world.step .rx_clock_poll_stall).Sound since := by
  have hpoll : pio_tx_rx_driver.rx_clock_poll_stall world.rx = (false, world.rx) := by
    simp [pio_tx_rx_driver.rx_clock_poll_stall, h.clear]
  refine ⟨h.complete.poll_stall, ?_, ?_, ?_⟩
  · simp only [RxWorld.step, hpoll]
    exact h.clear
  · simp only [RxWorld.step, hpoll, List.mem_append, not_or]
    exact ⟨h.quiet, by simp⟩
  · simp only [RxWorld.step, hpoll, pending]
    exact h.pending_le

theorem RxWorld.Sound.hard_reset {world : RxWorld} {since : Nat} (h : world.Sound since) :
    (world.step .rx_clock_hard_reset).Sound 0 where
  complete := h.complete.hard_reset
  clear := h.clear
  quiet := h.quiet
  pending_le := by
    have hempty : (world.step .rx_clock_hard_reset).rx.gathered rx_clock_config = [] := rfl
    have hedge := length_fallen_le (world.step .rx_clock_hard_reset).reader
    rw [pending, hempty, List.length_nil, CHAR_BIT]
    omega

theorem RxWorld.Sound.run {world : RxWorld} {since : Nat} (h : world.Sound since) {actions : List RxAction}
    (hreadable : world.reader.Readable (actions.filterMap RxAction.line?)) (hintime : world.InTime since actions) :
    (world.run actions).Sound (world.sinceEmptyRun since actions) := by
  induction actions generalizing world since with
  | nil => exact h
  | cons action actions ih =>
    obtain ⟨hroom, hlater⟩ := hintime
    have hsplit : (action :: actions).filterMap RxAction.line? =
        action.line?.toList ++ actions.filterMap RxAction.line? := by
      cases action <;> rfl
    rw [hsplit, Reader.readable_append, ← reader_step] at hreadable
    refine ih ?_ hreadable.2 hlater
    cases action with
    | sample line => exact h.sample hreadable.1.1 hroom
    | rx_get => exact h.get
    | rx_clock_poll_stall => exact h.poll_stall
    | rx_clock_hard_reset => exact h.hard_reset

/-- A receiver that can follow the line and is read in time never stalls, and what it
has not handed over yet is a byte at most besides the bits since its FIFO was last
found empty. -/
theorem rx_never_stalls_in_time {actions : List RxAction}
    (hreadable : (Reader.steady false).Readable (actions.filterMap RxAction.line?))
    (hintime : RxWorld.boot.InTime 0 actions) :
    ¬ (RxWorld.boot.run actions).Stalled ∧
      ∃ held : List Bool, held.length ≤ CHAR_BIT + RxWorld.boot.sinceEmptyRun 0 actions ∧
        bytesBits true (RxWorld.boot.run actions).received ++ held =
          (RxWorld.boot.run actions).before.fallen.toList ++
            (RxWorld.boot.run actions).before.bits (RxWorld.boot.run actions).lines := by
  have hsound := sound_boot.run hreadable hintime
  refine ⟨hsound.not_stalled, _, ?_, hsound.complete.bits_eq⟩
  rw [List.length_append]
  exact hsound.pending_le

theorem rx_never_stalls_in_time_nine :
    ¬ (RxWorld.boot.run nineBits).Stalled ∧
      ∃ held : List Bool, held.length ≤ CHAR_BIT + RxWorld.boot.sinceEmptyRun 0 nineBits ∧
        bytesBits true (RxWorld.boot.run nineBits).received ++ held =
          (RxWorld.boot.run nineBits).before.fallen.toList ++
            (RxWorld.boot.run nineBits).before.bits (RxWorld.boot.run nineBits).lines :=
  rx_never_stalls_in_time (by decide +kernel) (by decide +kernel)

end ether2ser.pio_tx_rx_driver
