import Ether2Ser.Pio.Shift
import Ether2Ser.Signals.Clocked
import Ether2Ser.Signals.Paced
import Mathlib.Tactic.IntervalCases

open Bits Pio Signals

namespace ether2ser.pio_tx_rx_driver

/-- `xck_txd.pio`, with `next_byte` at 0, `bitloop` at 2 and `do_shift` at 6. -/
def xck_txd_program : List Instruction :=
  [ Operation.plain .pull_block,
    Operation.plain (.set_x 7),
    Operation.plain (.wait false),
    Operation.plain (.wait true),
    Operation.plain (.jmp .pin 6),
    Operation.plain (.jmp .always 2),
    Operation.plain .out_pins,
    Operation.plain (.jmp .x_nonzero_decrement 2),
    Operation.plain (.jmp .always 0) ]

/-- The configuration of `tx_clock_init_xck`: TXC on the input pin, TXD on the
output pin and CTS on the jump pin. -/
def xck_config : Config where
  program := xck_txd_program
  wrap_target := 0
  wrap := 8
  in_shift := { right := true, auto := false, threshold := 32 }
  out_shift := { right := true, auto := false, threshold := 8 }
  tx_depth := 4
  rx_depth := 4

/-- TXC and CTS as the transmitter sees them. -/
def xckPins (clock cts : Bool) : Pins where
  jmp_pin := cts
  in_pin := clock

/-- The longest way of the program from a rising edge to its next wait. A level of
the clock has to last as long. -/
def xckLeast : Nat := 7

/-- Whether the program waits for a byte or for CTS in its next cycle. -/
def xckWaits (tx : Machine) (cts : Bool) : Bool :=
  (tx.pc = 0 && tx.tx_fifo.isEmpty) || (tx.pc = 4 && !cts)

/-- The bits of the current byte that have not been shifted out. -/
def xckLeft (tx : Machine) : Nat :=
  match tx.pc with
  | 0 | 8 => 0
  | 1 => 8
  | 7 => tx.x.toNat
  | _ => tx.x.toNat + 1

/-- The bits that have not been shifted out. -/
def unshifted (tx : Machine) : List Bool :=
  outBits tx.osr (xckLeft tx) ++ tx.tx_fifo.flatMap fun word => outBits word 8

/-- What the state machine is between two cycles: never idle, and within a
byte. -/
structure XckValid (tx : Machine) : Prop where
  pc_le : tx.pc ≤ 8
  delay_eq : tx.delay = 0

/-- What a cycle does, instruction by instruction. -/
inductive XckCycle (tx : Machine) (clock cts : Bool) : Machine → Prop where
  | starved (hpc : tx.pc = 0) (hfifo : tx.tx_fifo = []) : XckCycle tx clock cts { tx with txstall := true }
  | pull (hpc : tx.pc = 0) (word : BitVec 32) (tx_fifo : List (BitVec 32)) (hfifo : tx.tx_fifo = word :: tx_fifo) :
      XckCycle tx clock cts { tx with pc := 1, osr := word, osr_count := 0, tx_fifo }
  | set_x (hpc : tx.pc = 1) : XckCycle tx clock cts { tx with pc := 2, x := 7 }
  | wait_low (hpc : tx.pc = 2) : XckCycle tx clock cts { tx with pc := if clock then 2 else 3 }
  | wait_high (hpc : tx.pc = 3) : XckCycle tx clock cts { tx with pc := if clock then 4 else 3 }
  | jmp_pin (hpc : tx.pc = 4) : XckCycle tx clock cts { tx with pc := if cts then 6 else 5 }
  | skip (hpc : tx.pc = 5) : XckCycle tx clock cts { tx with pc := 2 }
  | shift (hpc : tx.pc = 6) : XckCycle tx clock cts
      { tx with pc := 7, out_pin := tx.osr.getLsbD 0, osr := tx.osr >>> 1, osr_count := min 32 (tx.osr_count + 1) }
  | count (hpc : tx.pc = 7) : XckCycle tx clock cts { tx with pc := if tx.x ≠ 0 then 2 else 8, x := tx.x - 1 }
  | next_byte (hpc : tx.pc = 8) : XckCycle tx clock cts { tx with pc := 0 }

theorem XckValid.cycle {tx : Machine} (h : XckValid tx) (clock cts : Bool) :
    XckCycle tx clock cts (tx.cycle xck_config (xckPins clock cts)) := by
  obtain ⟨pc, delay, x, isr, isr_count, osr, osr_count, tx_fifo, rx_fifo, out_pin, side_pin, txstall, rxstall⟩ := tx
  obtain ⟨hle, hdelay⟩ := h
  simp only at hle hdelay
  subst hdelay
  interval_cases pc
  · cases tx_fifo with
    | nil => exact .starved rfl rfl
    | cons word tx_fifo => exact .pull rfl word tx_fifo rfl
  · exact .set_x rfl
  · cases clock <;> exact .wait_low rfl
  · cases clock <;> exact .wait_high rfl
  · cases cts <;> exact .jmp_pin rfl
  · exact .skip rfl
  · exact .shift rfl
  · exact .count rfl
  · exact .next_byte rfl

/-- Only OUT changes the data line. -/
theorem XckCycle.out_eq {tx next : Machine} {clock cts : Bool} (h : XckCycle tx clock cts next) (hpc : tx.pc ≠ 6) :
    next.out_pin = tx.out_pin := by
  cases h with
  | shift hsix => exact absurd hsix hpc
  | starved | pull | set_x | wait_low | wait_high | jmp_pin | skip | count | next_byte => rfl

theorem XckCycle.valid {tx next : Machine} {clock cts : Bool} (h : XckCycle tx clock cts next) (hvalid : XckValid tx) :
    XckValid next := by
  refine ⟨?_, ?_⟩
  · have hle := hvalid.pc_le
    cases h with
    | starved => exact hle
    | pull | set_x | skip | shift | next_byte => simp
    | wait_low | wait_high | jmp_pin | count =>
      simp only
      split <;> omega
  · cases h <;> exact hvalid.delay_eq

/-- Only OUT shifts a bit out. -/
theorem XckCycle.unshifted_eq {tx next : Machine} {clock cts : Bool} (h : XckCycle tx clock cts next)
    (hpc : tx.pc ≠ 6) : unshifted next = unshifted tx := by
  cases h with
  | shift hsix => exact absurd hsix hpc
  | starved => rfl
  | pull hzero word tx_fifo hfifo => simp [unshifted, xckLeft, hzero, hfifo, outBits]
  | set_x hone => simp [unshifted, xckLeft, hone]
  | wait_low htwo => cases clock <;> simp [unshifted, xckLeft, htwo]
  | wait_high hthree => cases clock <;> simp [unshifted, xckLeft, hthree]
  | jmp_pin hfour => cases cts <;> simp [unshifted, xckLeft, hfour]
  | skip hfive => simp [unshifted, xckLeft, hfive]
  | count hseven =>
    have hleft : xckLeft { tx with pc := if tx.x ≠ 0 then 2 else 8, x := tx.x - 1 } = xckLeft tx := by
      by_cases hx : tx.x = 0
      · rw [if_neg (not_not_intro hx)]
        simp [xckLeft, hseven, hx]
      · have hpos : tx.x.toNat ≠ 0 := fun hzero => hx (BitVec.eq_of_toNat_eq hzero)
        have hlt := tx.x.isLt
        have hone : (1 : BitVec 32).toNat = 1 := rfl
        rw [if_pos hx]
        simp only [xckLeft, hseven, BitVec.toNat_sub, hone]
        omega
    simp only [unshifted, hleft]
  | next_byte height => simp [unshifted, xckLeft, height]

theorem XckCycle.unshifted_of_shift {tx next : Machine} {clock cts : Bool} (h : XckCycle tx clock cts next)
    (hpc : tx.pc = 6) : next.pc = 7 ∧ next.out_pin :: unshifted next = unshifted tx := by
  cases h with
  | shift hsix =>
    refine ⟨rfl, ?_⟩
    simp only [unshifted, xckLeft, hsix, outBits_succ]
    rfl
  | starved | pull | set_x | wait_low | wait_high | jmp_pin | skip | count | next_byte => omega

/-- Where the program stands, by the pace of the clock, and whether a bit has been
shifted out that no falling edge has read yet. Unless it was ready for the last
rising edge in time, there is an excuse. -/
inductive XckPhase (excused : Prop) : Nat → Pace → Bool → Prop where
  | ready (samples : Nat) : XckPhase excused 3 { level := false, samples } false
  | late {pc : Nat} (hpc : pc ≤ 2) (hexcused : excused) (pace : Pace) : XckPhase excused pc pace false
  | rose : XckPhase excused 4 { level := true, samples := 1 } false
  | skips (hexcused : excused) : XckPhase excused 5 { level := true, samples := 2 } false
  | shifts : XckPhase excused 6 { level := true, samples := 2 } false
  | shifted : XckPhase excused 7 { level := true, samples := 3 } true
  | finished : XckPhase excused 8 { level := true, samples := 4 } true
  | fetches {samples : Nat} (htime : samples = 5 ∨ excused) : XckPhase excused 0 { level := true, samples } true
  | loads {samples : Nat} (htime : samples = 6 ∨ excused) : XckPhase excused 1 { level := true, samples } true
  | waits (samples : Nat) : XckPhase excused 2 { level := true, samples } true

/-- A bit waits for its falling edge while the clock is high. -/
theorem XckPhase.level_eq {excused : Prop} {pc : Nat} {pace : Pace} (h : XckPhase excused pc pace true) :
    pace.level = true := by
  cases h <;> rfl

/-- The program shifts a bit out in the third cycle of a high clock. -/
theorem XckPhase.shift {excused : Prop} {pace : Pace} {pending : Bool} (h : XckPhase excused 6 pace pending) :
    pending = false ∧ pace = { level := true, samples := 2 } := by
  cases h with
  | late hpc => omega
  | shifts => exact ⟨rfl, rfl⟩

/-- A cycle that shifts nothing out: a falling edge reads the pending bit, or
there is an excuse for reading the last one again. -/
structure XckKeeps (excused : Prop) (pace : Pace) (clock pending : Bool) (next : Machine) : Prop where
  phase : XckPhase excused next.pc (pace.next clock) (pending && clock)
  excuse : pending = false → pace.level = true → clock = false → excused

/-- The clock does not fall early. -/
theorem high_of_lasts {clock : Bool} {samples : Nat} (hlasts : clock ≠ true → xckLeast ≤ samples)
    (hearly : samples < xckLeast) : clock = true := by
  by_contra hfell
  exact absurd (hlasts hfell) (Nat.not_le_of_lt hearly)

/-- When it falls later than the program needs, there is an excuse. -/
theorem excused_of_fell {excused : Prop} {clock : Bool} {samples time : Nat}
    (hlasts : clock ≠ true → xckLeast ≤ samples) (htime : samples = time ∨ excused) (hfell : clock = false)
    (hearly : time < xckLeast) : excused := by
  have hleast := hlasts (by rw [hfell]; exact Bool.noConfusion)
  exact htime.resolve_left fun hsamples => by omega

theorem XckPhase.keeps {excused : Prop} {tx next : Machine} {pace : Pace} {clock cts pending : Bool}
    (h : XckPhase excused tx.pc pace pending) (hcycle : XckCycle tx clock cts next) (hpc : tx.pc ≠ 6)
    (hlasts : clock ≠ pace.level → xckLeast ≤ pace.samples) (hwaits : xckWaits tx cts = true → excused) :
    XckKeeps excused pace clock pending next := by
  generalize hat : tx.pc = pc at h hpc
  cases h with
  | ready samples =>
    cases hcycle with
    | wait_high hthree =>
      cases clock with
      | true => exact ⟨.rose, fun _ _ hclock => by cases hclock⟩
      | false => exact ⟨.ready _, fun _ hlevel => by cases hlevel⟩
    | starved | pull | set_x | wait_low | jmp_pin | skip | shift | count | next_byte => omega
  | late hle hexcused =>
    refine ⟨?_, fun _ _ _ => hexcused⟩
    cases hcycle with
    | starved hzero hfifo => exact .late (Nat.le_of_eq hzero |>.trans (by omega)) hexcused _
    | pull | set_x => exact .late (by simp) hexcused _
    | wait_low htwo =>
      cases clock with
      | true => exact .late (Nat.le_refl 2) hexcused _
      | false => exact .ready _
    | wait_high | jmp_pin | skip | shift | count | next_byte => omega
  | rose =>
    obtain rfl := high_of_lasts hlasts (by decide)
    refine ⟨?_, fun _ _ hfell => by cases hfell⟩
    cases hcycle with
    | jmp_pin hfour =>
      cases cts with
      | true => exact .shifts
      | false => exact .skips (hwaits (by simp [xckWaits, hfour]))
    | starved | pull | set_x | wait_low | wait_high | skip | shift | count | next_byte => omega
  | skips hexcused =>
    refine ⟨?_, fun _ _ _ => hexcused⟩
    cases hcycle with
    | skip hfive => exact .late (Nat.le_refl 2) hexcused _
    | starved | pull | set_x | wait_low | wait_high | jmp_pin | shift | count | next_byte => omega
  | shifts => exact absurd rfl hpc
  | shifted =>
    obtain rfl := high_of_lasts hlasts (by decide)
    refine ⟨?_, fun hpending => by cases hpending⟩
    cases hcycle with
    | count hseven =>
      by_cases hx : tx.x ≠ 0
      · simp only [if_pos hx]
        exact .waits _
      · simp only [if_neg hx]
        exact .finished
    | starved | pull | set_x | wait_low | wait_high | jmp_pin | skip | shift | next_byte => omega
  | finished =>
    obtain rfl := high_of_lasts hlasts (by decide)
    refine ⟨?_, fun hpending => by cases hpending⟩
    cases hcycle with
    | next_byte height => exact .fetches (.inl rfl)
    | starved | pull | set_x | wait_low | wait_high | jmp_pin | skip | shift | count => omega
  | fetches htime =>
    have hexcused := excused_of_fell hlasts htime
    refine ⟨?_, fun hpending => by cases hpending⟩
    cases hcycle with
    | starved hzero hfifo =>
      have hstarved := hwaits (by simp [xckWaits, hzero, hfifo])
      simp only [hat]
      cases clock with
      | true => exact .fetches (.inr hstarved)
      | false => exact .late (Nat.zero_le 2) hstarved _
    | pull hzero word tx_fifo hfifo =>
      cases clock with
      | true => exact .loads (htime.imp_left (congrArg Nat.succ))
      | false => exact .late (Nat.le_succ 1) (hexcused rfl (by decide)) _
    | set_x | wait_low | wait_high | jmp_pin | skip | shift | count | next_byte => omega
  | loads htime =>
    have hexcused := excused_of_fell hlasts htime
    refine ⟨?_, fun hpending => by cases hpending⟩
    cases hcycle with
    | set_x hone =>
      cases clock with
      | true => exact .waits _
      | false => exact .late (Nat.le_refl 2) (hexcused rfl (by decide)) _
    | starved | pull | wait_low | wait_high | jmp_pin | skip | shift | count | next_byte => omega
  | waits samples =>
    refine ⟨?_, fun hpending => by cases hpending⟩
    cases hcycle with
    | wait_low htwo =>
      cases clock with
      | true => exact .waits _
      | false => exact .ready _
    | starved | pull | set_x | wait_high | jmp_pin | skip | shift | count | next_byte => omega

end ether2ser.pio_tx_rx_driver
