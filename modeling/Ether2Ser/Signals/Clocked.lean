import Mathlib.Data.List.Basic

namespace Signals

/-- The levels of a clock and of the data that goes with it. -/
structure Line where
  clock : Bool
  data : Bool
  deriving DecidableEq, Repr

/-- What a reader of falling edges remembers of the samples so far: the level of
the clock, whether it rose in the last sample, and the data if it fell there. -/
structure Reader where
  clock : Bool
  rising : Bool
  fallen : Option Bool
  deriving DecidableEq, Repr

/-- A reader of a clock that has been steady. -/
def Reader.steady (clock : Bool) : Reader where
  clock := clock
  rising := false
  fallen := none

def Reader.next (reader : Reader) (line : Line) : Reader where
  clock := line.clock
  rising := !reader.clock && line.clock
  fallen := if reader.clock && !line.clock then some line.data else none

def Reader.run (reader : Reader) (lines : List Line) : Reader := lines.foldl Reader.next reader

/-- The data at every falling edge of the clock. -/
def Reader.bits (reader : Reader) : List Line → List Bool
  | [] => []
  | line :: lines => (reader.next line).fallen.toList ++ (reader.next line).bits lines

/-- A sample that a slow reader can follow: a clock that rose stays up, and
data stay what they were when the clock fell. -/
def Reader.Accepts (reader : Reader) (line : Line) : Prop :=
  (reader.rising = true → line.clock = true) ∧ ∀ bit ∈ reader.fallen, line.data = bit

/-- Every level of the clock is held for two samples when it is high, and the
data for one sample more when it falls. -/
def Reader.Readable (reader : Reader) : List Line → Prop
  | [] => True
  | line :: lines => reader.Accepts line ∧ (reader.next line).Readable lines

instance (reader : Reader) (line : Line) : Decidable (reader.Accepts line) :=
  inferInstanceAs (Decidable (_ ∧ ∀ bit ∈ reader.fallen, line.data = bit))

instance Reader.decidableReadable : (reader : Reader) → (lines : List Line) → Decidable (reader.Readable lines)
  | _, [] => isTrue trivial
  | reader, line :: lines =>
    have := decidableReadable (reader.next line) lines
    inferInstanceAs (Decidable (reader.Accepts line ∧ (reader.next line).Readable lines))

@[simp]
theorem Reader.run_nil (reader : Reader) : reader.run [] = reader := rfl

@[simp]
theorem Reader.run_cons (reader : Reader) (line : Line) (lines : List Line) :
    reader.run (line :: lines) = (reader.next line).run lines := rfl

theorem Reader.fallen_next (reader : Reader) (line : Line) :
    (reader.next line).fallen.toList = if reader.clock && !line.clock then [line.data] else [] := by
  unfold next
  dsimp only
  split <;> rfl

theorem Reader.run_append (reader : Reader) (lines others : List Line) :
    reader.run (lines ++ others) = (reader.run lines).run others := List.foldl_append

theorem Reader.bits_append (reader : Reader) (lines others : List Line) :
    reader.bits (lines ++ others) = reader.bits lines ++ (reader.run lines).bits others := by
  induction lines generalizing reader with
  | nil => rfl
  | cons line lines ih => simp only [List.cons_append, bits, run_cons, ih, List.append_assoc]

theorem Reader.readable_append {reader : Reader} {lines others : List Line} :
    reader.Readable (lines ++ others) ↔ reader.Readable lines ∧ (reader.run lines).Readable others := by
  induction lines generalizing reader with
  | nil => simp [Readable]
  | cons line lines ih => simp only [List.cons_append, Readable, run_cons, ih, and_assoc]

/-- Which data a reader sees depends on the level of the clock only. -/
theorem Reader.bits_congr {reader other : Reader} (hclock : reader.clock = other.clock) (lines : List Line) :
    reader.bits lines = other.bits lines := by
  cases lines with
  | nil => rfl
  | cons line lines =>
    have hnext : reader.next line = other.next line := by simp only [next, hclock]
    simp only [bits, hnext]

/-- A steady clock is followed by whatever may follow a change of it. -/
theorem Reader.Readable.steady {reader : Reader} {lines : List Line} (h : reader.Readable lines) :
    (Reader.steady reader.clock).Readable lines := by
  cases lines with
  | nil => trivial
  | cons line lines => exact ⟨⟨Bool.noConfusion, fun _ hbit => by cases hbit⟩, h.2⟩

theorem Reader.next_next (reader : Reader) (line : Line) :
    (reader.next line).next line = Reader.steady line.clock := by
  cases hclock : line.clock <;> simp [next, Reader.steady, hclock]

/-- A waveform whose samples are all held, each for one cycle and the given
number of cycles more. -/
def stretch : List (Line × Nat) → List Line
  | [] => []
  | (line, more) :: held => line :: (List.replicate more line ++ stretch held)

theorem Reader.run_replicate (line : Line) (more : Nat) :
    (Reader.steady line.clock).run (List.replicate more line) = Reader.steady line.clock ∧
      (Reader.steady line.clock).bits (List.replicate more line) = [] ∧
      (Reader.steady line.clock).Readable (List.replicate more line) := by
  have hnext : (Reader.steady line.clock).next line = Reader.steady line.clock := by
    cases hclock : line.clock <;> simp [next, Reader.steady, hclock]
  induction more with
  | zero => exact ⟨rfl, rfl, trivial⟩
  | succ more ih =>
    rw [List.replicate_succ, run_cons, bits, Readable, hnext]
    exact ⟨ih.1, ih.2.1, ⟨Bool.noConfusion, fun _ hbit => by cases hbit⟩, ih.2.2⟩

/-- How long the samples are held changes neither what a reader sees nor whether
it can follow. -/
theorem Reader.bits_stretch (reader : Reader) (held : List (Line × Nat)) :
    reader.bits (stretch held) = reader.bits (held.map Prod.fst) := by
  induction held generalizing reader with
  | nil => rfl
  | cons sample held ih =>
    obtain ⟨line, more⟩ := sample
    rw [stretch, List.map_cons, bits, bits, bits_append]
    cases more with
    | zero => rw [List.replicate_zero, bits, run_nil, List.nil_append, ih]
    | succ more =>
      obtain ⟨hrun, hbits, -⟩ := Reader.run_replicate line more
      rw [List.replicate_succ, run_cons, bits, next_next, hrun, hbits, ih]
      rw [show (Reader.steady line.clock).fallen.toList = [] from rfl, List.nil_append, List.nil_append]
      rw [bits_congr (show (Reader.steady line.clock).clock = (reader.next line).clock from rfl)]

theorem Reader.Readable.stretch {reader : Reader} {held : List (Line × Nat)}
    (h : reader.Readable (held.map Prod.fst)) : reader.Readable (stretch held) := by
  induction held generalizing reader with
  | nil => trivial
  | cons sample held ih =>
    obtain ⟨line, more⟩ := sample
    obtain ⟨haccepts, hrest⟩ := h
    rw [Signals.stretch, Readable, readable_append]
    refine ⟨haccepts, ?_⟩
    cases more with
    | zero => exact ⟨trivial, ih hrest⟩
    | succ more =>
      obtain ⟨hrun, -, hheld⟩ := Reader.run_replicate line more
      rw [List.replicate_succ, run_cons, Readable, next_next, hrun]
      refine ⟨⟨⟨?_, ?_⟩, hheld⟩, ih hrest.steady⟩
      · intro hrose
        simp only [next, Bool.and_eq_true] at hrose
        exact hrose.2
      · intro bit hbit
        simp only [next, Option.mem_def] at hbit
        split at hbit
        · exact Option.some.inj hbit
        · cases hbit

end Signals
