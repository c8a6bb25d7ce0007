import Ether2Ser.Signals.Clocked

namespace Signals

/-- The level of a clock and the number of samples for which it has had it. -/
structure Pace where
  level : Bool
  samples : Nat
  deriving DecidableEq, Repr

def Pace.next (pace : Pace) (level : Bool) : Pace where
  level := level
  samples := if level = pace.level then pace.samples + 1 else 1

def Pace.run (pace : Pace) (levels : List Bool) : Pace := levels.foldl Pace.next pace

/-- Every level lasts for a number of samples before the next one. -/
def Pace.Lasts (least : Nat) (pace : Pace) : List Bool → Prop
  | [] => True
  | level :: levels => (level ≠ pace.level → least ≤ pace.samples) ∧ (pace.next level).Lasts least levels

instance Pace.decidableLasts (least : Nat) : (pace : Pace) → (levels : List Bool) → Decidable (pace.Lasts least levels)
  | _, [] => isTrue trivial
  | pace, level :: levels =>
    have := decidableLasts least (pace.next level) levels
    inferInstanceAs (Decidable ((level ≠ pace.level → least ≤ pace.samples) ∧ (pace.next level).Lasts least levels))

theorem Pace.run_append (pace : Pace) (levels others : List Bool) :
    pace.run (levels ++ others) = (pace.run levels).run others := List.foldl_append

theorem Pace.lasts_append {least : Nat} {pace : Pace} {levels others : List Bool} :
    pace.Lasts least (levels ++ others) ↔ pace.Lasts least levels ∧ (pace.run levels).Lasts least others := by
  induction levels generalizing pace with
  | nil => exact ⟨fun h => ⟨trivial, h⟩, fun h => h.2⟩
  | cons level levels ih =>
    rw [List.cons_append, Lasts, Lasts, ih, and_assoc]
    rfl

/-- The pace of a clock agrees with what a reader remembers of it. -/
structure Pace.Agrees (pace : Pace) (reader : Reader) : Prop where
  clock_eq : reader.clock = pace.level
  rising : reader.rising = true → pace = { level := true, samples := 1 }
  fallen : ∀ bit ∈ reader.fallen, pace.level = false

theorem Pace.Agrees.next {pace : Pace} {reader : Reader} (h : pace.Agrees reader) (line : Line) :
    (pace.next line.clock).Agrees (reader.next line) where
  clock_eq := rfl
  rising := by
    intro hrose
    simp only [Reader.next, h.clock_eq, Bool.and_eq_true, Bool.not_eq_true'] at hrose
    simp [Pace.next, hrose]
  fallen := by
    intro bit hbit
    simp only [Reader.next, Option.mem_def] at hbit
    split at hbit
    · rename_i hfell
      simp only [Bool.and_eq_true, Bool.not_eq_true'] at hfell
      exact hfell.2
    · cases hbit

/-- What is read of a line on which values are sent one after the other. Before
the first value it has a level at rest, and after certain numbers of values it may
be held for any time. -/
inductive Held {α : Type} (mayHold : Nat → Prop) (rest : α) : List α → List α → Prop where
  | start : Held mayHold rest [] []
  | next {sent levels : List α} (value : α) (h : Held mayHold rest sent levels) :
      Held mayHold rest (sent ++ [value]) (levels ++ [value])
  | hold {sent levels : List α} (hmay : mayHold sent.length) (h : Held mayHold rest sent levels) :
      Held mayHold rest sent (levels ++ [sent.getLastD rest])

end Signals
