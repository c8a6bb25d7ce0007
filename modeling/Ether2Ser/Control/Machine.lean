import Mathlib.Data.List.Induction
import Mathlib.Order.Bounds.Basic

namespace Machine

variable {σ τ ι ω : Type}

/-- The answers of a machine to a sequence of calls and the state behind them. -/
def run (step : σ → ι → ω × σ) : σ → List ι → List ω × σ
  | state, [] => ([], state)
  | state, call :: calls =>
    let (answers, last) := run step (step state call).2 calls
    ((step state call).1 :: answers, last)

def answers (step : σ → ι → ω × σ) (state : σ) (calls : List ι) : List ω := (run step state calls).1

def final (step : σ → ι → ω × σ) (state : σ) (calls : List ι) : σ := (run step state calls).2

@[simp]
theorem answers_nil (step : σ → ι → ω × σ) (state : σ) : answers step state [] = [] := rfl

@[simp]
theorem final_nil (step : σ → ι → ω × σ) (state : σ) : final step state [] = state := rfl

theorem answers_cons (step : σ → ι → ω × σ) (state : σ) (call : ι) (calls : List ι) :
    answers step state (call :: calls) = (step state call).1 :: answers step (step state call).2 calls := rfl

theorem final_cons (step : σ → ι → ω × σ) (state : σ) (call : ι) (calls : List ι) :
    final step state (call :: calls) = final step (step state call).2 calls := rfl

theorem final_concat (step : σ → ι → ω × σ) (state : σ) (calls : List ι) (call : ι) :
    final step state (calls ++ [call]) = (step (final step state calls) call).2 := by
  induction calls generalizing state with
  | nil => rfl
  | cons first calls ih =>
    rw [List.cons_append, final_cons, ih]
    rfl

/-- The values that a measure takes behind the first calls of a sequence. -/
def reached (step : σ → ι → ω × σ) (measure : σ → Nat) (state : σ) (calls : List ι) : Set Nat :=
  {value | ∃ earlier, earlier <+: calls ∧ measure (final step state earlier) = value}

theorem reached_concat (step : σ → ι → ω × σ) (measure : σ → Nat) (state : σ) (calls : List ι) (call : ι) :
    reached step measure state (calls ++ [call]) =
      insert (measure (final step state (calls ++ [call]))) (reached step measure state calls) := by
  ext value
  constructor
  · rintro ⟨earlier, hearlier, rfl⟩
    obtain rfl | hbefore := List.prefix_concat_iff.mp hearlier
    · exact .inl rfl
    · exact .inr ⟨earlier, hbefore, rfl⟩
  · rintro (rfl | ⟨earlier, hearlier, rfl⟩)
    · exact ⟨_, List.prefix_rfl, rfl⟩
    · exact ⟨earlier, hearlier.trans (List.prefix_append ..), rfl⟩

/-- A field that every call raises to the measure, where this is larger, is the
largest value of the measure so far. -/
theorem isGreatest_reached {step : σ → ι → ω × σ} (measure peak : σ → Nat) {state : σ}
    (hstart : peak state = measure state)
    (hstep : ∀ state call, measure state ≤ peak state →
      peak (step state call).2 = max (measure (step state call).2) (peak state)) (calls : List ι) :
    IsGreatest (reached step measure state calls) (peak (final step state calls)) := by
  induction calls using List.reverseRecOn with
  | nil =>
    refine ⟨⟨[], List.prefix_rfl, hstart.symm⟩, ?_⟩
    rintro value ⟨earlier, hearlier, rfl⟩
    rw [List.prefix_nil.mp hearlier]
    exact hstart.ge
  | append_singleton calls call ih =>
    have hle := ih.2 ⟨calls, List.prefix_rfl, rfl⟩
    rw [reached_concat, final_concat, hstep _ call hle]
    exact ih.insert _

/-- One machine simulates another through a relation of their states. -/
structure Simulates (step : σ → ι → ω × σ) (spec : τ → ι → ω × τ) (R : σ → τ → Prop) : Prop where
  answer_eq : ∀ {state model}, R state model → ∀ call, (step state call).1 = (spec model call).1
  preserves : ∀ {state model}, R state model → ∀ call, R (step state call).2 (spec model call).2

variable {step : σ → ι → ω × σ} {spec : τ → ι → ω × τ} {R : σ → τ → Prop}

theorem Simulates.answers_eq (h : Simulates step spec R) {state : σ} {model : τ} (hstart : R state model)
    (calls : List ι) : answers step state calls = answers spec model calls := by
  induction calls generalizing state model with
  | nil => rfl
  | cons call calls ih => rw [answers_cons, answers_cons, h.answer_eq hstart call, ih (h.preserves hstart call)]

theorem Simulates.final (h : Simulates step spec R) {state : σ} {model : τ} (hstart : R state model)
    (calls : List ι) : R (final step state calls) (final spec model calls) := by
  induction calls generalizing state model with
  | nil => exact hstart
  | cons call calls ih => exact ih (h.preserves hstart call)

theorem Simulates.reached_eq (h : Simulates step spec R) {measure : σ → Nat} {measure' : τ → Nat}
    (hmeasure : ∀ {state model}, R state model → measure state = measure' model) {state : σ} {model : τ}
    (hstart : R state model) (calls : List ι) :
    reached step measure state calls = reached spec measure' model calls := by
  unfold reached
  simp only [hmeasure (h.final hstart _)]

end Machine
