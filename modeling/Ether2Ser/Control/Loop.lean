import Mathlib.Data.List.Basic

namespace Loop

variable {σ ρ : Type}

/-- At most `turns` turns of a loop whose body either goes on with a new state
or leaves with a result. -/
def iterate (body : σ → σ ⊕ ρ) : Nat → σ → Option ρ
  | 0, _ => none
  | turns + 1, state =>
    match body state with
    | .inl next => iterate body turns next
    | .inr result => some result

/-- The states in which the first `turns` turns of a loop begin. -/
def visited (body : σ → σ ⊕ ρ) : Nat → σ → List σ
  | 0, _ => []
  | turns + 1, state =>
    match body state with
    | .inl next => state :: visited body turns next
    | .inr _ => [state]

/-- A loop together with a variant that every further turn lowers. -/
structure Terminating (σ ρ : Type) where
  body : σ → σ ⊕ ρ
  variant : σ → Nat
  decreases : ∀ state next, body state = .inl next → variant next < variant state

theorem iterate_isSome (loop : Terminating σ ρ) {turns : Nat} {state : σ} (hturns : loop.variant state < turns) :
    (iterate loop.body turns state).isSome := by
  induction turns generalizing state with
  | zero => omega
  | succ turns ih =>
    rw [iterate]
    cases hbody : loop.body state with
    | inl next =>
      have hless := loop.decreases state next hbody
      exact ih (by omega)
    | inr result => rfl

/-- The result of a terminating loop. -/
def Terminating.run (loop : Terminating σ ρ) (state : σ) : ρ :=
  (iterate loop.body (loop.variant state + 1) state).get (iterate_isSome loop (Nat.lt_succ_self _))

/-- The variant bounds the turns that reach the result. -/
theorem Terminating.iterate_eq_run (loop : Terminating σ ρ) (state : σ) :
    iterate loop.body (loop.variant state + 1) state = some (loop.run state) := (Option.some_get _).symm

/-- The states in which the turns of a terminating loop begin. -/
def Terminating.turns (loop : Terminating σ ρ) (state : σ) : List σ :=
  visited loop.body (loop.variant state + 1) state

/-- Turns that the variant does not need change nothing. -/
theorem iterate_eq_of_lt (loop : Terminating σ ρ) {first second : Nat} {state : σ}
    (hfirst : loop.variant state < first) (hsecond : loop.variant state < second) :
    iterate loop.body first state = iterate loop.body second state := by
  induction first generalizing second state with
  | zero => omega
  | succ first ih =>
    obtain ⟨second, rfl⟩ : ∃ n, second = n + 1 := ⟨second - 1, by omega⟩
    simp only [iterate]
    cases hbody : loop.body state with
    | inl next =>
      have hless := loop.decreases state next hbody
      exact ih (by omega) (by omega)
    | inr result => rfl

theorem visited_eq_of_lt (loop : Terminating σ ρ) {first second : Nat} {state : σ}
    (hfirst : loop.variant state < first) (hsecond : loop.variant state < second) :
    visited loop.body first state = visited loop.body second state := by
  induction first generalizing second state with
  | zero => omega
  | succ first ih =>
    obtain ⟨second, rfl⟩ : ∃ n, second = n + 1 := ⟨second - 1, by omega⟩
    simp only [visited]
    cases hbody : loop.body state with
    | inl next =>
      have hless := loop.decreases state next hbody
      simp only [ih (show loop.variant next < first by omega) (show loop.variant next < second by omega)]
    | inr result => rfl

theorem Terminating.run_of_inr {loop : Terminating σ ρ} {state : σ} {result : ρ}
    (hbody : loop.body state = .inr result) : loop.run state = result := by
  simp [run, iterate, hbody]

theorem Terminating.run_of_inl {loop : Terminating σ ρ} {state next : σ} (hbody : loop.body state = .inl next) :
    loop.run state = loop.run next := by
  have hless := loop.decreases state next hbody
  apply Option.some_inj.mp
  simp only [run, Option.some_get]
  rw [iterate, hbody]
  exact iterate_eq_of_lt loop (by omega) (by omega)

theorem Terminating.turns_of_inr {loop : Terminating σ ρ} {state : σ} {result : ρ}
    (hbody : loop.body state = .inr result) : loop.turns state = [state] := by
  simp [turns, visited, hbody]

theorem Terminating.turns_of_inl {loop : Terminating σ ρ} {state next : σ} (hbody : loop.body state = .inl next) :
    loop.turns state = state :: loop.turns next := by
  have hless := loop.decreases state next hbody
  rw [turns, visited, hbody]
  exact congrArg (state :: ·) (visited_eq_of_lt loop (by omega) (by omega))

theorem Terminating.mem_turns_self (loop : Terminating σ ρ) (state : σ) : state ∈ loop.turns state := by
  cases hbody : loop.body state with
  | inl next =>
    rw [turns_of_inl hbody]
    exact List.mem_cons_self
  | inr result =>
    rw [turns_of_inr hbody]
    exact List.mem_cons_self

/-- Induction along the turns of a terminating loop. -/
theorem Terminating.induction (loop : Terminating σ ρ) {motive : σ → Prop}
    (leave : ∀ state result, loop.body state = .inr result → motive state)
    (turn : ∀ state next, loop.body state = .inl next → motive next → motive state) (state : σ) : motive state := by
  induction hn : loop.variant state using Nat.strongRecOn generalizing state with
  | ind n ih =>
    cases hbody : loop.body state with
    | inl next => exact turn state next hbody (ih _ (hn ▸ loop.decreases state next hbody) next rfl)
    | inr result => exact leave state result hbody

/-- Invariant rule: a loop leaves from a state that satisfies its invariant. -/
theorem Terminating.exists_exit (loop : Terminating σ ρ) (invariant : σ → Prop)
    (hstep : ∀ state next, invariant state → loop.body state = .inl next → invariant next) {state : σ}
    (hinit : invariant state) : ∃ last, invariant last ∧ loop.body last = .inr (loop.run state) := by
  revert hinit
  induction state using Terminating.induction loop with
  | leave state result hbody => exact fun hinit => ⟨state, hinit, by rw [run_of_inr hbody, hbody]⟩
  | turn state next hbody ih =>
    intro hinit
    rw [run_of_inl hbody]
    exact ih (hstep state next hinit hbody)

/-- Output rule: a loop whose turns emit the next element of a list, and leave
once they emit none, emits a first part of the list. -/
theorem Terminating.exists_emitted {α β : Type} (loop : Terminating σ ρ) (output : α → β) (ahead : σ → List α → Prop)
    (left : ρ → List α → Prop) (emitted : σ → List β) (result : ρ → List β) (state : σ)
    (hbody : ∀ turn ∈ loop.turns state, ∀ xs, ahead turn xs →
      (∃ last, loop.body turn = .inr last ∧ left last xs ∧ result last = emitted turn) ∨
      ∃ next x rest, loop.body turn = .inl next ∧ xs = x :: rest ∧ ahead next rest ∧
        emitted next = emitted turn ++ [output x]) {xs : List α} (h : ahead state xs) :
    ∃ taken rest, xs = taken ++ rest ∧ left (loop.run state) rest ∧
      result (loop.run state) = emitted state ++ taken.map output := by
  induction state using Terminating.induction loop generalizing xs with
  | leave state last hleave =>
    rw [run_of_inr hleave]
    rcases hbody state (mem_turns_self loop state) xs h with ⟨_, hturn, hleft, hout⟩ | ⟨_, _, _, hturn, -⟩
    · rw [hleave, Sum.inr.injEq] at hturn
      subst hturn
      exact ⟨[], xs, rfl, hleft, by rw [hout, List.map_nil, List.append_nil]⟩
    · rw [hleave] at hturn
      cases hturn
  | turn state next hturn ih =>
    rw [run_of_inl hturn]
    have hafter := fun turn hmem => hbody turn (turns_of_inl hturn ▸ List.mem_cons_of_mem _ hmem)
    rcases hbody state (mem_turns_self loop state) xs h with ⟨_, hleave, -⟩ | ⟨_, x, behind, hnext, hxs, hahead, hout⟩
    · rw [hturn] at hleave
      cases hleave
    · rw [hturn, Sum.inl.injEq] at hnext
      subst hnext
      obtain ⟨taken, rest, hbehind, hleft, hrun⟩ := ih hafter hahead
      refine ⟨x :: taken, rest, by rw [hxs, hbehind]; rfl, hleft, ?_⟩
      rw [hrun, hout, List.append_assoc]
      rfl

/-- Simulation rule: loops whose bodies keep their states related, and leave
together, end in related results. -/
theorem Terminating.run_related {σ' ρ' : Type} {loop : Terminating σ ρ} {loop' : Terminating σ' ρ'}
    {related : σ → σ' → Prop} {results : ρ → ρ' → Prop}
    (hbody : ∀ state state', related state state' → Sum.LiftRel related results (loop.body state) (loop'.body state'))
    {state : σ} {state' : σ'} (h : related state state') : results (loop.run state) (loop'.run state') := by
  induction state using Terminating.induction loop generalizing state' with
  | leave state result hleave =>
    have hlift := hbody state state' h
    cases hbody' : loop'.body state' with
    | inl next' =>
      rw [hleave, hbody'] at hlift
      cases hlift
    | inr result' =>
      rw [hleave, hbody'] at hlift
      rw [run_of_inr hleave, run_of_inr hbody']
      exact Sum.liftRel_inr_inr.mp hlift
  | turn state next hturn ih =>
    have hlift := hbody state state' h
    cases hbody' : loop'.body state' with
    | inl next' =>
      rw [hturn, hbody'] at hlift
      rw [run_of_inl hturn, run_of_inl hbody']
      exact ih (Sum.liftRel_inl_inl.mp hlift)
    | inr result' =>
      rw [hturn, hbody'] at hlift
      cases hlift

/-- Invariant rule for runs whose steps may not return. -/
theorem foldlM_induction {α : Type} {step : σ → α → Option σ} {invariant : σ → Prop} {state last : σ}
    {inputs : List α} (hrun : inputs.foldlM step state = some last) (hinit : invariant state)
    (hstep : ∀ state input next, invariant state → step state input = some next → invariant next) :
    invariant last := by
  induction inputs generalizing state with
  | nil =>
    cases hrun
    exact hinit
  | cons input inputs ih =>
    rw [List.foldlM_cons] at hrun
    obtain ⟨next, hnext, hrest⟩ := Option.bind_eq_some_iff.mp hrun
    exact ih hrest (hstep state input next hinit hnext)

/-- The rule with an invariant that speaks of the inputs so far. -/
theorem foldlM_induction_inputs {α : Type} {step : σ → α → Option σ} {invariant : List α → σ → Prop} {state last : σ}
    {inputs : List α} (hrun : inputs.foldlM step state = some last) (hinit : invariant [] state)
    (hstep : ∀ past state input next, invariant past state → step state input = some next →
      invariant (past ++ [input]) next) : invariant inputs last := by
  induction inputs generalizing invariant state with
  | nil =>
    cases hrun
    exact hinit
  | cons input inputs ih =>
    rw [List.foldlM_cons] at hrun
    obtain ⟨next, hnext, hrest⟩ := Option.bind_eq_some_iff.mp hrun
    exact @ih (fun past => invariant (input :: past)) next hrest (hstep [] state input next hinit hnext)
      fun past state later next' h hstep' => hstep (input :: past) state later next' h hstep'

end Loop
