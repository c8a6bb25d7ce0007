import Ether2Ser.Control.Loop

/-- A value together with the memory accesses that computing it makes. -/
structure Traced (ε α : Type) where
  value : α
  accesses : List ε

namespace Traced

variable {ε α β γ : Type}

instance : Monad (Traced ε) where
  pure value := ⟨value, []⟩
  bind traced next := ⟨(next traced.value).value, traced.accesses ++ (next traced.value).accesses⟩

/-- Make one access. -/
def access (e : ε) : Traced ε Unit := ⟨(), [e]⟩

/-- Every access made satisfies `safe`. -/
def Safe (safe : ε → Prop) (traced : Traced ε α) : Prop := ∀ e ∈ traced.accesses, safe e

@[simp]
theorem value_pure (value : α) : (pure value : Traced ε α).value = value := rfl

@[simp]
theorem value_bind (traced : Traced ε α) (next : α → Traced ε β) :
    (traced >>= next).value = (next traced.value).value := rfl

@[simp]
theorem value_ite (p : Prop) [Decidable p] (a b : Traced ε α) :
    (if p then a else b).value = if p then a.value else b.value := apply_ite Traced.value p a b

variable {safe : ε → Prop}

theorem safe_pure (value : α) : Safe safe (pure value : Traced ε α) := by
  intro e he
  cases he

theorem safe_access {e : ε} (he : safe e) : Safe safe (access e) := by
  intro e' he'
  rw [List.mem_singleton.mp he']
  exact he

theorem Safe.bind {traced : Traced ε α} {next : α → Traced ε β} (htraced : Safe safe traced)
    (hnext : Safe safe (next traced.value)) : Safe safe (traced >>= next) := by
  intro e he
  obtain he | he := List.mem_append.mp he
  · exact htraced e he
  · exact hnext e he

/-- Try the elements of a list in turn until one gives a result. -/
def findSome? (f : α → Traced ε (Option β)) : List α → Traced ε (Option β)
  | [] => pure none
  | a :: as => do
    match ← f a with
    | some b => pure (some b)
    | none => findSome? f as

theorem value_findSome? (f : α → Traced ε (Option β)) (as : List α) :
    (findSome? f as).value = as.findSome? fun a => (f a).value := by
  induction as with
  | nil => rfl
  | cons a as ih =>
    rw [findSome?, value_bind, List.findSome?_cons]
    cases (f a).value with
    | none => exact ih
    | some b => rfl

theorem safe_findSome? {f : α → Traced ε (Option β)} {as : List α} (hf : ∀ a ∈ as, Safe safe (f a)) :
    Safe safe (findSome? f as) := by
  induction as with
  | nil => exact safe_pure none
  | cons a as ih =>
    refine Safe.bind (hf a (by simp)) ?_
    cases (f a).value with
    | none => exact ih fun b hb => hf b (by simp [hb])
    | some b => exact safe_pure (some b)

theorem value_foldlM (f : β → α → Traced ε β) (as : List α) (b : β) :
    (as.foldlM f b).value = as.foldl (fun b a => (f b a).value) b := by
  induction as generalizing b with
  | nil => rfl
  | cons a as ih => rw [List.foldlM_cons, value_bind, ih, List.foldl_cons]

theorem safe_foldlM {f : β → α → Traced ε β} {as : List α} (hf : ∀ b, ∀ a ∈ as, Safe safe (f b a)) (b : β) :
    Safe safe (as.foldlM f b) := by
  induction as generalizing b with
  | nil => exact safe_pure b
  | cons a as ih =>
    rw [List.foldlM_cons]
    exact Safe.bind (hf b a (by simp)) (ih (fun b c hc => hf b c (by simp [hc])) _)

/-- At most `turns` turns of a loop whose body makes accesses. -/
def iterate (body : α → Traced ε (α ⊕ β)) : Nat → α → Traced ε (Option β)
  | 0, _ => pure none
  | turns + 1, state => do
    match ← body state with
    | .inl next => iterate body turns next
    | .inr result => pure (some result)

theorem value_iterate (body : α → Traced ε (α ⊕ β)) (turns : Nat) (state : α) :
    (iterate body turns state).value = Loop.iterate (fun state => (body state).value) turns state := by
  induction turns generalizing state with
  | zero => rfl
  | succ turns ih =>
    rw [iterate, value_bind, Loop.iterate]
    cases (body state).value with
    | inl next => exact ih next
    | inr result => rfl

/-- The accesses of a loop are safe if those of each turn are, in the states
that satisfy its invariant. -/
theorem safe_iterate {body : α → Traced ε (α ⊕ β)} {invariant : α → Prop}
    (hbody : ∀ state, invariant state → Safe safe (body state))
    (hstep : ∀ state next, invariant state → (body state).value = .inl next → invariant next) (turns : Nat) {state : α}
    (hstate : invariant state) : Safe safe (iterate body turns state) := by
  induction turns generalizing state with
  | zero => exact safe_pure none
  | succ turns ih =>
    refine Safe.bind (hbody state hstate) ?_
    cases hvalue : (body state).value with
    | inl next => exact ih (hstep state next hstate hvalue)
    | inr result => exact safe_pure (some result)

section

@[simp]
theorem value_run_pure (a : α) : (pure a : OptionT (Traced ε) α).run.value = some a := rfl

@[simp]
theorem value_run_failure : (failure : OptionT (Traced ε) α).run.value = none := rfl

@[simp]
theorem value_run_bind (m : OptionT (Traced ε) α) (next : α → OptionT (Traced ε) β) :
    (m >>= next).run.value = m.run.value.bind fun a => (next a).run.value := by
  rw [OptionT.run_bind, Option.elimM, value_bind]
  cases m.run.value with
  | none => rfl
  | some a => rfl

@[simp]
theorem value_run_ite (p : Prop) [Decidable p] (a b : OptionT (Traced ε) α) :
    (if p then a else b).run.value = if p then a.run.value else b.run.value := by
  split
  · rfl
  · rfl

theorem value_run_foldlM (f : β → α → OptionT (Traced ε) β) (as : List α) (b : β) :
    (as.foldlM f b).run.value = as.foldlM (fun b a => (f b a).run.value) b := by
  induction as generalizing b with
  | nil => rfl
  | cons a as ih =>
    rw [List.foldlM_cons, List.foldlM_cons, value_run_bind]
    simp only [ih]
    rfl

/-- All accesses of a computation that may fail are safe, and what it returns
satisfies `post`. -/
structure Ensures (safe : ε → Prop) (m : OptionT (Traced ε) α) (post : α → Prop) : Prop where
  accesses : Safe safe m.run
  result : ∀ a, m.run.value = some a → post a

theorem ensures_pure {post : α → Prop} {a : α} (ha : post a) :
    Ensures safe (pure a : OptionT (Traced ε) α) post where
  accesses := safe_pure _
  result := by
    intro b hb
    cases hb
    exact ha

theorem ensures_failure {post : α → Prop} : Ensures safe (failure : OptionT (Traced ε) α) post where
  accesses := safe_pure _
  result := by
    intro b hb
    cases hb

theorem ensures_access {e : ε} (he : safe e) : Ensures safe (OptionT.lift (access e)) (fun _ => True) where
  accesses := safe_access he
  result := fun _ _ => trivial

theorem Ensures.bind {m : OptionT (Traced ε) α} {next : α → OptionT (Traced ε) β} {mid : α → Prop} {post : β → Prop}
    (hm : Ensures safe m mid) (hnext : ∀ a, mid a → Ensures safe (next a) post) : Ensures safe (m >>= next) post where
  accesses := by
    rw [OptionT.run_bind]
    refine hm.accesses.bind ?_
    cases hvalue : m.run.value with
    | none => exact safe_pure _
    | some a => exact (hnext a (hm.result a hvalue)).accesses
  result := by
    intro b hb
    rw [value_run_bind] at hb
    obtain ⟨a, ha, hb⟩ := Option.bind_eq_some_iff.mp hb
    exact (hnext a (hm.result a ha)).result b hb

/-- Invariant rule for a loop over a list. -/
theorem ensures_foldlM {f : β → α → OptionT (Traced ε) β} {as : List α} {invariant : β → Prop}
    (hf : ∀ b a, invariant b → Ensures safe (f b a) invariant) {b : β} (hb : invariant b) :
    Ensures safe (as.foldlM f b) invariant := by
  induction as generalizing b with
  | nil => exact ensures_pure hb
  | cons a as ih =>
    rw [List.foldlM_cons]
    exact (hf b a hb).bind fun b' hb' => ih hb'

end

end Traced
