import Mathlib.Data.UInt

namespace Checked

/-- What can go wrong in unsigned arithmetic on 32 bits. -/
inductive Fault where
  | overflow
  | division_by_zero
  deriving DecidableEq, Repr

def add (a b : UInt32) : Except Fault UInt32 :=
  if a.toNat + b.toNat < UInt32.size then .ok (a + b) else .error .overflow

def sub (a b : UInt32) : Except Fault UInt32 := if b.toNat ≤ a.toNat then .ok (a - b) else .error .overflow

def mul (a b : UInt32) : Except Fault UInt32 :=
  if a.toNat * b.toNat < UInt32.size then .ok (a * b) else .error .overflow

def div (a b : UInt32) : Except Fault UInt32 := if b = 0 then .error .division_by_zero else .ok (a / b)

/-- A chain of checked operations succeeds with what its operations succeed with. -/
theorem bind_eq_ok {α β : Type} {x : Except Fault α} {f : α → Except Fault β} {b : β} :
    (x >>= f) = .ok b ↔ ∃ a, x = .ok a ∧ f a = .ok b := by
  cases x with
  | error fault => exact ⟨nofun, nofun⟩
  | ok a => exact ⟨fun h => ⟨a, rfl, h⟩, fun ⟨_, rfl, h⟩ => h⟩

section

variable {a b c : UInt32}

theorem add_eq_ok : add a b = .ok c ↔ a.toNat + b.toNat < UInt32.size ∧ a + b = c := by
  unfold add
  split <;> simp_all

theorem sub_eq_ok : sub a b = .ok c ↔ b.toNat ≤ a.toNat ∧ a - b = c := by
  unfold sub
  split <;> simp_all

theorem mul_eq_ok : mul a b = .ok c ↔ a.toNat * b.toNat < UInt32.size ∧ a * b = c := by
  unfold mul
  split <;> simp_all

theorem div_eq_ok : div a b = .ok c ↔ b ≠ 0 ∧ a / b = c := by
  unfold div
  split <;> simp_all

end

end Checked
