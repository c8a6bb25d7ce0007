import Mathlib.Data.List.Basic
import Mathlib.Data.Nat.Basic

/-- A linear feedback shift register over GF(2). Its feedback polynomial is
given without the leading term. -/
structure Lfsr (w : Nat) where
  poly : BitVec w

namespace Lfsr

variable {w : Nat}

/-- One shift: the top bit falls out and is fed back. -/
def shift (lfsr : Lfsr w) (r : BitVec w) : BitVec w := if r.msb then (r <<< 1) ^^^ lfsr.poly else r <<< 1

def shifts (lfsr : Lfsr w) : Nat → BitVec w → BitVec w
  | 0, r => r
  | n + 1, r => lfsr.shifts n (lfsr.shift r)

/-- Add a symbol to the register and shift it out at the top. -/
def absorb (lfsr : Lfsr w) (n : Nat) (r symbol : BitVec w) : BitVec w := lfsr.shifts n (r ^^^ symbol)

/-- The register after a message. -/
def residue (lfsr : Lfsr w) (n : Nat) (r : BitVec w) (message : List (BitVec w)) : BitVec w :=
  message.foldl (lfsr.absorb n) r

/-- The exclusive or of the lowest `n` bits. -/
def parityBelow (r : BitVec w) : Nat → Bool
  | 0 => false
  | n + 1 => (parityBelow r n) ^^ r.getLsbD n

/-- Whether the number of ones is odd. -/
def parity (r : BitVec w) : Bool := parityBelow r w

theorem xor_comm_four (a b c d : BitVec w) : (a ^^^ b) ^^^ (c ^^^ d) = (a ^^^ c) ^^^ (b ^^^ d) := by
  rw [BitVec.xor_assoc, ← BitVec.xor_assoc b, BitVec.xor_comm b c, BitVec.xor_assoc c, ← BitVec.xor_assoc]

theorem getLsbD_shiftLeft_one (r : BitVec w) {i : Nat} (hi : i + 1 < w) :
    (r <<< 1).getLsbD (i + 1) = r.getLsbD i := by
  simp only [BitVec.getLsbD_shiftLeft, hi, decide_true, Bool.true_and, Nat.not_lt.mpr (Nat.le_add_left 1 i),
    decide_false, Bool.not_false, Nat.add_sub_cancel]

theorem shift_xor (lfsr : Lfsr w) (r s : BitVec w) : lfsr.shift (r ^^^ s) = lfsr.shift r ^^^ lfsr.shift s := by
  have hshift : (r ^^^ s) <<< 1 = (r <<< 1) ^^^ (s <<< 1) := BitVec.shiftLeft_xor_distrib r s 1
  unfold shift
  rw [BitVec.msb_xor, hshift]
  cases r.msb with
  | false =>
    cases s.msb with
    | false => simp
    | true => simp [BitVec.xor_assoc]
  | true =>
    cases s.msb with
    | false =>
      simp only [Bool.xor_false, if_true, Bool.false_eq_true, if_false]
      rw [BitVec.xor_assoc, BitVec.xor_assoc, BitVec.xor_comm lfsr.poly]
    | true =>
      simp only [Bool.xor_true, Bool.not_true, Bool.false_eq_true, if_false, if_true]
      rw [xor_comm_four, BitVec.xor_self, BitVec.xor_zero]

theorem shifts_xor (lfsr : Lfsr w) (n : Nat) (r s : BitVec w) :
    lfsr.shifts n (r ^^^ s) = lfsr.shifts n r ^^^ lfsr.shifts n s := by
  induction n generalizing r s with
  | zero => rfl
  | succ n ih => rw [shifts, shifts, shifts, shift_xor, ih]

theorem shifts_add (lfsr : Lfsr w) (m n : Nat) (r : BitVec w) :
    lfsr.shifts (m + n) r = lfsr.shifts n (lfsr.shifts m r) := by
  induction m generalizing r with
  | zero => rw [Nat.zero_add, shifts]
  | succ m ih => rw [Nat.succ_add, shifts, ih, shifts]

@[simp]
theorem shifts_zero (lfsr : Lfsr w) (n : Nat) : lfsr.shifts n 0 = 0 := by
  have hself := lfsr.shifts_xor n 0 0
  rwa [BitVec.xor_self, BitVec.xor_self] at hself

/-- As long as only zeros fall out the register just moves up. -/
theorem shifts_of_high_zero (lfsr : Lfsr w) {n : Nat} {r : BitVec w} (hhigh : ∀ i, w ≤ i + n → r.getLsbD i = false) :
    lfsr.shifts n r = r <<< n := by
  induction n generalizing r with
  | zero => simp [shifts]
  | succ n ih =>
    have hmsb : r.msb = false := by
      rw [BitVec.msb_eq_getLsbD_last]
      exact hhigh (w - 1) (by omega)
    have hshift : lfsr.shift r = r <<< 1 := by simp [shift, hmsb]
    have hnext : ∀ i, w ≤ i + n → (r <<< 1).getLsbD i = false := by
      intro i hi
      rw [BitVec.getLsbD_shiftLeft, hhigh (i - 1) (by omega), Bool.and_false]
    rw [shifts, hshift, ih hnext, ← BitVec.shiftLeft_add, Nat.add_comm]

/-- A message with a difference changes the residue by that of the difference. -/
theorem residue_xor (lfsr : Lfsr w) (n : Nat) (r s : BitVec w) (xs ys : List (BitVec w))
    (hlength : xs.length = ys.length) :
    lfsr.residue n (r ^^^ s) (List.zipWith (· ^^^ ·) xs ys) = lfsr.residue n r xs ^^^ lfsr.residue n s ys := by
  induction xs generalizing r s ys with
  | nil =>
    obtain rfl : ys = [] := List.length_eq_zero_iff.mp hlength.symm
    rfl
  | cons x xs ih =>
    cases ys with
    | nil => cases hlength
    | cons y ys =>
      have habsorb : lfsr.absorb n (r ^^^ s) (x ^^^ y) = lfsr.absorb n r x ^^^ lfsr.absorb n s y := by
        rw [absorb, xor_comm_four, shifts_xor]
        rfl
      have hrest := ih (lfsr.absorb n r x) (lfsr.absorb n s y) ys (Nat.succ.inj hlength)
      rw [← habsorb] at hrest
      exact hrest

/-- With an odd constant term the bit that falls out can be read off again. -/
theorem shift_injective {lfsr : Lfsr w} (hodd : lfsr.poly.getLsbD 0 = true) : Function.Injective lfsr.shift := by
  intro r s h
  have hpos : 0 < w := by
    by_contra hzero
    rw [BitVec.getLsbD_of_ge _ _ (by omega)] at hodd
    cases hodd
  have hlow : ∀ t : BitVec w, (lfsr.shift t).getLsbD 0 = t.msb := by
    intro t
    unfold shift
    cases t.msb with
    | false => simp
    | true => simp [hodd]
  have hmsb : r.msb = s.msb := by rw [← hlow, ← hlow, h]
  have hshift : r <<< 1 = s <<< 1 := by
    unfold shift at h
    rw [hmsb] at h
    cases hs : s.msb with
    | false => simpa [hs] using h
    | true =>
      simp only [hs, if_true] at h
      have hcancel := congrArg (· ^^^ lfsr.poly) h
      simpa [BitVec.xor_assoc] using hcancel
  apply BitVec.eq_of_getLsbD_eq
  intro i hi
  by_cases htop : i = w - 1
  · rw [BitVec.msb_eq_getLsbD_last, BitVec.msb_eq_getLsbD_last] at hmsb
    rw [htop, hmsb]
  · rw [← getLsbD_shiftLeft_one r (show i + 1 < w by omega), hshift, getLsbD_shiftLeft_one s (by omega)]

theorem shifts_injective {lfsr : Lfsr w} (hodd : lfsr.poly.getLsbD 0 = true) (n : Nat) :
    Function.Injective (lfsr.shifts n) := by
  induction n with
  | zero => exact fun r s h => h
  | succ n ih => exact fun r s h => shift_injective hodd (ih h)

theorem shifts_eq_zero_iff {lfsr : Lfsr w} (hodd : lfsr.poly.getLsbD 0 = true) {n : Nat} {r : BitVec w} :
    lfsr.shifts n r = 0 ↔ r = 0 := by
  rw [← (shifts_injective hodd n).eq_iff (a := r), shifts_zero]

/-- Zero symbols never clear the register. -/
theorem residue_replicate_zero_eq_zero_iff {lfsr : Lfsr w} (hodd : lfsr.poly.getLsbD 0 = true) {n count : Nat}
    {r : BitVec w} : lfsr.residue n r (List.replicate count 0) = 0 ↔ r = 0 := by
  induction count generalizing r with
  | zero => exact Iff.rfl
  | succ count ih =>
    rw [List.replicate_succ, residue, List.foldl_cons]
    refine ih.trans ?_
    have hzero : r ^^^ 0 = r := BitVec.xor_zero
    rw [absorb, hzero, shifts_eq_zero_iff hodd]

theorem parityBelow_xor (r s : BitVec w) (n : Nat) :
    parityBelow (r ^^^ s) n = ((parityBelow r n) ^^ (parityBelow s n)) := by
  induction n with
  | zero => rfl
  | succ n ih =>
    rw [parityBelow, parityBelow, parityBelow, ih, BitVec.getLsbD_xor]
    cases parityBelow r n <;> cases parityBelow s n <;> cases r.getLsbD n <;> cases s.getLsbD n <;> rfl

theorem parity_xor (r s : BitVec w) : parity (r ^^^ s) = ((parity r) ^^ (parity s)) := parityBelow_xor r s w

theorem parityBelow_shiftLeft (r : BitVec w) {n : Nat} (hn : n < w) :
    parityBelow (r <<< 1) (n + 1) = parityBelow r n := by
  induction n with
  | zero => simp [parityBelow]
  | succ n ih =>
    rw [parityBelow, ih (by omega), getLsbD_shiftLeft_one r hn, parityBelow]

/-- A polynomial with an even number of terms keeps the parity of the
register. -/
theorem parity_shift {lfsr : Lfsr w} (heven : parity lfsr.poly = true) (r : BitVec w) :
    parity (lfsr.shift r) = parity r := by
  cases w with
  | zero => cases heven
  | succ n =>
    have htop : parity r = ((parity (r <<< 1)) ^^ r.msb) := by
      rw [parity, parityBelow, parity, parityBelow_shiftLeft r (Nat.lt_succ_self n), BitVec.msb_eq_getLsbD_last]
      rfl
    rw [htop]
    unfold shift
    cases r.msb with
    | false => simp
    | true => simp [parity_xor, heven]

theorem parity_shifts {lfsr : Lfsr w} (heven : parity lfsr.poly = true) (n : Nat) (r : BitVec w) :
    parity (lfsr.shifts n r) = parity r := by
  induction n generalizing r with
  | zero => rfl
  | succ n ih => rw [shifts, ih, parity_shift heven]

/-- The residue has the parity of the message. -/
theorem parity_residue {lfsr : Lfsr w} (heven : parity lfsr.poly = true) (n : Nat) (r : BitVec w)
    (message : List (BitVec w)) :
    parity (lfsr.residue n r message) = message.foldl (fun odd symbol => odd ^^ parity symbol) (parity r) := by
  induction message generalizing r with
  | nil => rfl
  | cons symbol message ih =>
    have hrest := ih (lfsr.absorb n r symbol)
    rw [absorb, parity_shifts heven, parity_xor] at hrest
    exact hrest

end Lfsr
