import Mathlib.Data.List.Basic

namespace Bits

/-- Bit `i` of a byte, counted from the least significant one. -/
def bitAt (b : UInt8) (i : Nat) : Bool := b.toBitVec.getLsbD i

/-- Where the `i`th bit of a byte sits when the byte is serialised least or
most significant bit first. -/
def bitPos (lsbFirst : Bool) (i : Nat) : Nat := if lsbFirst then i else 7 - i

/-- The eight bits of a byte in serial order. -/
def byteBits (lsbFirst : Bool) (b : UInt8) : List Bool :=
  (List.range 8).map fun i => bitAt b (bitPos lsbFirst i)

/-- The bits of a byte string in serial order. -/
def bytesBits (lsbFirst : Bool) (bs : List UInt8) : List Bool := bs.flatMap (byteBits lsbFirst)

/-- The byte whose serial bits are the given ones, missing bits being zero. -/
def byteOfBits (lsbFirst : Bool) (bits : List Bool) : UInt8 :=
  ⟨BitVec.setWidth 8 (BitVec.ofBoolListLE ((List.range 8).map fun i => bits.getD (bitPos lsbFirst i) false))⟩

/-- Pack a bit string into bytes, padding the last one with zeros. -/
def packBits (lsbFirst : Bool) : List Bool → List UInt8
  | [] => []
  | b0 :: b1 :: b2 :: b3 :: b4 :: b5 :: b6 :: b7 :: rest =>
    byteOfBits lsbFirst [b0, b1, b2, b3, b4, b5, b6, b7] :: packBits lsbFirst rest
  | partialByte => [byteOfBits lsbFirst partialByte]

/-- The whole bytes of a bit string, an incomplete last byte being dropped. -/
def wholeBytes (lsbFirst : Bool) : List Bool → List UInt8
  | b0 :: b1 :: b2 :: b3 :: b4 :: b5 :: b6 :: b7 :: rest =>
    byteOfBits lsbFirst [b0, b1, b2, b3, b4, b5, b6, b7] :: wholeBytes lsbFirst rest
  | _ => []

/-- The bits of an incomplete last byte. -/
def partialBits (bits : List Bool) : List Bool := bits.drop (8 * (bits.length / 8))

/-- Number of zero bits that complete `n` bits to whole bytes. -/
def padLength (n : Nat) : Nat := (8 - n % 8) % 8

theorem eq_of_bitAt {a b : UInt8} (h : ∀ i < 8, bitAt a i = bitAt b i) : a = b := by
  apply UInt8.toBitVec_inj.mp
  exact BitVec.eq_of_getLsbD_eq h

/-- Masking a byte shifted down by `k` leaves its bit `k`. -/
theorem shiftRight_and_one {b : UInt8} {k : Nat} (hk : k < 8) :
    (b >>> UInt8.ofNat k) &&& 1 = if bitAt b k then 1 else 0 := by
  have hshift : (b >>> UInt8.ofNat k).toNat = b.toNat >>> k := by
    rw [UInt8.toNat_shiftRight, UInt8.toNat_ofNat_of_lt' (by show k < 256; omega), Nat.mod_eq_of_lt hk]
  have hbit : bitAt b k = b.toNat.testBit k := rfl
  have hmask : (b.toNat >>> k) &&& 1 = (b.toNat.testBit k).toNat := by
    rw [Nat.and_one_is_mod, Nat.shiftRight_eq_div_pow, Nat.toNat_testBit]
  apply UInt8.toNat_inj.mp
  rw [UInt8.toNat_and, hshift, hbit, UInt8.toNat_one, hmask]
  cases b.toNat.testBit k <;> rfl

@[simp]
theorem bitPos_bitPos {lsbFirst : Bool} {i : Nat} (hi : i < 8) : bitPos lsbFirst (bitPos lsbFirst i) = i := by
  cases lsbFirst <;> simp [bitPos]
  omega

theorem bitPos_lt {lsbFirst : Bool} {i : Nat} (hi : i < 8) : bitPos lsbFirst i < 8 := by
  cases lsbFirst <;> simp [bitPos] <;> omega

@[simp]
theorem length_byteBits (lsbFirst : Bool) (b : UInt8) : (byteBits lsbFirst b).length = 8 := by
  simp [byteBits]

@[simp]
theorem length_bytesBits (lsbFirst : Bool) (bs : List UInt8) :
    (bytesBits lsbFirst bs).length = 8 * bs.length := by
  induction bs with
  | nil => rfl
  | cons b bs ih =>
    simp only [bytesBits, List.flatMap_cons, List.length_append, length_byteBits, List.length_cons] at ih ⊢
    omega

@[simp]
theorem bytesBits_nil (lsbFirst : Bool) : bytesBits lsbFirst [] = [] := rfl

theorem bytesBits_cons (lsbFirst : Bool) (b : UInt8) (bs : List UInt8) :
    bytesBits lsbFirst (b :: bs) = byteBits lsbFirst b ++ bytesBits lsbFirst bs := rfl

theorem bytesBits_append (lsbFirst : Bool) (as bs : List UInt8) :
    bytesBits lsbFirst (as ++ bs) = bytesBits lsbFirst as ++ bytesBits lsbFirst bs :=
  List.flatMap_append

theorem bytesBits_replicate_zero (lsbFirst : Bool) (n : Nat) :
    bytesBits lsbFirst (List.replicate n 0) = List.replicate (8 * n) false := by
  have hzero : byteBits lsbFirst 0 = List.replicate 8 false := by cases lsbFirst <;> decide
  induction n with
  | zero => rfl
  | succ n ih => rw [List.replicate_succ, bytesBits_cons, ih, hzero, List.replicate_append_replicate, Nat.mul_succ,
      Nat.add_comm]

theorem getElem?_byteBits {lsbFirst : Bool} {b : UInt8} {i : Nat} (hi : i < 8) :
    (byteBits lsbFirst b)[i]? = some (bitAt b (bitPos lsbFirst i)) := by
  simp [byteBits, hi]

/-- Bit `i` of a serialised byte string lies in byte `i / 8`. -/
theorem getElem?_bytesBits (lsbFirst : Bool) (bs : List UInt8) (i : Nat) :
    (bytesBits lsbFirst bs)[i]? = bs[i / 8]?.map fun b => bitAt b (bitPos lsbFirst (i % 8)) := by
  induction bs generalizing i with
  | nil => simp
  | cons b bs ih =>
    rw [bytesBits_cons]
    by_cases hi : i < 8
    · rw [List.getElem?_append_left (by simpa using hi), getElem?_byteBits hi]
      simp [Nat.div_eq_of_lt hi, Nat.mod_eq_of_lt hi]
    · have hdiv : i / 8 = (i - 8) / 8 + 1 := by omega
      have hmod : i % 8 = (i - 8) % 8 := by omega
      rw [List.getElem?_append_right (by simpa using Nat.le_of_not_lt hi), length_byteBits, ih, hdiv, hmod]
      simp

theorem bitAt_byteOfBits {lsbFirst : Bool} {bits : List Bool} {i : Nat} (hi : i < 8) :
    bitAt (byteOfBits lsbFirst bits) i = bits.getD (bitPos lsbFirst i) false := by
  simp only [bitAt, byteOfBits, BitVec.getLsbD_setWidth, BitVec.getLsbD_ofBoolListLE]
  simp [hi]

@[simp]
theorem byteOfBits_byteBits (lsbFirst : Bool) (b : UInt8) : byteOfBits lsbFirst (byteBits lsbFirst b) = b := by
  apply eq_of_bitAt
  intro i hi
  rw [bitAt_byteOfBits hi, List.getD_eq_getElem?_getD, getElem?_byteBits (bitPos_lt hi)]
  simp [hi]

theorem byteBits_byteOfBits {lsbFirst : Bool} {bits : List Bool} (hlen : bits.length ≤ 8) :
    byteBits lsbFirst (byteOfBits lsbFirst bits) = bits ++ List.replicate (8 - bits.length) false := by
  apply List.ext_getElem?
  intro i
  by_cases hi : i < 8
  · rw [getElem?_byteBits hi, bitAt_byteOfBits (bitPos_lt hi), bitPos_bitPos hi]
    by_cases hin : i < bits.length
    · simp [List.getElem?_append_left, hin]
    · rw [List.getElem?_append_right (by omega), List.getElem?_replicate, if_pos (by omega)]
      simp [hin]
  · rw [List.getElem?_eq_none (by simp; omega), List.getElem?_eq_none (by simp; omega)]

private theorem bitAt_mask_shiftLeft (b : Bool) {k i : Nat} (hk : k < 8) (hi : i < 8) :
    bitAt ((if b then 1 else 0 : UInt8) <<< UInt8.ofNat k) i = (b && decide (i = k)) := by
  have h : ∀ (b : Bool) (k i : Fin 8),
      bitAt ((if b then 1 else 0 : UInt8) <<< UInt8.ofNat k) i = (b && decide (i.val = k.val)) := by decide
  exact h b ⟨k, hk⟩ ⟨i, hi⟩

/-- Setting the next serial position of a partial byte appends a bit to it. -/
theorem byteOfBits_or_shiftLeft {lsbFirst : Bool} {bits : List Bool} (b : Bool) (hlen : bits.length < 8) :
    byteOfBits lsbFirst bits ||| ((if b then 1 else 0) <<< UInt8.ofNat (bitPos lsbFirst bits.length)) =
      byteOfBits lsbFirst (bits ++ [b]) := by
  have hor : ∀ (x y : UInt8) (i : Nat), bitAt (x ||| y) i = (bitAt x i || bitAt y i) := by
    intro x y i
    simp [bitAt]
  apply eq_of_bitAt
  intro i hi
  have hinv : i = bitPos lsbFirst bits.length ↔ bitPos lsbFirst i = bits.length := by
    constructor
    · intro h
      rw [h, bitPos_bitPos hlen]
    · intro h
      rw [← h, bitPos_bitPos hi]
  rw [hor, bitAt_mask_shiftLeft b (bitPos_lt hlen) hi, bitAt_byteOfBits hi, bitAt_byteOfBits hi]
  simp only [hinv, List.getD_eq_getElem?_getD]
  obtain hlt | heq | hgt := Nat.lt_trichotomy (bitPos lsbFirst i) bits.length
  · simp [List.getElem?_append_left, hlt, Nat.ne_of_lt hlt]
  · simp [heq]
  · have hend : (bits ++ [b]).length ≤ bitPos lsbFirst i := by
      rw [List.length_append]
      exact hgt
    simp [List.getElem?_eq_none (Nat.le_of_lt hgt), Nat.ne_of_gt hgt, List.getElem?_eq_none hend]

theorem byteBits_injective (lsbFirst : Bool) : Function.Injective (byteBits lsbFirst) :=
  Function.LeftInverse.injective (byteOfBits_byteBits lsbFirst)

/-- Whole bytes in front of a bit string are packed as they are. -/
theorem packBits_bytesBits_append (lsbFirst : Bool) (bs : List UInt8) (bits : List Bool) :
    packBits lsbFirst (bytesBits lsbFirst bs ++ bits) = bs ++ packBits lsbFirst bits := by
  induction bs with
  | nil => rfl
  | cons b bs ih =>
    rw [bytesBits_cons, List.append_assoc, List.cons_append, ← ih]
    conv_rhs => rw [← byteOfBits_byteBits lsbFirst b]
    rfl

theorem packBits_of_lt {lsbFirst : Bool} {bits : List Bool} (hne : bits ≠ []) (hlen : bits.length < 8) :
    packBits lsbFirst bits = [byteOfBits lsbFirst bits] := by
  rw [packBits.eq_def]
  split
  · exact absurd rfl hne
  · simp only [List.length_cons] at hlen
    omega
  · rfl

private theorem length_lt_of_not_eight {bits : List Bool}
    (h : ∀ b0 b1 b2 b3 b4 b5 b6 b7 rest, bits = b0 :: b1 :: b2 :: b3 :: b4 :: b5 :: b6 :: b7 :: rest → False) :
    bits.length < 8 := by
  match bits, h with
  | [], _ | [_], _ | [_, _], _ | [_, _, _], _ | [_, _, _, _], _ | [_, _, _, _, _], _
  | [_, _, _, _, _, _], _ | [_, _, _, _, _, _, _], _ => simp
  | _ :: _ :: _ :: _ :: _ :: _ :: _ :: _ :: _, h => exact absurd rfl (h _ _ _ _ _ _ _ _ _)

/-- Serialising a packed bit string gives it back, completed by padding zeros. -/
theorem bytesBits_packBits (lsbFirst : Bool) (bits : List Bool) :
    bytesBits lsbFirst (packBits lsbFirst bits) = bits ++ List.replicate (padLength bits.length) false := by
  induction bits using packBits.induct with
  | case1 => rfl
  | case2 b0 b1 b2 b3 b4 b5 b6 b7 rest ih =>
    rw [packBits, bytesBits_cons, byteBits_byteOfBits (by simp), ih]
    have hpad : padLength (rest.length + 8) = padLength rest.length := by simp [padLength]
    simp [hpad]
  | case3 bits hne hshort =>
    have hlen := length_lt_of_not_eight hshort
    have hpos : 0 < bits.length := List.length_pos_of_ne_nil hne
    rw [packBits_of_lt hne hlen, bytesBits_cons, byteBits_byteOfBits (by omega), bytesBits_nil, List.append_nil,
      padLength, Nat.mod_eq_of_lt hlen, Nat.mod_eq_of_lt (by omega)]

theorem length_packBits (lsbFirst : Bool) (bits : List Bool) :
    (packBits lsbFirst bits).length = (bits.length + 7) / 8 := by
  have h := congrArg List.length (bytesBits_packBits lsbFirst bits)
  simp only [length_bytesBits, List.length_append, List.length_replicate, padLength] at h
  omega

theorem wholeBytes_bytesBits_append {lsbFirst : Bool} (bs : List UInt8) {bits : List Bool} (hlen : bits.length < 8) :
    wholeBytes lsbFirst (bytesBits lsbFirst bs ++ bits) = bs := by
  induction bs with
  | nil =>
    rw [bytesBits_nil, List.nil_append, wholeBytes.eq_def]
    split
    · simp only [List.length_cons] at hlen
      omega
    · rfl
  | cons b bs ih =>
    conv_rhs => rw [← ih, ← byteOfBits_byteBits lsbFirst b]
    rw [bytesBits_cons, List.append_assoc]
    rfl

theorem wholeBytes_of_le {lsbFirst : Bool} {bits : List Bool} (hlen : 8 ≤ bits.length) :
    wholeBytes lsbFirst bits = byteOfBits lsbFirst (bits.take 8) :: wholeBytes lsbFirst (bits.drop 8) := by
  rw [wholeBytes.eq_def]
  split
  · rfl
  · rename_i hshort
    have := length_lt_of_not_eight hshort
    omega

theorem partialBits_bytesBits_append {lsbFirst : Bool} (bs : List UInt8) {bits : List Bool} (hlen : bits.length < 8) :
    partialBits (bytesBits lsbFirst bs ++ bits) = bits := by
  have hwhole : 8 * ((8 * bs.length + bits.length) / 8) = (bytesBits lsbFirst bs).length := by
    rw [length_bytesBits]
    omega
  rw [partialBits, List.length_append, length_bytesBits, hwhole]
  simp

/-- Every bit string is a sequence of whole bytes and fewer than eight bits. -/
theorem exists_bytesBits_append (lsbFirst : Bool) (bits : List Bool) :
    ∃ bs rest, bits = bytesBits lsbFirst bs ++ rest ∧ rest.length < 8 := by
  induction bits using packBits.induct with
  | case1 => exact ⟨[], [], rfl, by simp⟩
  | case2 b0 b1 b2 b3 b4 b5 b6 b7 rest ih =>
    obtain ⟨bs, last, rfl, hlast⟩ := ih
    refine ⟨byteOfBits lsbFirst [b0, b1, b2, b3, b4, b5, b6, b7] :: bs, last, ?_, hlast⟩
    rw [bytesBits_cons, byteBits_byteOfBits (by simp)]
    simp
  | case3 bits hne hshort => exact ⟨[], bits, rfl, length_lt_of_not_eight hshort⟩

end Bits
