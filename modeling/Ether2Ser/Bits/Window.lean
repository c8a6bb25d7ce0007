import Ether2Ser.Bits.Stuffing

namespace Bits

/-- The byte whose serial bits start at bit `i` of a bit string. -/
def byteAt (lsbFirst : Bool) (bits : List Bool) (i : Nat) : UInt8 := byteOfBits lsbFirst ((bits.drop i).take 8)

theorem bitAt_or (a b : UInt8) (i : Nat) : bitAt (a ||| b) i = (bitAt a i || bitAt b i) := by
  simp [bitAt]

theorem bitAt_shiftRight {b : UInt8} {k i : Nat} (hk : k < 8) :
    bitAt (b >>> UInt8.ofNat k) i = bitAt b (k + i) := by
  have hval : k % 256 = k := Nat.mod_eq_of_lt (by omega)
  simp [bitAt, UInt8.toBitVec_shiftRight, BitVec.getLsbD_ushiftRight, hval, Nat.mod_eq_of_lt hk]

theorem bitAt_shiftLeft {b : UInt8} {k i : Nat} (hk : k < 8) (hi : i < 8) :
    bitAt (b <<< UInt8.ofNat k) i = (decide (k ≤ i) && bitAt b (i - k)) := by
  have hval : k % 256 % BitVec.toNat (8 : BitVec 8) = k := by
    change k % 256 % 8 = k
    omega
  have hle : (!decide (i < k)) = decide (k ≤ i) := by
    rw [← decide_not, decide_eq_decide]
    exact Nat.not_lt
  simp only [bitAt, UInt8.toBitVec_shiftLeft, UInt8.toBitVec_ofNat', BitVec.shiftLeft_eq', BitVec.toNat_umod,
    BitVec.toNat_ofNat, BitVec.getLsbD_shiftLeft, Nat.reducePow, hval, hi, decide_true, Bool.true_and, hle]

theorem bitAt_of_le {b : UInt8} {i : Nat} (hi : 8 ≤ i) : bitAt b i = false := BitVec.getLsbD_of_ge _ _ hi

theorem bitAt_byteAt {bits : List Bool} {i k : Nat} (hk : k < 8) :
    bitAt (byteAt true bits i) k = bits.getD (i + k) false := by
  rw [byteAt, bitAt_byteOfBits hk, List.getD_eq_getElem?_getD, List.getD_eq_getElem?_getD]
  simp [bitPos, hk]

/-- Composing the upper bits of a byte with the lower bits of the next one
reads the eight bits across their boundary. -/
theorem shiftRight_or_shiftLeft_eq_byteAt {bs : List UInt8} {i k : Nat} (hpos : 0 < k) (hk : k < 8)
    (hi : i + 1 < bs.length) :
    (bs.getD i 0 >>> UInt8.ofNat k) ||| (bs.getD (i + 1) 0 <<< UInt8.ofNat (8 - k)) =
      byteAt true (bytesBits true bs) (8 * i + k) := by
  apply eq_of_bitAt
  intro j hj
  rw [bitAt_or, bitAt_shiftRight hk, bitAt_shiftLeft (by omega) hj, bitAt_byteAt hj]
  simp only [List.getD_eq_getElem?_getD, getElem?_bytesBits]
  by_cases hfirst : k + j < 8
  · have hdiv : (8 * i + k + j) / 8 = i := by omega
    have hmod : (8 * i + k + j) % 8 = k + j := by omega
    have hlow : ¬ 8 - k ≤ j := by omega
    simp [hdiv, hmod, hlow, bitPos, List.getElem?_eq_getElem (show i < bs.length by omega)]
  · have hdiv : (8 * i + k + j) / 8 = i + 1 := by omega
    have hmod : (8 * i + k + j) % 8 = j - (8 - k) := by omega
    have hhigh : 8 - k ≤ j := by omega
    simp [hdiv, hmod, hhigh, bitPos, List.getElem?_eq_getElem hi, bitAt_of_le (show 8 ≤ k + j by omega)]

theorem getD_eq_byteAt {bs : List UInt8} {i : Nat} (hi : i < bs.length) :
    bs.getD i 0 = byteAt true (bytesBits true bs) (8 * i) := by
  apply eq_of_bitAt
  intro j hj
  have hdiv : (8 * i + j) / 8 = i := by omega
  have hmod : (8 * i + j) % 8 = j := by omega
  rw [bitAt_byteAt hj, List.getD_eq_getElem?_getD, List.getD_eq_getElem?_getD, getElem?_bytesBits, hdiv, hmod]
  simp [List.getElem?_eq_getElem hi, bitPos]

theorem byteAt_append_left {lsbFirst : Bool} {a b : List Bool} {i : Nat} (hi : i + 8 ≤ a.length) :
    byteAt lsbFirst (a ++ b) i = byteAt lsbFirst a i := by
  rw [byteAt, byteAt, List.drop_append_of_le_length (by omega), List.take_append_of_le_length]
  rw [List.length_drop]
  omega

theorem byteAt_drop (lsbFirst : Bool) (bits : List Bool) (n i : Nat) :
    byteAt lsbFirst (bits.drop n) i = byteAt lsbFirst bits (n + i) := by
  rw [byteAt, byteAt, List.drop_drop]

theorem drop_bytesBits (lsbFirst : Bool) (bs : List UInt8) (n : Nat) :
    (bytesBits lsbFirst bs).drop (8 * n) = bytesBits lsbFirst (bs.drop n) := by
  by_cases hn : n ≤ bs.length
  · have hsplit := bytesBits_append lsbFirst (bs.take n) (bs.drop n)
    rw [List.take_append_drop] at hsplit
    rw [hsplit, List.drop_left']
    rw [length_bytesBits, List.length_take, Nat.min_eq_left hn]
  · rw [List.drop_eq_nil_of_le (by rw [length_bytesBits]; omega), List.drop_eq_nil_of_le (by omega)]
    rfl

theorem byteAt_eq_iff_occursAt {lsbFirst : Bool} {bits : List Bool} {i : Nat} {b : UInt8} (hi : i + 8 ≤ bits.length) :
    byteAt lsbFirst bits i = b ↔ OccursAt (byteBits lsbFirst b) i bits := by
  have hlen : ((bits.drop i).take 8).length = 8 := by
    rw [List.length_take, List.length_drop]
    omega
  have hbits : byteBits lsbFirst (byteAt lsbFirst bits i) = (bits.drop i).take 8 := by
    rw [byteAt, byteBits_byteOfBits (by omega), hlen]
    simp
  constructor
  · rintro rfl
    rw [OccursAt, hbits]
    exact List.take_prefix 8 _
  · intro hoccurs
    apply byteBits_injective lsbFirst
    rw [hbits, List.prefix_iff_eq_take.mp hoccurs, length_byteBits]

end Bits
