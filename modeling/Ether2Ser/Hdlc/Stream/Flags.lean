import Ether2Ser.Bits.Window
import Ether2Ser.Hdlc.Stream

open Bits
open ether2ser.hdlc_common ether2ser.hdlc_encoder

namespace ether2ser.hdlc

/-- No flag starts in the gap before the first frame. -/
theorem gap_le_of_occursAt {lsbFirst : Bool} {t : Transmission lsbFirst} {ts : List (Transmission lsbFirst)}
    {lastGap i : Nat} (h : OccursAt flagBits i (streamBits (t :: ts) lastGap)) : t.gap ≤ i := by
  have hmem := mem_flagPositions_of_occursAt h
  simp only [flagPositions, List.mem_cons, Nat.zero_add] at hmem
  obtain rfl | rfl | hmem := hmem
  · omega
  · omega
  · have hle := le_of_mem_flagPositions hmem
    omega

/-- Bits that go by before the first flag only shorten the first gap. -/
theorem exists_drop_streamBits {lsbFirst : Bool} {ts : List (Transmission lsbFirst)} {lastGap n : Nat}
    (hidle : ∀ i < n, ¬ OccursAt flagBits i (streamBits ts lastGap)) :
    ∃ ts' : List (Transmission lsbFirst), ∃ lastGap', (streamBits ts lastGap).drop n = streamBits ts' lastGap' ∧
      ts'.map (·.payload) = ts.map (·.payload) ∧ ts'.map (·.frame) = ts.map (·.frame) := by
  cases ts with
  | nil => exact ⟨[], lastGap - n, by simp [streamBits], rfl, rfl⟩
  | cons t ts =>
    have hgap : n ≤ t.gap := by
      by_contra hlt
      have hopen := @occursAt_of_mem_flagPositions _ (t :: ts) lastGap 0 t.gap (by simp [flagPositions])
      exact hidle t.gap (by omega) hopen
    refine ⟨{ t with gap := t.gap - n } :: ts, lastGap, ?_, rfl, rfl⟩
    simp only [streamBits]
    rw [List.drop_append_of_le_length (by simpa using hgap), List.drop_replicate]

theorem Transmission.four_le_length_frame {lsbFirst : Bool} (t : Transmission lsbFirst) : 4 ≤ t.frame.length := by
  have hlong := length_add_four_le_encodedFrame lsbFirst t.payload
  rw [t.length_frame]
  omega

/-- Between its first and its last byte a frame holds no flag byte. -/
theorem Transmission.getElem?_frame_ne_flag {lsbFirst : Bool} (t : Transmission lsbFirst) {k : Nat} (hpos : 0 < k)
    (hlt : k + 1 < t.frame.length) : t.frame.payload[k]? ≠ some HDLC_FLAG_BYTE := by
  intro hflag
  have hstream : streamBits [{ t with gap := 0 }] 0 = bytesBits lsbFirst t.frame.payload := by simp [streamBits]
  have hoccurs : OccursAt flagBits (8 * k) (streamBits [{ t with gap := 0 }] 0) := by
    rw [hstream, occursAt_iff]
    intro j hj
    have hj : j < 8 := hj
    have hdiv : (8 * k + j) / 8 = k := by omega
    have hmod : (8 * k + j) % 8 = j := by omega
    rw [getElem?_bytesBits, hdiv, hmod, hflag, Option.map_some, ← getElem?_byteBits hj, byteBits_flag,
      List.getElem?_eq_getElem]
  have hmem := mem_flagPositions_of_occursAt hoccurs
  simp only [flagPositions, List.mem_cons, List.not_mem_nil, or_false] at hmem
  omega

theorem Transmission.getElem?_frame_last {lsbFirst : Bool} (t : Transmission lsbFirst) :
    t.frame.payload[t.frame.length - 1]? = some HDLC_FLAG_BYTE := by
  rw [t.length_frame, t.payload_frame, encodedFrame]
  simp

theorem Transmission.getElem?_frame_zero {lsbFirst : Bool} (t : Transmission lsbFirst) :
    t.frame.payload[0]? = some HDLC_FLAG_BYTE := by
  rw [t.payload_frame, encodedFrame]
  simp

/-- What is left of a closing flag whose first bits have been read: ones and a
zero, or nothing. -/
theorem exists_residue {k : Nat} (hpos : 0 < k) :
    flagBits.drop k = [] ∨ ∃ ones ≤ 6, flagBits.drop k = List.replicate ones true ++ [false] := by
  by_cases hk : k < 8
  · right
    have hall : ∀ k : Fin 8, 0 < k.val → flagBits.drop k = List.replicate (7 - k) true ++ [false] := by decide
    exact ⟨7 - k, by omega, hall ⟨k, hk⟩ hpos⟩
  · left
    exact List.drop_eq_nil_of_le (by simp [flagBits]; omega)

/-- The line never starts with a one. -/
theorem head?_streamBits_ne_true {lsbFirst : Bool} (ts : List (Transmission lsbFirst)) (lastGap : Nat) :
    (streamBits ts lastGap)[0]? ≠ some true := by
  have hidle : ∀ (gap : Nat) (l : List Bool), l[0]? ≠ some true → (List.replicate gap false ++ l)[0]? ≠ some true := by
    intro gap l hl
    cases gap with
    | zero => simpa using hl
    | succ gap => simp [List.replicate_succ]
  cases ts with
  | nil => simpa [streamBits] using hidle lastGap [] (by simp)
  | cons t ts =>
    apply hidle
    rw [t.payload_frame, bytesBits_encodedFrame]
    simp [flagBits]

/-- A rest of a closing flag in front of the line does not make up a flag. -/
theorem occursAt_of_residue_append {k i : Nat} {l : List Bool} (hpos : 0 < k) (hline : l[0]? ≠ some true)
    (h : OccursAt flagBits i (flagBits.drop k ++ l)) :
    (flagBits.drop k).length ≤ i ∧ OccursAt flagBits (i - (flagBits.drop k).length) l := by
  have hle : (flagBits.drop k).length ≤ i := by
    obtain hnil | ⟨ones, hones, hrest⟩ := exists_residue hpos
    · simp [hnil]
    · have hrun := onesAt_of_occursAt_flag h
      rw [hrest, List.append_assoc, List.singleton_append, onesAt_append_false (by decide)] at hrun
      rw [hrest]
      simp only [List.length_append, List.length_replicate, List.length_singleton] at hrun ⊢
      obtain hinside | ⟨hbehind, hafter⟩ := hrun
      · have hlen := hinside.add_le_length (by decide)
        rw [List.length_replicate] at hlen
        omega
      · by_contra hshort
        have hzero := onesAt_iff.mp hafter 0 (by decide)
        rw [show i + 1 - (ones + 1) + 0 = 0 by omega] at hzero
        exact hline hzero
  refine ⟨hle, ?_⟩
  rwa [← occursAt_length_add (flagBits.drop k) l, Nat.add_sub_cancel' hle]

end ether2ser.hdlc
