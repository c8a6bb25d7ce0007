import Ether2Ser.Bits.Window
import Ether2Ser.Hdlc.Stream.Flags
import Ether2Ser.Words.Select

open Bits Words
open ether2ser.hdlc_common ether2ser.hdlc_encoder

namespace ether2ser.hdlc

variable {lsbFirst : Bool}

/-- Start and length of every idle gap, when the stream begins at bit
`start`. -/
def idleGaps : List (Transmission lsbFirst) → Nat → Nat → List (Nat × Nat)
  | [], lastGap, start => [(start, lastGap)]
  | t :: ts, lastGap, start => (start, t.gap) :: idleGaps ts lastGap (start + t.gap + 8 * t.frame.length)

theorem le_of_mem_idleGaps {ts : List (Transmission lsbFirst)} {lastGap start : Nat} {gap : Nat × Nat}
    (hmem : gap ∈ idleGaps ts lastGap start) : start ≤ gap.1 := by
  induction ts generalizing start with
  | nil =>
    cases List.mem_singleton.mp hmem
    exact Nat.le_refl _
  | cons t ts ih =>
    rcases List.mem_cons.mp hmem with rfl | hmem
    · exact Nat.le_refl _
    · have hle := ih hmem
      omega

/-- A gap that is not the first one follows the closing flag of a frame. -/
theorem occursAt_flag_of_mem_idleGaps {ts : List (Transmission lsbFirst)} {lastGap start : Nat} {gap : Nat × Nat}
    (hmem : gap ∈ idleGaps ts lastGap start) :
    gap.1 = start ∨ (8 ≤ gap.1 - start ∧ OccursAt flagBits (gap.1 - 8 - start) (streamBits ts lastGap)) := by
  have hflag : gap.1 = start ∨ (8 ≤ gap.1 - start ∧ gap.1 - 8 ∈ flagPositions ts start) := by
    induction ts generalizing start with
    | nil =>
      rw [List.mem_singleton.mp hmem]
      exact .inl rfl
    | cons t ts ih =>
      rcases List.mem_cons.mp hmem with rfl | hmem
      · exact .inl rfl
      · have hfour := t.four_le_length_frame
        right
        rcases ih hmem with hfirst | ⟨hlate, hlater⟩
        · refine ⟨by omega, List.mem_cons_of_mem _ (List.mem_cons.mpr (.inl ?_))⟩
          omega
        · exact ⟨by omega, List.mem_cons_of_mem _ (List.mem_cons_of_mem _ hlater)⟩
  rcases hflag with hfirst | ⟨hlate, hpos⟩
  · exact .inl hfirst
  · exact .inr ⟨hlate, occursAt_of_mem_flagPositions hpos⟩

/-- The opening flag of a frame starts with an idle bit. -/
theorem Transmission.exists_frameBits (t : Transmission lsbFirst) :
    ∃ tail, bytesBits lsbFirst t.frame.payload = false :: tail ∧ tail.length + 1 = 8 * t.frame.length := by
  have hbits : bytesBits lsbFirst t.frame.payload = flagBits ++ bytesBits lsbFirst (t.frame.payload.drop 1) := by
    have hhead := t.getElem?_frame_zero
    rw [← List.head?_eq_getElem?] at hhead
    obtain ⟨rest, hrest⟩ := List.head?_eq_some_iff.mp hhead
    rw [hrest, bytesBits_cons, byteBits_flag]
    rfl
  refine ⟨flagBits.drop 1 ++ bytesBits lsbFirst (t.frame.payload.drop 1), hbits, ?_⟩
  have hlength := congrArg List.length hbits
  rw [length_bytesBits] at hlength
  simp only [List.length_append, List.length_drop, HdlcFrame.length] at hlength ⊢
  simp only [flagBits, List.length_cons, List.length_nil] at hlength ⊢
  omega

/-- Only bits behind the first one of a gap, up to the first one of the flag
behind it, are marked to be taken out. -/
def IdleMarks (ts : List (Transmission lsbFirst)) (lastGap start : Nat) (keep : List Bool) : Prop :=
  ∀ j, keep[j]? = some false → ∃ gap ∈ idleGaps ts lastGap start, gap.1 < start + j ∧ start + j ≤ gap.1 + gap.2

section

variable {t : Transmission lsbFirst} {ts : List (Transmission lsbFirst)} {lastGap start : Nat} {keep : List Bool}

theorem IdleMarks.inside_gap (h : IdleMarks (t :: ts) lastGap start keep) {j : Nat} (hdropped : keep[j]? = some false)
    (hlt : j < t.gap + 8 * t.frame.length) : 0 < j ∧ j ≤ t.gap := by
  obtain ⟨gap, hmem, hlow, hhigh⟩ := h j hdropped
  rcases List.mem_cons.mp hmem with rfl | hmem
  · simp only at hlow hhigh
    omega
  · have hlater := le_of_mem_idleGaps hmem
    omega

theorem IdleMarks.head_kept (h : IdleMarks (t :: ts) lastGap start keep) (hkeep : 0 < keep.length) :
    (keep.take (t.gap + 1)).head? = some true := by
  have hfour := t.four_le_length_frame
  rw [List.head?_take, if_neg (Nat.succ_ne_zero _), List.head?_eq_getElem?, List.getElem?_eq_getElem hkeep]
  cases hmark : keep[0] with
  | true => rfl
  | false =>
    have hdropped : keep[0]? = some false := by rw [List.getElem?_eq_getElem hkeep, hmark]
    exact absurd (h.inside_gap hdropped (by omega)).1 (Nat.lt_irrefl 0)

theorem IdleMarks.frame_kept (h : IdleMarks (t :: ts) lastGap start keep) {count : Nat}
    (hcount : count + 1 = 8 * t.frame.length) : ∀ mark ∈ (keep.drop (t.gap + 1)).take count, mark = true := by
  intro mark hmem
  obtain ⟨j, hget⟩ := List.mem_iff_getElem?.mp hmem
  rw [List.getElem?_take] at hget
  split at hget
  · rename_i hj
    rw [List.getElem?_drop] at hget
    cases mark with
    | true => rfl
    | false =>
      have hgap := (h.inside_gap hget (by omega)).2
      omega
  · cases hget

theorem IdleMarks.behind_frame (h : IdleMarks (t :: ts) lastGap start keep) :
    IdleMarks ts lastGap (start + t.gap + 8 * t.frame.length) (keep.drop (t.gap + 8 * t.frame.length)) := by
  intro j hdropped
  rw [List.getElem?_drop] at hdropped
  have hfour := t.four_le_length_frame
  obtain ⟨gap, hmem, hlow, hhigh⟩ := h _ hdropped
  rcases List.mem_cons.mp hmem with rfl | hmem
  · simp only at hhigh
    omega
  · exact ⟨gap, hmem, by omega, by omega⟩

end

/-- Bits marked so can be taken out of a stream: the same frames stand behind
shorter gaps. -/
theorem exists_select_streamBits {ts : List (Transmission lsbFirst)} {lastGap start : Nat} {keep : List Bool}
    (hlength : keep.length = (streamBits ts lastGap).length) (hidle : IdleMarks ts lastGap start keep) :
    ∃ ts' : List (Transmission lsbFirst), ∃ lastGap', select keep (streamBits ts lastGap) = streamBits ts' lastGap' ∧
      ts'.map (·.payload) = ts.map (·.payload) ∧ ts'.map (·.frame) = ts.map (·.frame) := by
  induction ts generalizing start keep with
  | nil =>
    obtain ⟨m, hm⟩ := select_replicate keep false lastGap
    exact ⟨[], m, hm, rfl, rfl⟩
  | cons t ts ih =>
    obtain ⟨tail, htail, hframe⟩ := t.exists_frameBits
    have hstream : streamBits (t :: ts) lastGap =
        List.replicate (t.gap + 1) false ++ (tail ++ streamBits ts lastGap) := by
      rw [streamBits, htail, List.replicate_succ', List.append_assoc]
      rfl
    rw [hstream, List.length_append, List.length_append, List.length_replicate] at hlength
    obtain ⟨m, hgap⟩ := select_replicate_of_head false t.gap (hidle.head_kept (by omega))
    obtain ⟨ts', lastGap', hselect, hpayloads, hframes⟩ := ih (by rw [List.length_drop]; omega) hidle.behind_frame
    refine ⟨{ t with gap := m } :: ts', lastGap', ?_, by simp [hpayloads], by simp [hframes]⟩
    have hmiddle := hidle.frame_kept hframe
    have hbehind : t.gap + 8 * t.frame.length = t.gap + 1 + tail.length := by omega
    rw [hbehind] at hselect
    rw [← List.length_replicate (a := false) (n := t.gap + 1)] at hlength hmiddle
    rw [hstream, select_of_middle hlength hmiddle, List.length_replicate, hgap, hselect, streamBits, htail,
      List.replicate_succ', List.append_assoc]
    rfl

/-- The marks of the bits of marked bytes. -/
def bitMarks (keep : List Bool) : List Bool := keep.flatMap (List.replicate 8)

theorem length_bitMarks (keep : List Bool) : (bitMarks keep).length = 8 * keep.length := by
  simp [bitMarks, Nat.mul_comm]

theorem getElem?_bitMarks (keep : List Bool) (j : Nat) : (bitMarks keep)[j]? = keep[j / 8]? := by
  induction keep generalizing j with
  | nil => rfl
  | cons mark keep ih =>
    rw [bitMarks, List.flatMap_cons]
    by_cases hj : j < 8
    · rw [List.getElem?_append_left (by simpa using hj), Nat.div_eq_of_lt hj, List.getElem?_replicate, if_pos hj]
      rfl
    · obtain ⟨k, rfl⟩ := Nat.exists_eq_add_of_le (Nat.not_lt.mp hj)
      rw [List.getElem?_append_right (by simp), List.length_replicate, Nat.add_sub_cancel_left, Nat.add_comm 8 k,
        Nat.add_div_right k (by decide)]
      exact ih k

theorem bytesBits_select {keep : List Bool} {bytes : List UInt8} (hlength : keep.length = bytes.length) :
    bytesBits lsbFirst (select keep bytes) = select (bitMarks keep) (bytesBits lsbFirst bytes) := by
  induction keep generalizing bytes with
  | nil =>
    rw [List.length_nil] at hlength
    rw [List.eq_nil_of_length_eq_zero hlength.symm]
    rfl
  | cons mark keep ih =>
    cases bytes with
    | nil => simp at hlength
    | cons byte bytes =>
      rw [List.length_cons, List.length_cons, Nat.succ_inj] at hlength
      rw [bitMarks, List.flatMap_cons, bytesBits_cons,
        select_append (by rw [List.length_replicate, length_byteBits]), ← bitMarks, ← ih hlength]
      cases mark with
      | true =>
        rw [select_of_all (by rw [List.length_replicate, length_byteBits])
          fun mark hmem => List.eq_of_mem_replicate hmem]
        exact bytesBits_cons ..
      | false =>
        rw [select_replicate_false]
        rfl

/-- The byte lies in an idle gap, with at most its last bit on the first bit of
the flag behind the gap. -/
def IdleByte (ts : List (Transmission lsbFirst)) (lastGap i : Nat) : Prop :=
  ∃ gap ∈ idleGaps ts lastGap 0, gap.1 ≤ 8 * i ∧ 8 * i + 8 ≤ gap.1 + gap.2 + 1

instance (ts : List (Transmission lsbFirst)) (lastGap i : Nat) : Decidable (IdleByte ts lastGap i) :=
  inferInstanceAs (Decidable (∃ gap ∈ idleGaps ts lastGap 0, _))

/-- An idle byte of a stream is one as well when the last gap ends elsewhere, as
long as the stream reaches over it. -/
theorem IdleByte.of_gap {ts : List (Transmission lsbFirst)} {lastGap other i : Nat} (h : IdleByte ts lastGap i)
    (hinside : 8 * i + 8 ≤ (streamBits ts other).length) : IdleByte ts other i := by
  have hgaps : ∀ (ts : List (Transmission lsbFirst)) (start : Nat), ∀ gap ∈ idleGaps ts lastGap start,
      ∃ same ∈ idleGaps ts other start, same.1 = gap.1 ∧
        (same.2 = gap.2 ∨ same.1 + same.2 = start + (streamBits ts other).length) := by
    intro ts
    induction ts with
    | nil =>
      intro start gap hmem
      cases List.mem_singleton.mp hmem
      exact ⟨(start, other), List.mem_singleton_self _, rfl, .inr (by rw [streamBits, List.length_replicate])⟩
    | cons t ts ih =>
      intro start gap hmem
      rcases List.mem_cons.mp hmem with rfl | hmem
      · exact ⟨_, List.mem_cons_self, rfl, .inl rfl⟩
      · obtain ⟨same, hsame, hstart, hend⟩ := ih _ gap hmem
        refine ⟨same, List.mem_cons_of_mem _ hsame, hstart, hend.imp id fun hlast => ?_⟩
        rw [hlast, streamBits, List.length_append, List.length_append, List.length_replicate, length_bytesBits]
        have hlength : t.frame.payload.length = t.frame.length := rfl
        omega
  obtain ⟨gap, hmem, hlow, hhigh⟩ := h
  obtain ⟨same, hsame, hstart, hend⟩ := hgaps ts 0 gap hmem
  exact ⟨same, hsame, by omega, by omega⟩

/-- Idle bytes, none of them right behind a frame, can be taken out of a
stream. -/
theorem exists_select_bytes {ts : List (Transmission true)} {lastGap : Nat} {bytes : List UInt8} {keep : List Bool}
    (hbits : bytesBits true bytes = streamBits ts lastGap) (hlength : keep.length = bytes.length)
    (hidle : ∀ i, keep[i]? = some false → IdleByte ts lastGap i ∧
      ∃ k, i = k + 1 ∧ ∃ byte, bytes[k]? = some byte ∧ byte ≠ HDLC_FLAG_BYTE) :
    ∃ ts' : List (Transmission true), ∃ lastGap', bytesBits true (select keep bytes) = streamBits ts' lastGap' ∧
      ts'.map (·.payload) = ts.map (·.payload) ∧ ts'.map (·.frame) = ts.map (·.frame) := by
  rw [bytesBits_select hlength, hbits]
  apply @exists_select_streamBits true ts lastGap 0
  · rw [length_bitMarks, hlength, ← hbits, length_bytesBits]
  · intro j hdropped
    rw [getElem?_bitMarks] at hdropped
    obtain ⟨⟨gap, hmem, hlow, hhigh⟩, k, hk, byte, hbyte, hflag⟩ := hidle _ hdropped
    refine ⟨gap, hmem, ?_, by omega⟩
    by_contra hstart
    have hinside : k < bytes.length := (List.getElem?_eq_some_iff.mp hbyte).1
    rcases occursAt_flag_of_mem_idleGaps hmem with hzero | ⟨-, hoccurs⟩
    · omega
    · have hposition : gap.1 - 8 - 0 = 8 * k := by omega
      rw [hposition, ← hbits, ← byteBits_flag true,
        ← byteAt_eq_iff_occursAt (by rw [length_bytesBits]; omega), ← getD_eq_byteAt hinside,
        List.getD_eq_getElem?_getD, hbyte] at hoccurs
      exact hflag hoccurs

end ether2ser.hdlc
