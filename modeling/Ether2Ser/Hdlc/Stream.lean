import Ether2Ser.Hdlc.RoundTrip

open Bits
open ether2ser.hdlc_common ether2ser.hdlc_encoder

namespace ether2ser.hdlc

/-- One frame on the line with the idle zeros sent before it. The frame is what
the encoder wrote for the payload. -/
structure Transmission (lsbFirst : Bool) where
  gap : Nat
  payload : List UInt8
  capacity : Nat
  frame : HdlcFrame
  encoded : hdlc_encode payload (.empty capacity) lsbFirst = (true, frame)

/-- The transmission of a payload that the encoder accepts. -/
def Transmission.send {lsbFirst : Bool} (gap : Nat) (payload : List UInt8) (capacity : Nat)
    (hencode : (hdlc_encode payload (.empty capacity) lsbFirst).1 = true) : Transmission lsbFirst where
  gap := gap
  payload := payload
  capacity := capacity
  frame := (hdlc_encode payload (.empty capacity) lsbFirst).2
  encoded := Prod.ext hencode rfl

/-- The bits on the line: every frame behind its gap, then the last gap. -/
def streamBits {lsbFirst : Bool} : List (Transmission lsbFirst) → Nat → List Bool
  | [], lastGap => List.replicate lastGap false
  | t :: ts, lastGap => List.replicate t.gap false ++ (bytesBits lsbFirst t.frame.payload ++ streamBits ts lastGap)

/-- Where the first and the last byte of every frame start, when the stream
begins at bit `start`. -/
def flagPositions {lsbFirst : Bool} : List (Transmission lsbFirst) → Nat → List Nat
  | [], _ => []
  | t :: ts, start =>
    (start + t.gap) :: (start + t.gap + 8 * (t.frame.length - 1)) ::
      flagPositions ts (start + t.gap + 8 * t.frame.length)

theorem le_of_mem_flagPositions {lsbFirst : Bool} {ts : List (Transmission lsbFirst)} {start j : Nat}
    (hj : j ∈ flagPositions ts start) : start ≤ j := by
  induction ts generalizing start with
  | nil => simp [flagPositions] at hj
  | cons t ts ih =>
    simp only [flagPositions, List.mem_cons] at hj
    obtain rfl | rfl | hj := hj
    · omega
    · omega
    · have := ih hj
      omega

/-- The flag pattern, which reads the same in both bit orders. -/
def flagBits : List Bool := [false, true, true, true, true, true, true, false]

theorem byteBits_flag (lsbFirst : Bool) : byteBits lsbFirst HDLC_FLAG_BYTE = flagBits := by
  cases lsbFirst <;> decide

theorem Transmission.payload_frame {lsbFirst : Bool} (t : Transmission lsbFirst) :
    t.frame.payload = encodedFrame lsbFirst t.payload := by
  rw [(frame_of_hdlc_encode t.encoded).1]

theorem Transmission.length_frame {lsbFirst : Bool} (t : Transmission lsbFirst) :
    t.frame.length = (encodedFrame lsbFirst t.payload).length := by
  rw [HdlcFrame.length, t.payload_frame]

/-- Number of bits between the two flags of a payload's frame. -/
def contentLength (lsbFirst : Bool) (payload : List UInt8) : Nat :=
  8 * (packBits lsbFirst (contentBits lsbFirst payload)).length

theorem Transmission.length_frame_eq_contentLength {lsbFirst : Bool} (t : Transmission lsbFirst) :
    8 * t.frame.length = contentLength lsbFirst t.payload + 16 := by
  rw [t.length_frame, encodedFrame, contentLength]
  simp
  omega

/-- The bits of a frame: flag, content, padding, flag. -/
theorem bytesBits_encodedFrame (lsbFirst : Bool) (payload : List UInt8) :
    bytesBits lsbFirst (encodedFrame lsbFirst payload) =
      flagBits ++ (contentBits lsbFirst payload ++
        (List.replicate (padLength (contentBits lsbFirst payload).length) false ++ flagBits)) := by
  rw [encodedFrame, List.cons_append, bytesBits_cons, bytesBits_append, bytesBits_packBits, bytesBits_cons,
    byteBits_flag]
  simp

/-- Six ones in front of a zero behind the start of a flag are those of the
flag, or they lie behind it. -/
private theorem onesAt_flag_append {i : Nat} (l : List Bool) :
    OnesAt 6 i (flagBits ++ l) ↔ i = 1 ∨ (8 ≤ i ∧ OnesAt 6 (i - 8) l) := by
  have hsplit : flagBits ++ l = List.replicate 1 false ++ (List.replicate 6 true ++ false :: l) := rfl
  rw [hsplit, onesAt_replicate_false_append (by decide), onesAt_append_false (by decide),
    onesAt_replicate_true (by decide),
    List.length_replicate, Nat.sub_sub]
  constructor
  · rintro ⟨hpos, hzero | ⟨hlt, h⟩⟩
    · exact .inl (by omega)
    · exact .inr ⟨by omega, h⟩
  · rintro (rfl | ⟨hle, h⟩)
    · simp
    · exact ⟨by omega, .inr ⟨by omega, h⟩⟩

/-- Six consecutive ones inside or behind a frame stand in one of its flags or
behind the frame. -/
theorem onesAt_encodedFrame_append (lsbFirst : Bool) (payload : List UInt8) (i : Nat) (l : List Bool) :
    OnesAt 6 i (bytesBits lsbFirst (encodedFrame lsbFirst payload) ++ l) ↔
      i = 1 ∨ i = contentLength lsbFirst payload + 9 ∨
        (contentLength lsbFirst payload + 16 ≤ i ∧ OnesAt 6 (i - (contentLength lsbFirst payload + 16)) l) := by
  have hcontent : ∀ k, ¬ OnesAt 6 k (contentBits lsbFirst payload) := fun k =>
    @not_onesAt_stuff HDLC_BIT_STUFF_ONES_LIMIT 0 _ (by decide) k
  have hlen : contentLength lsbFirst payload =
      (contentBits lsbFirst payload).length + padLength (contentBits lsbFirst payload).length := by
    rw [contentLength, ← length_bytesBits lsbFirst, bytesBits_packBits]
    simp
  have hzero : List.replicate (padLength (contentBits lsbFirst payload).length) false ++ (flagBits ++ l) =
      false :: (List.replicate (padLength (contentBits lsbFirst payload).length) false ++
        (List.replicate 6 true ++ false :: l)) := by
    rw [← List.cons_append, ← List.replicate_succ, List.replicate_succ', List.append_assoc]
    rfl
  rw [bytesBits_encodedFrame, List.append_assoc, onesAt_flag_append, List.append_assoc, List.append_assoc, hzero,
    onesAt_append_false (by decide), onesAt_replicate_false_append (by decide), onesAt_append_false (by decide),
    onesAt_replicate_true (by decide)]
  simp only [hcontent, false_or, hlen, List.length_replicate, Nat.sub_sub]
  generalize (contentBits lsbFirst payload).length = content
  generalize padLength content = padding
  have hindex : 8 + (content + 1) + padding + (6 + 1) = content + padding + 16 := by omega
  rw [hindex]
  constructor
  · rintro (h | ⟨hflag, hcontent, hpadding, h | ⟨hclose, h⟩⟩)
    · exact .inl h
    · exact .inr (.inl (by omega))
    · exact .inr (.inr ⟨by omega, h⟩)
  · rintro (h | h | ⟨hle, h⟩)
    · exact .inl h
    · exact .inr ⟨by omega, by omega, by omega, .inl (by omega)⟩
    · exact .inr ⟨by omega, by omega, by omega, .inr ⟨by omega, h⟩⟩

/-- Six consecutive ones on the line are those of a flag byte. -/
theorem onesAt_streamBits {lsbFirst : Bool} (ts : List (Transmission lsbFirst)) (lastGap start i : Nat) :
    OnesAt 6 i (streamBits ts lastGap) ↔ start + i ∈ (flagPositions ts start).map (· + 1) := by
  induction ts generalizing start i with
  | nil =>
    have hidle := @onesAt_replicate_false_append 6 i lastGap [] (by decide)
    rw [List.append_nil] at hidle
    simp only [streamBits, hidle, flagPositions, List.map_nil, List.not_mem_nil, iff_false]
    exact fun h => not_onesAt_of_length_lt (by decide) h.2
  | cons t ts ih =>
    have hlen := t.length_frame_eq_contentLength
    have htail := ih (start + t.gap + 8 * t.frame.length) (i - (t.gap + 8 * t.frame.length))
    rw [streamBits, onesAt_replicate_false_append (by decide), t.payload_frame, onesAt_encodedFrame_append,
      Nat.sub_sub, ← hlen, htail, flagPositions, List.map_cons, List.map_cons, List.mem_cons, List.mem_cons]
    constructor
    · rintro ⟨hle, h | h | ⟨hbehind, h⟩⟩
      · exact .inl (by omega)
      · exact .inr (.inl (by omega))
      · rw [show start + t.gap + 8 * t.frame.length + (i - (t.gap + 8 * t.frame.length)) = start + i by omega] at h
        exact .inr (.inr h)
    · rintro (h | h | h)
      · exact ⟨by omega, .inl (by omega)⟩
      · exact ⟨by omega, .inr (.inl (by omega))⟩
      · obtain ⟨j, hj, hji⟩ := List.mem_map.mp h
        have hstart := le_of_mem_flagPositions hj
        refine ⟨by omega, .inr (.inr ⟨by omega, ?_⟩)⟩
        rwa [show start + t.gap + 8 * t.frame.length + (i - (t.gap + 8 * t.frame.length)) = start + i by omega]

/-- A flag stands at both ends of a frame. -/
theorem occursAt_flag_encodedFrame_append (lsbFirst : Bool) (payload : List UInt8) (l : List Bool) :
    OccursAt flagBits 0 (bytesBits lsbFirst (encodedFrame lsbFirst payload) ++ l) ∧
      OccursAt flagBits (contentLength lsbFirst payload + 8)
        (bytesBits lsbFirst (encodedFrame lsbFirst payload) ++ l) := by
  have hopen : bytesBits lsbFirst (encodedFrame lsbFirst payload) =
      (flagBits ++ bytesBits lsbFirst (packBits lsbFirst (contentBits lsbFirst payload))) ++ flagBits := by
    rw [encodedFrame, List.cons_append, bytesBits_cons, bytesBits_append, bytesBits_cons, byteBits_flag]
    simp
  have hlen : contentLength lsbFirst payload + 8 =
      (flagBits ++ bytesBits lsbFirst (packBits lsbFirst (contentBits lsbFirst payload))).length := by
    rw [contentLength, List.length_append, length_bytesBits, Nat.add_comm]
    rfl
  rw [hopen]
  constructor
  · rw [List.append_assoc, List.append_assoc]
    exact occursAt_zero_append _ _
  · rw [hlen, List.append_assoc]
    exact (occursAt_length_add _ _ 0).mpr (occursAt_zero_append _ _)

theorem occursAt_of_mem_flagPositions {lsbFirst : Bool} {ts : List (Transmission lsbFirst)} {lastGap start j : Nat}
    (hj : j ∈ flagPositions ts start) : OccursAt flagBits (j - start) (streamBits ts lastGap) := by
  induction ts generalizing start with
  | nil => simp [flagPositions] at hj
  | cons t ts ih =>
    have hlen := t.length_frame_eq_contentLength
    have hends := occursAt_flag_encodedFrame_append lsbFirst t.payload (streamBits ts lastGap)
    have hgap := fun i => @occursAt_length_add _ flagBits (List.replicate t.gap false)
      (bytesBits lsbFirst (encodedFrame lsbFirst t.payload) ++ streamBits ts lastGap) i
    simp only [List.length_replicate] at hgap
    rw [streamBits, t.payload_frame]
    simp only [flagPositions, List.mem_cons] at hj
    obtain rfl | rfl | hj := hj
    · rw [show start + t.gap - start = t.gap + 0 by omega, hgap]
      exact hends.1
    · rw [
        show start + t.gap + 8 * (t.frame.length - 1) - start = t.gap + (contentLength lsbFirst t.payload + 8) by omega,
        hgap]
      exact hends.2
    · have hle := le_of_mem_flagPositions hj
      have hbehind := @occursAt_length_add _ flagBits (bytesBits lsbFirst (encodedFrame lsbFirst t.payload))
        (streamBits ts lastGap) (j - (start + t.gap + 8 * t.frame.length))
      rw [length_bytesBits, ← t.length_frame] at hbehind
      rw [show j - start = t.gap + (8 * t.frame.length + (j - (start + t.gap + 8 * t.frame.length))) by omega, hgap,
        hbehind]
      exact ih hj

theorem onesAt_of_occursAt_flag {i : Nat} {l : List Bool} (h : OccursAt flagBits i l) : OnesAt 6 (i + 1) l := by
  rw [onesAt_iff]
  intro j hj
  have hbit := occursAt_iff.mp h (j + 1) (by simp [flagBits]; omega)
  rw [show i + 1 + j = i + (j + 1) by omega, hbit, Option.some.injEq]
  have hflag : ∀ j : Fin 6, flagBits[j.val + 1]? = some true := by decide
  have := hflag ⟨j, hj⟩
  rwa [List.getElem?_eq_getElem (by simp [flagBits]; omega), Option.some.injEq] at this

theorem exists_mem_flagPositions_of_onesAt {lsbFirst : Bool} {ts : List (Transmission lsbFirst)} {lastGap i : Nat}
    (h : OnesAt 6 i (streamBits ts lastGap)) : ∃ j ∈ flagPositions ts 0, i = j + 1 := by
  rw [onesAt_streamBits ts lastGap 0 i, Nat.zero_add, List.mem_map] at h
  obtain ⟨j, hj, rfl⟩ := h
  exact ⟨j, hj, rfl⟩

theorem mem_flagPositions_of_occursAt {lsbFirst : Bool} {ts : List (Transmission lsbFirst)} {lastGap i : Nat}
    (h : OccursAt flagBits i (streamBits ts lastGap)) : i ∈ flagPositions ts 0 := by
  obtain ⟨j, hj, hij⟩ := exists_mem_flagPositions_of_onesAt (onesAt_of_occursAt_flag h)
  have heq : i = j := by omega
  exact heq ▸ hj

/-- Flag transparency: on the line, the flag pattern stands exactly where a
frame's first or last byte starts, and six ones in a row occur only there. -/
theorem flag_transparency {lsbFirst : Bool} (ts : List (Transmission lsbFirst)) (lastGap i : Nat) :
    (OccursAt flagBits i (streamBits ts lastGap) ↔ i ∈ flagPositions ts 0) ∧
      (OnesAt 6 i (streamBits ts lastGap) → ∃ j ∈ flagPositions ts 0, i = j + 1) := by
  refine ⟨⟨mem_flagPositions_of_occursAt, ?_⟩, exists_mem_flagPositions_of_onesAt⟩
  intro hi
  simpa using @occursAt_of_mem_flagPositions _ _ lastGap _ _ hi

end ether2ser.hdlc
