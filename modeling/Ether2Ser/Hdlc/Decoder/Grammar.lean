import Ether2Ser.Hdlc.Crc

open Bits
open ether2ser.hdlc_common

namespace ether2ser.hdlc_decoder

/-- What a call of `hdlc_decode` leaves with its caller: the result, the first
`payload_length` bytes of the output and the failure counters. -/
structure HdlcDecodeCall where
  result : Bool
  payload : List UInt8
  payload_length : Nat
  stats : HdlcDecodeStats
  deriving DecidableEq, Repr

def hdlc_decode_call (stats : HdlcDecodeStats) (frame : HdlcFrame) (out_capacity : Nat) (lsb_first : Bool) :
    HdlcDecodeCall :=
  match hdlc_decode frame out_capacity lsb_first with
  | .ok payload => { result := true, payload, payload_length := payload.length, stats }
  | .error error => { result := false, payload := [], payload_length := 0, stats := stats.record error }

/-- The counter that a failure adds to. -/
def HdlcDecodeStats.counter (stats : HdlcDecodeStats) : HdlcDecodeError → Nat
  | .invalid_frame => stats.invalid_frame
  | .too_short => stats.too_short
  | .payload_too_long => stats.payload_too_long
  | .unstuff_error => stats.unstuff_error
  | .crc_mismatch => stats.crc_mismatch

/-- The complete bytes between the flags of a frame, without the bits after
runs of five ones. -/
def interiorBytes (lsbFirst : Bool) (frame : HdlcFrame) : List UInt8 :=
  wholeBytes lsbFirst (dropStuffed 5 0 (interiorBits lsbFirst frame))

/-- The frames of a payload: two flags, no six ones in a row between them, and
bytes that fit the output and end with the checksum of the payload. -/
structure FrameGrammar (lsbFirst : Bool) (frame : HdlcFrame) (out_capacity : Nat) (payload : List UInt8) : Prop where
  two_le_length : 2 ≤ frame.length
  capacity_pos : 0 < out_capacity
  opens : frame.payload.head? = some 0x7E
  closes : frame.payload.getLast? = some 0x7E
  no_six_ones : ∀ i, ¬ OnesAt 6 i (interiorBits lsbFirst frame)
  two_le : 2 ≤ (interiorBytes lsbFirst frame).length
  fits : (interiorBytes lsbFirst frame).length ≤ out_capacity
  payload_eq : payload = (interiorBytes lsbFirst frame).take ((interiorBytes lsbFirst frame).length - 2)
  checksum : (interiorBytes lsbFirst frame).drop ((interiorBytes lsbFirst frame).length - 2) =
    crcBytes (hdlc_crc16 payload)

theorem counter_record (stats : HdlcDecodeStats) (error other : HdlcDecodeError) :
    (stats.record error).counter other = stats.counter other + if other = error then 1 else 0 := by
  cases error <;> cases other <;> rfl

theorem length_wholeBytes (lsbFirst : Bool) (bits : List Bool) :
    (wholeBytes lsbFirst bits).length = bits.length / 8 := by
  obtain ⟨bytes, rest, rfl, hrest⟩ := exists_bytesBits_append lsbFirst bits
  rw [wholeBytes_bytesBits_append bytes hrest, List.length_append, length_bytesBits]
  omega

/-- What the guard at the start of the decoder lets through. -/
structure Delimited (frame : HdlcFrame) (out_capacity : Nat) : Prop where
  capacity_pos : 0 < out_capacity
  two_le_length : 2 ≤ frame.length
  opens : frame.payload.head? = some 0x7E
  closes : frame.payload.getLast? = some 0x7E

theorem delimited_iff {frame : HdlcFrame} {out_capacity : Nat} :
    Delimited frame out_capacity ↔ ¬ (out_capacity = 0 ∨ frame.length < 2 ∨
      frame.payload.getD 0 0 ≠ HDLC_FLAG_BYTE ∨ frame.payload.getD (frame.length - 1) 0 ≠ HDLC_FLAG_BYTE) := by
  have hflags : 2 ≤ frame.length → frame.payload.head? = some (frame.payload.getD 0 0) ∧
      frame.payload.getLast? = some (frame.payload.getD (frame.length - 1) 0) := by
    intro htwo
    rw [HdlcFrame.length] at htwo
    constructor
    · rw [List.head?_eq_getElem?, List.getD_eq_getElem?_getD, List.getElem?_eq_getElem (by omega), Option.getD_some]
    · rw [List.getLast?_eq_getElem?, List.getD_eq_getElem?_getD, HdlcFrame.length,
        List.getElem?_eq_getElem (show frame.payload.length - 1 < frame.payload.length by omega), Option.getD_some]
  rw [not_or, not_or, not_or, not_not, not_not, Nat.not_lt]
  constructor
  · intro h
    obtain ⟨hopen, hclose⟩ := hflags h.two_le_length
    refine ⟨Nat.pos_iff_ne_zero.mp h.capacity_pos, h.two_le_length, ?_, ?_⟩
    · exact Option.some.inj (hopen.symm.trans h.opens)
    · exact Option.some.inj (hclose.symm.trans h.closes)
  · rintro ⟨hcapacity, htwo, hopens, hcloses⟩
    obtain ⟨hopen, hclose⟩ := hflags htwo
    exact ⟨Nat.pos_iff_ne_zero.mpr hcapacity, htwo, by rw [hopen, hopens]; rfl, by rw [hclose, hcloses]; rfl⟩

section

variable {lsbFirst : Bool} {frame : HdlcFrame} {out_capacity : Nat}

theorem Delimited.decode_eq (h : Delimited frame out_capacity) {bits : List Bool} {bad : Bool}
    (hbits : destuff HDLC_BIT_STUFF_ONES_LIMIT 0 (interiorBits lsbFirst frame) = (bits, bad)) :
    hdlc_decode frame out_capacity lsbFirst =
      if out_capacity < bits.length / 8 then .error .payload_too_long
      else if bad then .error .unstuff_error
      else hdlc_check_crc (wholeBytes lsbFirst bits) := by
  have hguard := delimited_iff.mp h
  rw [not_or, not_or, not_or, not_not, not_not] at hguard
  exact hdlc_decode_eq h.capacity_pos h.two_le_length hguard.2.2.1 hguard.2.2.2 hbits

theorem hdlc_decode_of_not_delimited (h : ¬ Delimited frame out_capacity) :
    hdlc_decode frame out_capacity lsbFirst = .error .invalid_frame := by
  rw [delimited_iff, not_not] at h
  exact if_pos h

/-- Six ones in a row are noticed, unless the output is full before. -/
theorem Delimited.decode_of_six_ones (h : Delimited frame out_capacity) {i : Nat}
    (hones : OnesAt 6 i (interiorBits lsbFirst frame)) :
    ∃ error, hdlc_decode frame out_capacity lsbFirst = .error error := by
  have hbad : (destuff HDLC_BIT_STUFF_ONES_LIMIT 0 (interiorBits lsbFirst frame)).2 = true :=
    (destuff_bad_iff _ (Nat.zero_le _)).mpr ⟨i, hones⟩
  have hbits : destuff HDLC_BIT_STUFF_ONES_LIMIT 0 (interiorBits lsbFirst frame) =
      ((destuff HDLC_BIT_STUFF_ONES_LIMIT 0 (interiorBits lsbFirst frame)).1, true) := by rw [← hbad]
  rw [h.decode_eq hbits]
  split
  · exact ⟨_, rfl⟩
  · exact ⟨_, rfl⟩

theorem Delimited.decode_of_no_six_ones (h : Delimited frame out_capacity)
    (hnone : ∀ i, ¬ OnesAt 6 i (interiorBits lsbFirst frame)) :
    hdlc_decode frame out_capacity lsbFirst =
      if out_capacity < (interiorBytes lsbFirst frame).length then .error .payload_too_long
      else hdlc_check_crc (interiorBytes lsbFirst frame) := by
  have hgood : (destuff HDLC_BIT_STUFF_ONES_LIMIT 0 (interiorBits lsbFirst frame)).2 = false := by
    rw [← Bool.not_eq_true]
    intro hbad
    obtain ⟨i, hones⟩ := (destuff_bad_iff _ (Nat.zero_le _)).mp hbad
    exact hnone i hones
  have hbits : destuff HDLC_BIT_STUFF_ONES_LIMIT 0 (interiorBits lsbFirst frame) =
      (dropStuffed 5 0 (interiorBits lsbFirst frame), false) := Prod.ext (destuff_fst hgood) hgood
  rw [h.decode_eq hbits, interiorBytes, length_wholeBytes, if_neg Bool.false_ne_true]

/-- The decoder returns exactly the payload of the grammar. -/
theorem hdlc_decode_eq_ok_iff {payload : List UInt8} :
    hdlc_decode frame out_capacity lsbFirst = .ok payload ↔ FrameGrammar lsbFirst frame out_capacity payload := by
  constructor
  · intro hok
    have h : Delimited frame out_capacity := by
      by_contra h
      rw [hdlc_decode_of_not_delimited h] at hok
      cases hok
    have hnone : ∀ i, ¬ OnesAt 6 i (interiorBits lsbFirst frame) := by
      intro i hones
      obtain ⟨error, herror⟩ := h.decode_of_six_ones hones
      rw [herror] at hok
      cases hok
    rw [h.decode_of_no_six_ones hnone] at hok
    split at hok
    · cases hok
    · rename_i hfits
      by_cases htwo : 2 ≤ (interiorBytes lsbFirst frame).length
      · rw [hdlc_check_crc_eq htwo] at hok
        split at hok
        · rename_i hcrc
          cases hok
          exact ⟨h.two_le_length, h.capacity_pos, h.opens, h.closes, hnone, htwo, Nat.le_of_not_lt hfits, rfl,
            ((endsWithCrc_iff_crcResidue htwo).mpr hcrc).2⟩
        · cases hok
      · rw [hdlc_check_crc, if_pos (Nat.lt_of_not_le htwo)] at hok
        cases hok
  · intro h
    have hends : EndsWithCrc (interiorBytes lsbFirst frame) := ⟨h.two_le, h.payload_eq ▸ h.checksum⟩
    rw [Delimited.decode_of_no_six_ones ⟨h.capacity_pos, h.two_le_length, h.opens, h.closes⟩ h.no_six_ones,
      if_neg (Nat.not_lt_of_le h.fits), hdlc_check_crc_eq h.two_le,
      if_pos ((endsWithCrc_iff_crcResidue h.two_le).mp hends), ← h.payload_eq]

end

/-- The decoder accepts exactly the frames of the grammar. Everything else it
rejects with an empty payload and one count in one counter. -/
theorem hdlc_decode_accepts_grammar (stats : HdlcDecodeStats) (frame : HdlcFrame) (out_capacity : Nat)
    (lsb_first : Bool) :
    let call := hdlc_decode_call stats frame out_capacity lsb_first
    (∀ payload, (call.result = true ∧ call.payload = payload ∧ call.payload_length = payload.length) ↔
      FrameGrammar lsb_first frame out_capacity payload) ∧
    ((∀ payload, ¬ FrameGrammar lsb_first frame out_capacity payload) →
      call.result = false ∧ call.payload_length = 0 ∧
        ∃ error, ∀ other, call.stats.counter other = stats.counter other + if other = error then 1 else 0) := by
  simp only [← hdlc_decode_eq_ok_iff, hdlc_decode_call]
  cases hdlc_decode frame out_capacity lsb_first with
  | ok decoded =>
    refine ⟨fun payload => ?_, fun hrejected => absurd rfl (hrejected decoded)⟩
    constructor
    · rintro ⟨-, rfl, -⟩
      rfl
    · intro h
      cases h
      exact ⟨rfl, rfl, rfl⟩
  | error error =>
    refine ⟨fun payload => ?_, fun _ => ⟨rfl, rfl, error, counter_record stats error⟩⟩
    constructor
    · rintro ⟨h, -⟩
      cases h
    · intro h
      cases h

end ether2ser.hdlc_decoder
