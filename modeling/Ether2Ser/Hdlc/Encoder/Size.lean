import Ether2Ser.Hdlc.Encoder.Access
import Ether2Ser.Hdlc.RoundTrip

open Bits Traced
open ether2ser.hdlc ether2ser.hdlc_common

namespace ether2ser.hdlc_encoder

/-- The number of zeros stuffed into a payload followed by its checksum. -/
def stuffedZeros (lsbFirst : Bool) (payload : List UInt8) : Nat :=
  stuffCount 5 0 (bytesBits lsbFirst (payload ++ crcBytes (hdlc_crc16 payload)))

/-- Two flags and the whole bytes that hold payload, checksum and stuffed
zeros. -/
def frameLength (lsbFirst : Bool) (payload : List UInt8) : Nat :=
  2 + (8 * (payload.length + 2) + stuffedZeros lsbFirst payload + 7) / 8

theorem length_encodedFrame (lsbFirst : Bool) (payload : List UInt8) :
    (encodedFrame lsbFirst payload).length = frameLength lsbFirst payload := by
  have hcontent : (contentBits lsbFirst payload).length = 8 * (payload.length + 2) + stuffedZeros lsbFirst payload := by
    rw [contentBits, length_stuff, length_bytesBits, List.length_append, length_crcBytes]
    rfl
  have hpacked := length_packBits lsbFirst (contentBits lsbFirst payload)
  rw [hcontent] at hpacked
  simp only [encodedFrame, List.length_cons, List.length_append, List.length_nil, hpacked, frameLength]
  omega

/-- The encoder succeeds exactly when the frame fits. It never writes beyond
the capacity, and worst-case stuffing still leaves every payload of 1703 bytes
room in a queue entry of 2048 bytes. -/
theorem hdlc_encode_fits (payload : List UInt8) (capacity : Nat) (lsb_first : Bool) :
    ((hdlc_encode payload (.empty capacity) lsb_first).1 = true ↔ frameLength lsb_first payload ≤ capacity) ∧
    ((hdlc_encode payload (.empty capacity) lsb_first).1 = true →
      (hdlc_encode payload (.empty capacity) lsb_first).2.length = frameLength lsb_first payload) ∧
    ((hdlc_encode payload (.empty capacity) lsb_first).1 = false →
      (hdlc_encode payload (.empty capacity) lsb_first).2.length = 0) ∧
    (encoding.encode payload (.empty capacity) lsb_first).value = hdlc_encode payload (.empty capacity) lsb_first ∧
    (∀ index ∈ (encoding.encode payload (.empty capacity) lsb_first).accesses, index < capacity) ∧
    frameLength lsb_first payload ≤ 2 + (6 * (payload.length + 2) + 4) / 5 ∧
    (payload.length ≤ 1703 → frameLength lsb_first payload ≤ 2048) := by
  have hbound := length_encodedFrame_le lsb_first payload
  simp only [encoding.value_encode, hdlc_encode_eq, length_encodedFrame] at hbound ⊢
  refine ⟨?_, ?_, ?_, trivial, encoding.safe_encode payload (.empty capacity) lsb_first, hbound, fun _ => by omega⟩
  · split
    · rename_i hfits
      exact iff_of_true rfl hfits
    · rename_i hfits
      exact iff_of_false Bool.false_ne_true hfits
  · split
    · exact fun _ => length_encodedFrame lsb_first payload
    · intro hfalse
      cases hfalse
  · split
    · intro htrue
      cases htrue
    · exact fun _ => rfl

end ether2ser.hdlc_encoder
