import Ether2Ser.Hdlc.Decoder.Frame
import Ether2Ser.Hdlc.Encoder

open ether2ser.hdlc_common ether2ser.hdlc_encoder

namespace ether2ser.hdlc_encoder

/-- The bytes that need an escape. -/
def isSpecial (byte : UInt8) : Bool := byte = 0x7E || byte = 0x7D

/-- The bytes sent for one byte. -/
def escape (byte : UInt8) : List UInt8 :=
  if isSpecial byte then [HDLC_ESCAPE_BYTE, byte ^^^ HDLC_ESCAPE_XOR] else [byte]

def escaped (bytes : List UInt8) : List UInt8 := bytes.flatMap escape

/-- Append bytes to a frame that has room for all of them. -/
def appendIfFits (bytes : List UInt8) (frame : HdlcFrame) : Option HdlcFrame :=
  if frame.length + bytes.length ≤ frame.capacity then some { frame with payload := frame.payload ++ bytes } else none

theorem appendIfFits_nil {frame : HdlcFrame} (hfits : frame.length ≤ frame.capacity) :
    appendIfFits [] frame = some frame := by
  simp [appendIfFits, hfits]

theorem appendIfFits_append (first second : List UInt8) (frame : HdlcFrame) :
    (appendIfFits first frame).bind (appendIfFits second) = appendIfFits (first ++ second) frame := by
  have hsum : frame.length + (first ++ second).length = frame.length + first.length + second.length := by
    rw [List.length_append, Nat.add_assoc]
  unfold appendIfFits
  rw [hsum]
  by_cases hfirst : frame.length + first.length ≤ frame.capacity
  · have hnext : HdlcFrame.length { frame with payload := frame.payload ++ first } = frame.length + first.length :=
      List.length_append
    rw [if_pos hfirst, Option.bind_some, hnext, List.append_assoc]
  · rw [if_neg hfirst, if_neg (by omega)]
    rfl

theorem hdlc_try_put_byte_eq (byte : UInt8) (frame : HdlcFrame) :
    hdlc_try_put_byte byte frame = appendIfFits [byte] frame := by
  simp only [hdlc_try_put_byte, appendIfFits, List.length_singleton]
  by_cases hroom : frame.length + 1 ≤ frame.capacity
  · rw [if_neg (by omega), if_pos hroom]
  · rw [if_pos (by omega), if_neg hroom]

theorem hdlc_escape_if_needed_eq (byte : UInt8) (frame : HdlcFrame) :
    hdlc_escape_if_needed byte frame = appendIfFits (escape byte) frame := by
  have hspecial : (byte = HDLC_FLAG_BYTE ∨ byte = HDLC_ESCAPE_BYTE) ↔ isSpecial byte = true := by
    simp [isSpecial, HDLC_FLAG_BYTE, HDLC_ESCAPE_BYTE]
  unfold hdlc_escape_if_needed escape
  simp only [hspecial, hdlc_try_put_byte_eq]
  split
  · exact appendIfFits_append [HDLC_ESCAPE_BYTE] [byte ^^^ HDLC_ESCAPE_XOR] frame
  · rfl

/-- Behind an append that fits, a frame holds at most its capacity. -/
theorem appendIfFits_bind_congr {bytes : List UInt8} {frame : HdlcFrame} {f g : HdlcFrame → Option HdlcFrame}
    (h : ∀ next : HdlcFrame, next.length ≤ next.capacity → f next = g next) :
    (appendIfFits bytes frame).bind f = (appendIfFits bytes frame).bind g := by
  unfold appendIfFits
  split
  · rename_i hroom
    apply h
    rwa [HdlcFrame.length, List.length_append]
  · rfl

theorem foldlM_appendIfFits_escape (payload : List UInt8) {frame : HdlcFrame} (hfits : frame.length ≤ frame.capacity) :
    payload.foldlM (fun frame byte => appendIfFits (escape byte) frame) frame =
      appendIfFits (escaped payload) frame := by
  induction payload generalizing frame with
  | nil => exact (appendIfFits_nil hfits).symm
  | cons byte payload ih =>
    rw [List.foldlM_cons, escaped, List.flatMap_cons, ← appendIfFits_append]
    exact appendIfFits_bind_congr fun next hnext => ih hnext

/-- The complete frame of a payload. -/
def escapedFrame (payload : List UInt8) : List UInt8 :=
  HDLC_FLAG_BYTE :: escaped (payload ++ crcBytes (hdlc_crc16 payload)) ++ [HDLC_FLAG_BYTE]

theorem hdlc_encode_byte_body_eq (payload : List UInt8) (capacity : Nat) :
    hdlc_encode_byte_body payload (.empty capacity) = appendIfFits (escapedFrame payload) (.empty capacity) := by
  by_cases hcapacity : 2 ≤ capacity
  · have hframe : escapedFrame payload =
        [HDLC_FLAG_BYTE] ++ (escaped payload ++
          (escape ((hdlc_crc16 payload >>> 8) &&& 0xFF).toUInt8 ++
            (escape (hdlc_crc16 payload &&& 0xFF).toUInt8 ++ [HDLC_FLAG_BYTE]))) := by
      simp [escapedFrame, escaped, crcBytes]
    have hguard : ¬ ((HdlcFrame.empty capacity).capacity < 2 ∨ (HdlcFrame.empty capacity).length ≠ 0) := by
      simp only [HdlcFrame.empty, HdlcFrame.length, List.length_nil]
      omega
    rw [hdlc_encode_byte_body, if_neg hguard, hframe, ← appendIfFits_append]
    simp only [hdlc_try_put_byte_eq, hdlc_escape_if_needed_eq, Option.bind_eq_bind]
    refine appendIfFits_bind_congr fun frame hfits => ?_
    rw [foldlM_appendIfFits_escape payload hfits, ← appendIfFits_append]
    refine congrArg (Option.bind _) (funext fun frame => ?_)
    rw [← appendIfFits_append]
    refine congrArg (Option.bind _) (funext fun frame => ?_)
    rw [← appendIfFits_append]
  · have hlong : ¬ (HdlcFrame.empty capacity).length + (escapedFrame payload).length ≤
        (HdlcFrame.empty capacity).capacity := by
      simp only [HdlcFrame.empty, HdlcFrame.length, escapedFrame, List.length_cons, List.length_append,
        List.length_nil]
      omega
    rw [hdlc_encode_byte_body, if_pos (.inl (Nat.lt_of_not_le hcapacity)), appendIfFits, if_neg hlong]

theorem hdlc_encode_byte_eq (payload : List UInt8) (capacity : Nat) :
    hdlc_encode_byte payload (.empty capacity) =
      if (escapedFrame payload).length ≤ capacity then (true, { payload := escapedFrame payload, capacity })
      else (false, .empty capacity) := by
  have hlength : (HdlcFrame.empty capacity).length + (escapedFrame payload).length = (escapedFrame payload).length :=
    Nat.zero_add _
  rw [hdlc_encode_byte, hdlc_encode_byte_body_eq, appendIfFits, hlength]
  by_cases hfits : (escapedFrame payload).length ≤ capacity
  · rw [if_pos hfits, if_pos (show _ ≤ (HdlcFrame.empty capacity).capacity from hfits)]
    rfl
  · rw [if_neg hfits, if_neg (show ¬ _ ≤ (HdlcFrame.empty capacity).capacity from hfits)]
    rfl

theorem length_escaped (bytes : List UInt8) : (escaped bytes).length = bytes.length + bytes.countP isSpecial := by
  induction bytes with
  | nil => rfl
  | cons byte bytes ih =>
    rw [escaped, List.flatMap_cons, List.length_append, List.countP_cons, List.length_cons]
    rw [escaped] at ih
    rw [ih, escape]
    split
    · simp only [List.length_cons, List.length_nil]
      omega
    · simp only [List.length_cons, List.length_nil]
      omega

theorem length_escapedFrame (payload : List UInt8) :
    (escapedFrame payload).length =
      4 + payload.length + (payload ++ crcBytes (hdlc_crc16 payload)).countP isSpecial := by
  rw [escapedFrame, List.length_append, List.length_cons, length_escaped, List.length_append, length_crcBytes,
    List.length_singleton]
  omega

/-- An escaped flag is no flag, and neither is an escape. -/
theorem flag_not_mem_escape (byte : UInt8) : 0x7E ∉ escape byte := by
  rw [escape]
  split
  · rename_i hspecial
    have hbyte : byte = 0x7E ∨ byte = 0x7D := by simpa [isSpecial] using hspecial
    obtain rfl | rfl := hbyte
    · decide
    · decide
  · rename_i hplain
    intro hflag
    rw [List.mem_singleton] at hflag
    subst hflag
    exact hplain rfl

theorem flag_not_mem_escaped (bytes : List UInt8) : 0x7E ∉ escaped bytes := by
  intro hflag
  obtain ⟨byte, -, hbyte⟩ := List.mem_flatMap.mp hflag
  exact flag_not_mem_escape byte hbyte

end ether2ser.hdlc_encoder

namespace ether2ser.hdlc_decoder

/-- The loop of `hdlc_decode_byte` on the bytes that it reads. -/
def unescape (out_capacity : Nat) : List UInt8 → Bool → List UInt8 → Except HdlcDecodeError (List UInt8)
  | [], _, payload => .ok payload
  | byte :: rest, found_escape, payload =>
    if byte = HDLC_ESCAPE_BYTE then unescape out_capacity rest true payload
    else if payload.length ≥ out_capacity then .error .payload_too_long
    else unescape out_capacity rest false (payload ++ [if found_escape then byte ^^^ HDLC_ESCAPE_XOR else byte])

theorem hdlc_decode_byte_loop_eq (frame : HdlcFrame) (out_capacity : Nat) (indices : List Nat) (found_escape : Bool)
    (payload : List UInt8) :
    hdlc_decode_byte_loop frame out_capacity indices found_escape payload =
      unescape out_capacity (indices.map (frame.payload.getD · 0)) found_escape payload := by
  induction indices generalizing found_escape payload with
  | nil => rfl
  | cons index indices ih => simp only [hdlc_decode_byte_loop, List.map_cons, unescape, ih]

theorem unescape_escaped {out_capacity : Nat} (bytes payload : List UInt8)
    (hroom : payload.length + bytes.length ≤ out_capacity) :
    unescape out_capacity (escaped bytes) false payload = .ok (payload ++ bytes) := by
  induction bytes generalizing payload with
  | nil => rw [escaped, List.flatMap_nil, unescape, List.append_nil]
  | cons byte bytes ih =>
    rw [List.length_cons] at hroom
    have hnext := ih (payload ++ [byte]) (by rw [List.length_append, List.length_singleton]; omega)
    have hspace : ¬ payload.length ≥ out_capacity := by omega
    rw [List.append_assoc, List.singleton_append, escaped] at hnext
    rw [escaped, List.flatMap_cons, escape]
    split
    · rename_i hspecial
      have hbyte : byte = 0x7E ∨ byte = 0x7D := by simpa [isSpecial] using hspecial
      have hplain : byte ^^^ HDLC_ESCAPE_XOR ≠ HDLC_ESCAPE_BYTE := by
        obtain rfl | rfl := hbyte
        · decide
        · decide
      have hback : byte ^^^ HDLC_ESCAPE_XOR ^^^ HDLC_ESCAPE_XOR = byte := by
        rw [UInt8.xor_assoc, UInt8.xor_self, UInt8.xor_zero]
      simp only [List.cons_append, List.nil_append, unescape, if_true, hplain, if_false, hspace, hback, hnext]
    · rename_i hspecial
      have hplain : byte ≠ HDLC_ESCAPE_BYTE := by
        rintro rfl
        exact hspecial rfl
      simp only [List.cons_append, List.nil_append, unescape, hplain, if_false, hspace, Bool.false_eq_true, hnext]

/-- The decoder reads the bytes between the flags. -/
theorem map_getD_interior (interior : List UInt8) :
    (List.range' 1 interior.length).map
      ((HDLC_FLAG_BYTE :: interior ++ [HDLC_FLAG_BYTE]).getD · 0) = interior := by
  apply List.ext_getElem?
  intro i
  rw [List.getElem?_map]
  by_cases hi : i < interior.length
  · rw [List.getElem?_range' hi, Option.map_some, List.getD_eq_getElem?_getD, Nat.one_mul, Nat.add_comm 1 i,
      List.cons_append, List.getElem?_cons_succ, List.getElem?_append_left hi, List.getElem?_eq_getElem hi,
      Option.getD_some]
  · rw [List.getElem?_eq_none (by simpa using hi), List.getElem?_eq_none (by omega)]
    rfl

theorem hdlc_decode_byte_escapedFrame (payload : List UInt8) (capacity : Nat) {out_capacity : Nat}
    (hroom : payload.length + 2 ≤ out_capacity) :
    hdlc_decode_byte { payload := escapedFrame payload, capacity } out_capacity = .ok payload := by
  have hinterior : (HdlcFrame.mk (escapedFrame payload) capacity).length - 1 - 1 =
      (escaped (payload ++ crcBytes (hdlc_crc16 payload))).length := by
    simp [HdlcFrame.length, escapedFrame]
  have hclose : (escapedFrame payload).getD
      ((HdlcFrame.mk (escapedFrame payload) capacity).length - 1) 0 = HDLC_FLAG_BYTE := by
    simp [HdlcFrame.length, escapedFrame, List.getD_eq_getElem?_getD]
  have hguard : ¬ (out_capacity = 0 ∨ (escapedFrame payload).getD 0 0 ≠ HDLC_FLAG_BYTE ∨
      (escapedFrame payload).getD
        ((HdlcFrame.mk (escapedFrame payload) capacity).length - 1) 0 ≠ HDLC_FLAG_BYTE) := by
    rintro (h | h | h)
    · omega
    · exact h rfl
    · exact h hclose
  have hloop := @unescape_escaped out_capacity (payload ++ crcBytes (hdlc_crc16 payload)) []
    (by rw [List.length_append, length_crcBytes, List.length_nil]; omega)
  rw [hdlc_decode_byte, if_neg hguard, hinterior, hdlc_decode_byte_loop_eq, escapedFrame,
    map_getD_interior, hloop, List.nil_append]
  exact hdlc_check_crc_append payload

/-- Round trip of the byte-escaping codec. The encoder succeeds exactly when
the escaped frame fits, and no flag occurs inside it. -/
theorem hdlc_encode_byte_round_trip (payload : List UInt8) (capacity : Nat) :
    ((hdlc_encode_byte payload (.empty capacity)).1 = true →
      0x7E ∉ (hdlc_encode_byte payload (.empty capacity)).2.payload.tail.dropLast ∧
      ∀ out_capacity, payload.length + 2 ≤ out_capacity →
        hdlc_decode_byte (hdlc_encode_byte payload (.empty capacity)).2 out_capacity = .ok payload) ∧
    ((hdlc_encode_byte payload (.empty capacity)).1 = true ↔ 4 + payload.length +
      (payload ++ crcBytes (hdlc_crc16 payload)).countP (fun byte => byte = 0x7E || byte = 0x7D) ≤ capacity) ∧
    ((hdlc_encode_byte payload (.empty capacity)).1 = false →
      (hdlc_encode_byte payload (.empty capacity)).2.length = 0) := by
  have hlength := length_escapedFrame payload
  have hspecial : isSpecial = fun byte => byte = 0x7E || byte = 0x7D := rfl
  simp only [hdlc_encode_byte_eq]
  rw [hspecial] at hlength
  rw [← hlength]
  by_cases hfits : (escapedFrame payload).length ≤ capacity
  · simp only [hfits, if_true]
    refine ⟨fun _ => ⟨?_, fun _ hroom => hdlc_decode_byte_escapedFrame payload capacity hroom⟩, trivial, ?_⟩
    · rw [escapedFrame, List.cons_append, List.tail_cons, List.dropLast_concat]
      exact flag_not_mem_escaped _
    · intro hfalse
      cases hfalse
  · simp only [hfits, if_false]
    refine ⟨fun htrue => ?_, iff_of_false Bool.false_ne_true (fun h => h), fun _ => rfl⟩
    cases htrue

end ether2ser.hdlc_decoder
