import Ether2Ser.Hdlc.Stream
import Ether2Ser.Signals.Paced

open Bits Signals
open ether2ser.hdlc_common ether2ser.hdlc_encoder

namespace ether2ser.hdlc

variable {lsbFirst : Bool}

/-- The transmission of a payload in a buffer that its frame fills. -/
def Transmission.exact (lsbFirst : Bool) (gap : Nat) (payload : List UInt8) : Transmission lsbFirst where
  gap := gap
  payload := payload
  capacity := (encodedFrame lsbFirst payload).length
  frame := { payload := encodedFrame lsbFirst payload, capacity := (encodedFrame lsbFirst payload).length }
  encoded := by rw [hdlc_encode_eq, if_pos (Nat.le_refl _)]

/-- The frames of some payloads without gaps. -/
def frameBits (lsbFirst : Bool) (payloads : List (List UInt8)) : List Bool :=
  bytesBits lsbFirst (payloads.flatMap (encodedFrame lsbFirst))

theorem frameBits_append (lsbFirst : Bool) (payloads others : List (List UInt8)) :
    frameBits lsbFirst (payloads ++ others) = frameBits lsbFirst payloads ++ frameBits lsbFirst others := by
  rw [frameBits, List.flatMap_append, bytesBits_append]
  rfl

theorem frameBits_cons (lsbFirst : Bool) (payload : List UInt8) (payloads : List (List UInt8)) :
    frameBits lsbFirst (payload :: payloads) =
      bytesBits lsbFirst (encodedFrame lsbFirst payload) ++ frameBits lsbFirst payloads := by
  rw [frameBits, List.flatMap_cons, bytesBits_append]
  rfl

theorem map_payload_exact (lsbFirst : Bool) (payloads : List (List UInt8)) :
    (payloads.map (Transmission.exact lsbFirst 0)).map (·.payload) = payloads := by
  rw [List.map_map]
  exact List.map_id payloads

theorem streamBits_exact (lsbFirst : Bool) (payloads : List (List UInt8)) :
    streamBits (payloads.map (Transmission.exact lsbFirst 0)) 0 = frameBits lsbFirst payloads := by
  induction payloads with
  | nil => rfl
  | cons payload payloads ih =>
    rw [List.map_cons, streamBits, ih, frameBits_cons]
    rfl

/-- One more idle bit behind a stream. -/
theorem streamBits_idle (ts : List (Transmission lsbFirst)) (lastGap : Nat) :
    streamBits ts lastGap ++ [false] = streamBits ts (lastGap + 1) := by
  induction ts with
  | nil => rw [streamBits, streamBits, List.replicate_succ']
  | cons t ts ih => rw [streamBits, streamBits, List.append_assoc, List.append_assoc, ih]

/-- Another stream behind a stream, whose last gap is in front of it. -/
theorem streamBits_frame (ts : List (Transmission lsbFirst)) (gap : Nat) (payload : List UInt8)
    (behind : List (Transmission lsbFirst)) (lastGap : Nat) :
    streamBits ts gap ++ (bytesBits lsbFirst (encodedFrame lsbFirst payload) ++ streamBits behind lastGap) =
      streamBits (ts ++ Transmission.exact lsbFirst gap payload :: behind) lastGap := by
  induction ts with
  | nil => rfl
  | cons t ts ih =>
    rw [List.cons_append, streamBits, streamBits, ← ih]
    simp only [List.append_assoc]

/-- The last bit of some frames is idle. -/
theorem getLastD_frameBits (lsbFirst : Bool) (payloads : List (List UInt8)) :
    (frameBits lsbFirst payloads).getLastD false = false := by
  rcases List.eq_nil_or_concat payloads with rfl | ⟨front, payload, rfl⟩
  · rfl
  · have hflag : flagBits = [false, true, true, true, true, true, true] ++ [false] := rfl
    rw [List.concat_eq_append, frameBits_append, frameBits_cons, bytesBits_encodedFrame, hflag]
    rw [show frameBits lsbFirst [] = [] from rfl, List.append_nil]
    simp only [← List.append_assoc]
    exact List.getLastD_concat

theorem getLastD_append {l others : List Bool} (h : l.getLastD false = false) (h' : others.getLastD false = false) :
    (l ++ others).getLastD false = false := by
  rw [List.getLastD_eq_getLast?] at *
  rw [List.getLast?_append]
  cases hlast : others.getLast? with
  | none => exact h
  | some bit =>
    rw [hlast] at h'
    exact h'

/-- So is the last bit of a stream. -/
theorem getLastD_streamBits (ts : List (Transmission lsbFirst)) (lastGap : Nat) :
    (streamBits ts lastGap).getLastD false = false := by
  have hidle : ∀ gap : Nat, (List.replicate gap false).getLastD false = false := by
    intro gap
    cases gap with
    | zero => rfl
    | succ gap => rw [List.replicate_succ', List.getLastD_concat]
  induction ts with
  | nil => exact hidle lastGap
  | cons t ts ih =>
    have hframe := getLastD_frameBits lsbFirst [t.payload]
    rw [frameBits_cons, show frameBits lsbFirst [] = [] from rfl, List.append_nil, ← t.payload_frame] at hframe
    rw [streamBits]
    exact getLastD_append (hidle t.gap) (getLastD_append hframe ih)

theorem frame_ne_nil (lsbFirst : Bool) (payload : List UInt8) :
    0 < (bytesBits lsbFirst (encodedFrame lsbFirst payload)).length := by
  rw [length_bytesBits, encodedFrame]
  simp

/-- What has been read of the frames of some payloads: whole frames behind their
gaps, a gap, and a part of the next frame. -/
inductive PartlyRead (lsbFirst : Bool) (payloads : List (List UInt8)) : List Bool → List Bool → Prop where
  | mk (ts : List (Transmission lsbFirst)) (gap : Nat) (part : List Bool) (rest : List (List UInt8))
      (hpayloads : payloads = ts.map (·.payload) ++ rest)
      (hpart : ∀ payload ∈ rest.head?, part.length < (bytesBits lsbFirst (encodedFrame lsbFirst payload)).length)
      (hrest : part <+: frameBits lsbFirst rest) :
      PartlyRead lsbFirst payloads (frameBits lsbFirst (ts.map (·.payload)) ++ part) (streamBits ts gap ++ part)

/-- Reading a frame to its end. -/
theorem PartlyRead.whole (ts : List (Transmission lsbFirst)) (gap : Nat) (payload : List UInt8)
    (others : List (List UInt8)) :
    PartlyRead lsbFirst (ts.map (·.payload) ++ payload :: others)
      (frameBits lsbFirst (ts.map (·.payload)) ++ bytesBits lsbFirst (encodedFrame lsbFirst payload))
      (streamBits ts gap ++ bytesBits lsbFirst (encodedFrame lsbFirst payload)) := by
  have hframe := streamBits_frame ts gap payload [] 0
  rw [streamBits, List.replicate_zero, List.append_nil] at hframe
  have hsent : frameBits lsbFirst ((ts ++ [Transmission.exact lsbFirst gap payload]).map (·.payload)) =
      frameBits lsbFirst (ts.map (·.payload)) ++ bytesBits lsbFirst (encodedFrame lsbFirst payload) := by
    rw [List.map_append, frameBits_append, List.map_singleton, frameBits_cons]
    exact congrArg _ (List.append_nil _)
  rw [hframe, ← hsent, ← List.append_nil (frameBits _ _), ← List.append_nil (streamBits _ _)]
  refine .mk _ 0 [] others ?_ ?_ List.nil_prefix
  · rw [List.map_append, List.append_assoc]
    rfl
  · exact fun other _ => frame_ne_nil lsbFirst other

theorem PartlyRead.next {payloads : List (List UInt8)} {sent levels : List Bool} {bit : Bool}
    (h : PartlyRead lsbFirst payloads sent levels) (hsent : sent ++ [bit] <+: frameBits lsbFirst payloads) :
    PartlyRead lsbFirst payloads (sent ++ [bit]) (levels ++ [bit]) := by
  obtain ⟨ts, gap, part, rest, rfl, hpart, hrest⟩ := h
  rw [frameBits_append, List.append_assoc, List.prefix_append_right_inj] at hsent
  rw [List.append_assoc, List.append_assoc]
  cases rest with
  | nil => simp [frameBits] at hsent
  | cons payload others =>
    have hlt := hpart payload rfl
    by_cases hlast : (part ++ [bit]).length < (bytesBits lsbFirst (encodedFrame lsbFirst payload)).length
    · refine .mk ts gap _ _ rfl ?_ hsent
      intro other hother
      cases hother
      exact hlast
    · have hwhole : part ++ [bit] = bytesBits lsbFirst (encodedFrame lsbFirst payload) := by
        rw [frameBits_cons] at hsent
        have heq := List.prefix_iff_eq_take.mp hsent
        rw [List.length_append, List.length_singleton] at hlast heq
        rw [heq, show part.length + 1 = (bytesBits lsbFirst (encodedFrame lsbFirst payload)).length by omega,
          List.take_left]
      rw [hwhole]
      exact .whole ts gap payload others

/-- Between two frames, the line is idle. -/
theorem PartlyRead.hold {payloads whole behind : List (List UInt8)} {sent levels : List Bool}
    (h : PartlyRead lsbFirst payloads sent levels) (hwhole : payloads = whole ++ behind)
    (hlength : sent.length = (frameBits lsbFirst whole).length) :
    PartlyRead lsbFirst payloads sent (levels ++ [sent.getLastD false]) := by
  obtain ⟨ts, gap, part, rest, rfl, hpart, hrest⟩ := h
  have hnil : part = [] := by
    rw [← List.length_eq_zero_iff]
    rw [List.length_append] at hlength
    rcases List.append_eq_append_iff.mp hwhole with ⟨more, hmore, hleft⟩ | ⟨more, hmore, hleft⟩
    · rw [hmore, frameBits_append, List.length_append] at hlength
      cases more with
      | nil => simpa [frameBits] using hlength
      | cons payload others =>
        rw [hleft] at hpart
        have hlt := hpart payload rfl
        rw [frameBits_cons, List.length_append] at hlength
        omega
    · rw [hmore, frameBits_append, List.length_append] at hlength
      omega
  subst hnil
  have hidle := PartlyRead.mk ts (gap + 1) [] rest rfl hpart hrest
  rw [List.append_nil, ← streamBits_idle] at hidle
  rw [List.append_nil, List.append_nil, getLastD_frameBits]
  rw [List.append_nil] at hidle
  exact hidle

/-- What has been read goes on as a stream of the payloads. -/
theorem PartlyRead.stream {payloads : List (List UInt8)} {sent levels : List Bool}
    (h : PartlyRead lsbFirst payloads sent levels) :
    ∃ (ts : List (Transmission lsbFirst)) (lastGap : Nat) (behind : List Bool),
      ts.map (·.payload) = payloads ∧ levels ++ behind = streamBits ts lastGap ∧
        (sent = frameBits lsbFirst payloads → behind = []) := by
  obtain ⟨ts, gap, part, rest, rfl, hpart, hrest⟩ := h
  cases rest with
  | nil =>
    have hnil : part = [] := List.prefix_nil.mp hrest
    subst hnil
    refine ⟨ts, gap, [], (List.append_nil _).symm, ?_, fun _ => rfl⟩
    rw [List.append_nil, List.append_nil]
  | cons payload others =>
    have hlt := hpart payload rfl
    rw [frameBits_cons] at hrest
    obtain ⟨more, hmore⟩ := List.prefix_of_prefix_length_le hrest (List.prefix_append _ _) (Nat.le_of_lt hlt)
    refine ⟨ts ++ Transmission.exact lsbFirst gap payload :: others.map (Transmission.exact lsbFirst 0), 0,
      more ++ streamBits (others.map (Transmission.exact lsbFirst 0)) 0, ?_, ?_, ?_⟩
    · rw [List.map_append, List.map_cons, map_payload_exact]
      rfl
    · rw [← streamBits_frame, ← hmore, List.append_assoc, List.append_assoc]
    · intro hall
      rw [frameBits_append, List.append_cancel_left_eq, frameBits_cons] at hall
      rw [hall, List.length_append] at hlt
      omega

/-- A line on which the frames of some payloads are sent, and which is held between
two of them only, carries a stream of the payloads. -/
theorem stream_of_held {mayHold : Nat → Prop} {payloads : List (List UInt8)} {sent levels : List Bool}
    (h : Held mayHold false sent levels)
    (hmay : ∀ count, mayHold count → ∃ whole behind, payloads = whole ++ behind ∧
      count = (frameBits lsbFirst whole).length)
    (hsent : sent <+: frameBits lsbFirst payloads) :
    ∃ (ts : List (Transmission lsbFirst)) (lastGap : Nat) (behind : List Bool),
      ts.map (·.payload) = payloads ∧ levels ++ behind = streamBits ts lastGap ∧
        (sent = frameBits lsbFirst payloads → behind = []) := by
  refine PartlyRead.stream ?_
  induction h with
  | start => exact .mk [] 0 [] payloads rfl (fun payload _ => frame_ne_nil lsbFirst payload) List.nil_prefix
  | next bit _ ih => exact (ih ((List.prefix_append _ _).trans hsent)).next hsent
  | hold hlength _ ih =>
    obtain ⟨whole, behind, hwhole, hcount⟩ := hmay _ hlength
    exact (ih hsent).hold hwhole hcount

end ether2ser.hdlc
