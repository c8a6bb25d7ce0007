import Ether2Ser.Bits.Bytes

namespace ether2ser.hdlc_common

def HDLC_FLAG_BYTE : UInt8 := 0x7E
def HDLC_ESCAPE_BYTE : UInt8 := 0x7D
def HDLC_ESCAPE_XOR : UInt8 := 0x20

/-- Number of bits in a byte on the target. -/
def CHAR_BIT : Nat := 8

/-- `HDLC_FRAME_T`. The list holds the valid bytes of the buffer, so that its
length is the descriptor's length field. -/
structure HdlcFrame where
  payload : List UInt8
  capacity : Nat
  deriving DecidableEq, Repr

def HdlcFrame.length (frame : HdlcFrame) : Nat := frame.payload.length

/-- An empty frame descriptor over a buffer of the given size. -/
def HdlcFrame.empty (capacity : Nat) : HdlcFrame := { payload := [], capacity }

def HDLC_CRC16_CCITT_INIT : UInt16 := 0xFFFF
def HDLC_CRC16_CCITT_POLY : UInt16 := 0x1021
def HDLC_CRC16_CCITT_MSB_MASK : UInt16 := 0x8000
def HDLC_CRC16_BITS_PER_BYTE : Nat := 8

/-- One turn of the inner loop of the CRC. -/
def crc16_shift (crc16 : UInt16) : UInt16 :=
  if crc16 &&& HDLC_CRC16_CCITT_MSB_MASK ≠ 0 then (crc16 <<< 1) ^^^ HDLC_CRC16_CCITT_POLY else crc16 <<< 1

/-- One turn of the outer loop of the CRC. -/
def crc16_byte (crc16 : UInt16) (byte : UInt8) : UInt16 :=
  Nat.repeat crc16_shift HDLC_CRC16_BITS_PER_BYTE (crc16 ^^^ (byte.toUInt16 <<< 8))

def crc16_ccitt_false (payload : List UInt8) : UInt16 :=
  payload.foldl crc16_byte HDLC_CRC16_CCITT_INIT &&& HDLC_CRC16_CCITT_INIT

def hdlc_crc16 (payload : List UInt8) : UInt16 := crc16_ccitt_false payload

/-- High and low byte of a checksum, as the encoders append them. -/
def crcBytes (crc16 : UInt16) : List UInt8 := [((crc16 >>> 8) &&& 0xFF).toUInt8, (crc16 &&& 0xFF).toUInt8]

/-- A checksum as the decoders read it from two bytes. -/
def crcOfBytes (high low : UInt8) : UInt16 := (high.toUInt16 <<< 8) ||| low.toUInt16

@[simp]
theorem length_crcBytes (crc16 : UInt16) : (crcBytes crc16).length = 2 := rfl

theorem toNat_crcOfBytes (high low : UInt8) : (crcOfBytes high low).toNat = high.toNat * 256 + low.toNat := by
  have hhigh := high.toNat_lt
  have hlow := low.toNat_lt
  have hshift : high.toUInt16.toNat <<< ((8 : UInt16).toNat % 16) % 2 ^ 16 = high.toNat <<< 8 := by
    simp [Nat.shiftLeft_eq]
    omega
  rw [crcOfBytes, UInt16.toNat_or, UInt16.toNat_shiftLeft, hshift, UInt8.toNat_toUInt16,
    ← Nat.shiftLeft_add_eq_or_of_lt (by omega), Nat.shiftLeft_eq]

theorem toNat_crcBytes (crc16 : UInt16) :
    ((crc16 >>> 8) &&& 0xFF).toUInt8.toNat = crc16.toNat / 256 ∧
      (crc16 &&& 0xFF).toUInt8.toNat = crc16.toNat % 256 := by
  have hlt := crc16.toNat_lt
  have hand : ∀ n : Nat, n &&& 255 = n % 256 := Nat.and_two_pow_sub_one_eq_mod (n := 8)
  constructor
  · simp [hand, Nat.shiftRight_eq_div_pow]
    omega
  · simp [hand]

/-- The two appended bytes read back as the checksum. -/
theorem crcOfBytes_crcBytes (crc16 : UInt16) :
    crcOfBytes ((crc16 >>> 8) &&& 0xFF).toUInt8 (crc16 &&& 0xFF).toUInt8 = crc16 := by
  obtain ⟨hhigh, hlow⟩ := toNat_crcBytes crc16
  apply UInt16.toNat_inj.mp
  rw [toNat_crcOfBytes, hhigh, hlow]
  omega

/-- Two bytes read as a checksum are the bytes that would be appended for it. -/
theorem crcBytes_crcOfBytes (high low : UInt8) : crcBytes (crcOfBytes high low) = [high, low] := by
  obtain ⟨hhigh, hlow⟩ := toNat_crcBytes (crcOfBytes high low)
  have hlt := low.toNat_lt
  rw [toNat_crcOfBytes] at hhigh hlow
  rw [crcBytes, List.cons.injEq, List.cons.injEq]
  refine ⟨UInt8.toNat_inj.mp ?_, UInt8.toNat_inj.mp ?_, rfl⟩
  · rw [hhigh]
    omega
  · rw [hlow]
    omega

/-- Two bytes are the checksum as it is appended exactly if they read as it. -/
theorem eq_crcBytes_iff {crc16 : UInt16} {high low : UInt8} :
    [high, low] = crcBytes crc16 ↔ crcOfBytes high low = crc16 := by
  constructor
  · intro h
    rw [crcBytes, List.cons.injEq, List.cons.injEq] at h
    rw [h.1, h.2.1, crcOfBytes_crcBytes]
  · rintro rfl
    exact (crcBytes_crcOfBytes high low).symm

end ether2ser.hdlc_common
