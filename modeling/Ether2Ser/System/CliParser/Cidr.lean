import Ether2Ser.Bits.Bytes
import Ether2Ser.System.CliParser.Numbers

open Bits Text ether2ser.error ether2ser.event_queue

namespace ether2ser.cli_parser

/-- The numerals before the slash, with the octets of an address as their values. -/
def Written (before : List Char) (ip_addr : Ipv4) : Prop :=
  ∃ numerals : List Numeral, before = ['.'].intercalate (numerals.map Numeral.text) ∧
    List.Forall₂ (fun numeral octet => numeral.value = octet.toNat) numerals (octetsOf ip_addr)

/-- The ones and the zeros of a mask, the most significant bit first. -/
def maskBits (ones : Nat) : List Bool := List.replicate ones true ++ List.replicate (32 - ones) false

/-- What `parse_set_ip_args` accepts as `A/P` is the address and the mask of P bits. -/
def CidrSound (args : List Char) : Prop :=
  ∀ ip_addr netmask before behind, parse_set_ip_args args = .ok (ip_addr, netmask) →
    skipOptional "ip".toList args = before ++ '/' :: behind → '/' ∉ before → IsDigits behind →
    decimal behind ≤ 32 ∧ bytesBits false (octetsOf netmask) = maskBits (decimal behind) ∧ Written before ip_addr

/-- `parse_set_ip_args` accepts every `a.b.c.d/P` that is short enough. -/
def CidrComplete (args : List Char) : Prop :=
  ∀ texts digits, texts.length = 4 → (∀ text ∈ texts, IsDigits text ∧ decimal text ≤ UINT8_MAX) → IsDigits digits →
    decimal digits ≤ 32 → skipOptional "ip".toList args = ['.'].intercalate texts ++ '/' :: digits →
    (skipOptional "ip".toList args).length < 32 → ∃ result, parse_set_ip_args args = .ok result

/-- An address with a number of bits above 255 whose lowest byte is at most 32, or
with a negative octet that `strtoul` brings into range. -/
def Misread (text : List Char) : Prop :=
  ∃ (numerals : List Numeral) (digits : List Char), numerals.length = 4 ∧ text.length < 32 ∧
    text = ['.'].intercalate (numerals.map Numeral.text) ++ '/' :: digits ∧
    (∀ numeral ∈ numerals, numeral.Within UINT8_MAX) ∧ IsDigits digits ∧ decimal digits ≤ ULONG_MAX ∧
    decimal digits % 256 ≤ 32 ∧ (256 ≤ decimal digits ∨ ∃ numeral ∈ numerals, numeral.value < 0)

theorem prefix_to_mask_check : ∀ ones : Fin 33,
    (prefix_to_mask (UInt8.ofNat ones)).map (fun netmask => bytesBits false (octetsOf netmask)) =
      some (maskBits ones) := by decide

theorem prefix_to_mask_of_le {prefix_length : UInt8} (hle : prefix_length.toNat ≤ 32) :
    ∃ netmask, prefix_to_mask prefix_length = some netmask ∧
      bytesBits false (octetsOf netmask) = maskBits prefix_length.toNat := by
  have hcheck := prefix_to_mask_check ⟨prefix_length.toNat, Nat.lt_succ_of_le hle⟩
  rw [UInt8.ofNat_toNat] at hcheck
  exact Option.map_eq_some_iff.mp hcheck

theorem prefix_to_mask_of_gt {prefix_length : UInt8} (hgt : 32 < prefix_length.toNat) :
    prefix_to_mask prefix_length = none := if_pos hgt

theorem parse_set_ip_args_eq_ok {args before behind : List Char} {ip_addr netmask : Ipv4}
    (htext : skipOptional "ip".toList args = before ++ '/' :: behind) (hbefore : '/' ∉ before) :
    parse_set_ip_args args = .ok (ip_addr, netmask) ↔
      (skipOptional "ip".toList args).length < 32 ∧ parse_ipv4_strict before = some ip_addr ∧
        ∃ prefix_length, parse_u32_strict behind = some prefix_length ∧
          prefix_to_mask prefix_length.toUInt8 = some netmask := by
  obtain ⟨htake, hdrop⟩ := span_ne_append behind hbefore
  rw [← htext] at htake hdrop
  simp only [parse_set_ip_args, htake, hdrop]
  by_cases hlength : (skipOptional "ip".toList args).length < 32
  · rw [if_neg (Nat.not_le.mpr hlength), and_iff_right hlength]
    cases parse_u32_strict behind with
    | none => simp
    | some prefix_length =>
      cases parse_ipv4_strict before with
      | none => simp
      | some address =>
        cases hmask : prefix_to_mask prefix_length.toUInt8 <;> simp [hmask]
  · rw [if_pos (Nat.le_of_not_lt hlength)]
    exact ⟨nofun, fun h => absurd h.1 hlength⟩

theorem toNat_toUInt8_eq_mod (prefix_length : UInt32) : prefix_length.toUInt8.toNat = prefix_length.toNat % 256 := rfl

/-- The number that the digits behind the slash denote. -/
theorem parse_u32_strict_digits {digits : List Char} (hdigits : IsDigits digits) {value : UInt32} :
    parse_u32_strict digits = some value ↔ decimal digits = value.toNat := by
  rw [parse_u32_strict_eq_some]
  constructor
  · rintro ⟨numeral, rfl, hmagnitude, hword⟩
    rw [← hword, numeral.word_of_plain (numeral.plain_of_isDigits hdigits) hmagnitude]
  · intro hvalue
    have hle : decimal digits ≤ ULONG_MAX := hvalue.le.trans (Nat.le_of_lt_succ value.toNat_lt)
    obtain ⟨hwithin, hword⟩ := Numeral.within_ofDigits hdigits (Nat.le_refl _) hle
    exact ⟨_, (Numeral.text_ofDigits hdigits).symm, hwithin.1, hword.trans hvalue⟩

theorem not_slash_mem_numerals (numerals : List Numeral) :
    '/' ∉ ['.'].intercalate (numerals.map Numeral.text) := by
  apply not_mem_intercalate (by decide)
  rw [List.forall_mem_map]
  exact fun numeral _ => numeral.not_mem_text (by decide) (by decide) (by decide) (by decide)

/-- An address in range with a number of bits whose lowest byte is at most 32 is accepted. -/
theorem parse_set_ip_args_accepts {args : List Char} {numerals : List Numeral} {digits : List Char}
    (hlength : numerals.length = 4) (hwithin : ∀ numeral ∈ numerals, numeral.Within UINT8_MAX)
    (hdigits : IsDigits digits) (hmax : decimal digits ≤ ULONG_MAX) (hlow : decimal digits % 256 ≤ 32)
    (htext : skipOptional "ip".toList args = ['.'].intercalate (numerals.map Numeral.text) ++ '/' :: digits)
    (hshort : (skipOptional "ip".toList args).length < 32) :
    ∃ ip_addr netmask, parse_set_ip_args args = .ok (ip_addr, netmask) := by
  obtain ⟨ip_addr, hdenote⟩ := exists_denote hlength hwithin
  have hvalue : decimal digits = (UInt32.ofNat (decimal digits)).toNat :=
    (UInt32.toNat_ofNat_of_lt' (Nat.lt_succ_of_le hmax)).symm
  have hparsed : (UInt32.ofNat (decimal digits)).toUInt8.toNat ≤ 32 := by
    rwa [toNat_toUInt8_eq_mod, ← hvalue]
  obtain ⟨netmask, hmask, -⟩ := prefix_to_mask_of_le hparsed
  refine ⟨ip_addr, netmask, (parse_set_ip_args_eq_ok htext (not_slash_mem_numerals numerals)).mpr ⟨hshort, ?_, ?_⟩⟩
  · exact parse_ipv4_strict_eq_some.mpr ⟨numerals, hlength, rfl, hdenote⟩
  · exact ⟨_, (parse_u32_strict_digits hdigits).mpr hvalue, hmask⟩

theorem cidrComplete (args : List Char) : CidrComplete args := by
  intro texts digits hlength htexts hdigits hle htext hshort
  obtain ⟨numerals, rfl, hplain⟩ := exists_plain_numerals (by decide) htexts
  rw [List.length_map] at hlength
  have hlow : decimal digits % 256 ≤ 32 := (Nat.mod_le ..).trans hle
  obtain ⟨ip_addr, netmask, hparse⟩ := parse_set_ip_args_accepts hlength (fun numeral hmem => (hplain numeral hmem).2)
    hdigits (hle.trans (by decide)) hlow htext hshort
  exact ⟨_, hparse⟩

/-- Numerals that are not negative have the octets that they denote as their values. -/
theorem Denote.written {numerals : List Numeral} {ip_addr : Ipv4} (h : Denote numerals (octetsOf ip_addr))
    (hnonneg : ∀ numeral ∈ numerals, 0 ≤ numeral.value) :
    Written (['.'].intercalate (numerals.map Numeral.text)) ip_addr := by
  have hboth := (List.forall₂_and_left _ _).mpr ⟨hnonneg, h⟩
  refine ⟨numerals, rfl, hboth.imp ?_⟩
  rintro numeral octet ⟨hvalue, hwithin, hword⟩
  rw [← numeral.word_of_nonneg hwithin.1 hvalue, hword]

/-- The numerals that are written before the slash are not negative. -/
theorem Written.nonneg {numerals : List Numeral} {ip_addr : Ipv4}
    (h : Written (['.'].intercalate (numerals.map Numeral.text)) ip_addr) (hlength : numerals.length = 4) :
    ∀ numeral ∈ numerals, 0 ≤ numeral.value := by
  obtain ⟨others, htext, hvalues⟩ := h
  have hsame := intercalate_injective (not_dot_mem_numerals numerals) (not_dot_mem_numerals others)
    (map_text_ne_nil hlength) (map_text_ne_nil hvalues.length_eq) htext
  have hboth : List.Forall₂ (fun other octet => 0 ≤ other.value ∧ other.value = octet.toNat) others
      (octetsOf ip_addr) := hvalues.imp fun other octet hvalue => ⟨hvalue ▸ Int.natCast_nonneg _, hvalue⟩
  have hnonneg := ((List.forall₂_and_left _ _).mp hboth).1
  intro numeral hmem
  obtain ⟨other, hother, htext⟩ := List.mem_map.mp (hsame ▸ List.mem_map_of_mem hmem)
  rw [← Numeral.value_eq_of_text_eq htext]
  exact hnonneg other hother

/-- The parser of `A/P` is sound and complete except for the addresses that it misreads. -/
theorem cidr_parsing_iff (args : List Char) :
    (CidrSound args ∧ CidrComplete args) ↔ ¬ Misread (skipOptional "ip".toList args) := by
  rw [and_iff_left (cidrComplete args)]
  constructor
  · rintro hsound ⟨numerals, digits, hlength, hshort, htext, hwithin, hdigits, hmax, hlow, hwrong⟩
    obtain ⟨ip_addr, netmask, hparse⟩ := parse_set_ip_args_accepts hlength hwithin hdigits hmax hlow htext hshort
    obtain ⟨hle, -, hwritten⟩ := hsound ip_addr netmask _ digits hparse htext (not_slash_mem_numerals numerals) hdigits
    obtain hlarge | ⟨numeral, hmem, hnegative⟩ := hwrong
    · omega
    · have hnonneg := hwritten.nonneg hlength numeral hmem
      omega
  · intro hread ip_addr netmask before behind hparse htext hbefore hdigits
    obtain ⟨hshort, haddress, prefix_length, hparsed, hmask⟩ := (parse_set_ip_args_eq_ok htext hbefore).mp hparse
    obtain ⟨numerals, hlength, rfl, hdenote⟩ := parse_ipv4_strict_eq_some.mp haddress
    have hvalue := (parse_u32_strict_digits hdigits).mp hparsed
    have hmax : decimal behind ≤ ULONG_MAX := hvalue.le.trans (Nat.le_of_lt_succ prefix_length.toNat_lt)
    have hlow : decimal behind % 256 ≤ 32 := by
      by_contra hgt
      have hlarge : 32 < prefix_length.toUInt8.toNat := by
        rw [toNat_toUInt8_eq_mod, ← hvalue]
        omega
      rw [prefix_to_mask_of_gt hlarge] at hmask
      cases hmask
    have hwrong : ¬ (256 ≤ decimal behind ∨ ∃ numeral ∈ numerals, numeral.value < 0) := fun hwrong =>
      hread ⟨numerals, behind, hlength, hshort, htext, hdenote.within, hdigits, hmax, hlow, hwrong⟩
    simp only [not_or, not_exists, not_and, Int.not_lt] at hwrong
    have hbyte : prefix_length.toUInt8.toNat = decimal behind := by
      rw [toNat_toUInt8_eq_mod, ← hvalue]
      omega
    have hle : prefix_length.toUInt8.toNat ≤ 32 := by omega
    obtain ⟨mask, hmask', hbits⟩ := prefix_to_mask_of_le hle
    rw [hmask] at hmask'
    cases hmask'
    rw [hbyte] at hbits hle
    exact ⟨hle, hbits, hdenote.written hwrong.2⟩

/-- A number of bits of 256 is taken for zero. -/
theorem not_cidr_sound :
    parse_set_ip_args "1.2.3.4/256".toList = .ok (⟨1, 2, 3, 4⟩, ⟨0, 0, 0, 0⟩) ∧
      ¬ CidrSound "1.2.3.4/256".toList := by
  have hparse : parse_set_ip_args "1.2.3.4/256".toList = .ok (⟨1, 2, 3, 4⟩, ⟨0, 0, 0, 0⟩) := rfl
  refine ⟨hparse, ?_⟩
  intro hsound
  have hdigits : IsDigits "256".toList := ⟨by decide, List.all_eq_true.mp rfl⟩
  have hle := (hsound _ _ "1.2.3.4".toList "256".toList hparse rfl (by decide) hdigits).1
  exact absurd hle (by decide)

end ether2ser.cli_parser
