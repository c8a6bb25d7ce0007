import Mathlib.Data.List.Forall2
import Ether2Ser.System.CliParser
import Ether2Ser.Text.Numeral

open Text ether2ser.error ether2ser.event_queue

namespace ether2ser.cli_parser

theorem parse_u32_strict_eq_some {input_str : List Char} {value : UInt32} :
    parse_u32_strict input_str = some value ↔
      ∃ numeral : Numeral, input_str = numeral.text ∧ numeral.magnitude ≤ ULONG_MAX ∧ numeral.word = value.toNat := by
  unfold parse_u32_strict
  constructor
  · intro h
    simp only at h
    split at h
    · cases h
    · rename_i hok
      simp only [not_or, not_not] at hok
      obtain ⟨_, herange, hmoved, hend⟩ := hok
      obtain ⟨numeral, htext, hmagnitude, hword⟩ := (strtoul_converts_iff endsNumber_nil _).mp
        ⟨eq_false_of_ne_true herange, hmoved, hend, rfl⟩
      refine ⟨numeral, htext.trans (List.append_nil _), hmagnitude, ?_⟩
      rw [← Option.some_inj.mp h, ← hword, UInt32.toNat_ofNat_of_lt' numeral.word_lt]
  · rintro ⟨numeral, rfl, hmagnitude, hword⟩
    obtain ⟨herange, -, hend, hvalue⟩ := (strtoul_converts_iff endsNumber_nil _).mpr
      ⟨numeral, (List.append_nil _).symm, hmagnitude, hword⟩
    simp [numeral.text_ne_nil, herange, hend, hvalue]

/-- The octet at the cursor is a numeral up to 255, with no digit behind it. -/
theorem parseOctet_eq_some {cursor rest : List Char} {octet : UInt8} (hrest : EndsNumber rest) :
    parseOctet cursor = some (octet, rest) ↔
      ∃ numeral : Numeral, cursor = numeral.text ++ rest ∧ numeral.Within UINT8_MAX ∧
        numeral.word = octet.toNat := by
  unfold parseOctet
  constructor
  · intro h
    simp only at h
    split at h
    · cases h
    · rename_i hok
      simp only [not_or, Nat.not_lt] at hok
      obtain ⟨_, herange, hmoved, hle⟩ := hok
      obtain ⟨hoctet, hend⟩ := Prod.mk.inj (Option.some_inj.mp h)
      obtain ⟨numeral, htext, hmagnitude, hword⟩ := (strtoul_converts_iff hrest _).mp
        ⟨eq_false_of_ne_true herange, hmoved, hend, rfl⟩
      refine ⟨numeral, htext, ⟨hmagnitude, hword.le.trans hle⟩, ?_⟩
      rw [← hoctet, ← hword, UInt8.toNat_ofNat_of_lt']
      exact Nat.lt_succ_of_le (hword.le.trans hle)
  · rintro ⟨numeral, rfl, ⟨hmagnitude, hle⟩, hword⟩
    obtain ⟨herange, -, hend, hvalue⟩ := (strtoul_converts_iff hrest _).mpr
      ⟨numeral, rfl, hmagnitude, hword⟩
    rw [hword] at hle
    simp [numeral.text_ne_nil, herange, hend, hvalue, Nat.not_lt.mpr hle]

/-- The octets that numerals up to 255 denote. -/
def Denote (numerals : List Numeral) (octets : List UInt8) : Prop :=
  List.Forall₂ (fun numeral octet => numeral.Within UINT8_MAX ∧ numeral.word = octet.toNat) numerals octets

theorem parseOctets_one {cursor : List Char} {octets : List UInt8} :
    parseOctets cursor 1 = some octets ↔ ∃ octet, parseOctet cursor = some (octet, []) ∧ octets = [octet] := by
  rw [parseOctets]
  constructor
  · intro h
    split at h
    · rename_i octet hoctet
      exact ⟨octet, hoctet, (Option.some_inj.mp h).symm⟩
    · cases h
  · rintro ⟨octet, hoctet, rfl⟩
    rw [hoctet]

theorem parseOctets_add_two {cursor : List Char} {turns : Nat} {octets : List UInt8} :
    parseOctets cursor (turns + 2) = some octets ↔
      ∃ octet behind others, parseOctet cursor = some (octet, '.' :: behind) ∧
        parseOctets behind (turns + 1) = some others ∧ octets = octet :: others := by
  rw [parseOctets]
  constructor
  · intro h
    split at h
    · rename_i octet behind hoctet
      obtain ⟨others, hothers, rfl⟩ := Option.map_eq_some_iff.mp h
      exact ⟨octet, behind, others, hoctet, hothers, rfl⟩
    · cases h
  · rintro ⟨octet, behind, others, hoctet, hothers, rfl⟩
    rw [hoctet]
    simp only [hothers, Option.map_some]

/-- The loop of `parse_ipv4_strict` reads numerals with single dots between them. -/
theorem parseOctets_eq_some {cursor : List Char} {turns : Nat} {octets : List UInt8} :
    parseOctets cursor (turns + 1) = some octets ↔
      ∃ numerals : List Numeral, numerals.length = turns + 1 ∧
        cursor = ['.'].intercalate (numerals.map Numeral.text) ∧ Denote numerals octets := by
  have hdot {behind : List Char} : EndsNumber ('.' :: behind) := endsNumber_cons (by decide)
  induction turns generalizing cursor octets with
  | zero =>
    rw [parseOctets_one]
    constructor
    · rintro ⟨octet, hoctet, rfl⟩
      obtain ⟨numeral, rfl, hdenotes⟩ := (parseOctet_eq_some endsNumber_nil).mp hoctet
      exact ⟨[numeral], rfl, by simp, .cons hdenotes .nil⟩
    · rintro ⟨numerals, hlength, rfl, hdenote⟩
      obtain ⟨numeral, rfl⟩ := List.length_eq_one_iff.mp hlength
      obtain _ | ⟨hdenotes, ⟨⟩⟩ := hdenote
      exact ⟨_, (parseOctet_eq_some endsNumber_nil).mpr ⟨numeral, by simp, hdenotes⟩, rfl⟩
  | succ turns ih =>
    rw [parseOctets_add_two]
    constructor
    · rintro ⟨octet, behind, others, hoctet, hothers, rfl⟩
      obtain ⟨numeral, rfl, hdenotes⟩ := (parseOctet_eq_some hdot).mp hoctet
      obtain ⟨numerals, hlength, rfl, hdenote⟩ := ih.mp hothers
      obtain ⟨next, numerals, rfl⟩ := List.exists_cons_of_length_eq_add_one hlength
      refine ⟨numeral :: next :: numerals, by rw [List.length_cons, hlength], ?_, .cons hdenotes hdenote⟩
      simp only [List.map_cons, List.intercalate_cons_cons, List.append_assoc, List.singleton_append]
    · rintro ⟨numerals, hlength, rfl, hdenote⟩
      obtain ⟨numeral, numerals, rfl⟩ := List.exists_cons_of_length_eq_add_one hlength
      have hrest : numerals.length = turns + 1 := Nat.succ_inj.mp hlength
      obtain ⟨next, numerals, rfl⟩ := List.exists_cons_of_length_eq_add_one hrest
      obtain _ | ⟨hdenotes, hdenote⟩ := hdenote
      refine ⟨_, _, _, (parseOctet_eq_some hdot).mpr ⟨numeral, ?_, hdenotes⟩, ih.mpr ⟨_, hrest, rfl, hdenote⟩, rfl⟩
      simp only [List.map_cons, List.intercalate_cons_cons, List.append_assoc, List.singleton_append]

/-- The octets of an address. -/
def octetsOf (ip_addr : Ipv4) : List UInt8 := [ip_addr.octet0, ip_addr.octet1, ip_addr.octet2, ip_addr.octet3]

theorem parse_ipv4_strict_eq_some {input_str : List Char} {ip_addr : Ipv4} :
    parse_ipv4_strict input_str = some ip_addr ↔
      ∃ numerals : List Numeral, numerals.length = 4 ∧
        input_str = ['.'].intercalate (numerals.map Numeral.text) ∧ Denote numerals (octetsOf ip_addr) := by
  rw [← parseOctets_eq_some, parse_ipv4_strict]
  constructor
  · intro h
    split at h
    · rename_i hoctets
      cases h
      exact hoctets
    · cases h
  · intro h
    rw [h]
    rfl

theorem parse_u16_with_optional_prefix_eq_ok {args word : List Char} {value : UInt16} :
    parse_u16_with_optional_prefix args word = .ok value ↔
      ∃ numeral : Numeral, skipOptional word args = numeral.text ∧ numeral.Within UINT16_MAX ∧
        numeral.word = value.toNat := by
  have hsteps : parse_u16_with_optional_prefix args word = .ok value ↔
      ∃ parsed_value, parse_u32_strict (skipOptional word args) = some parsed_value ∧
        parsed_value.toNat ≤ UINT16_MAX ∧ parsed_value.toUInt16 = value := by
    unfold parse_u16_with_optional_prefix
    cases parse_u32_strict (skipOptional word args) with
    | none => simp
    | some parsed_value =>
      simp only [Option.some.injEq, exists_eq_left']
      split
      · rename_i hlarge
        exact ⟨nofun, fun h => absurd h.1 (Nat.not_le_of_gt hlarge)⟩
      · rename_i hsmall
        rw [Except.ok.injEq, and_iff_right (Nat.le_of_not_lt hsmall)]
  rw [hsteps]
  constructor
  · rintro ⟨parsed_value, hparsed, hle, rfl⟩
    obtain ⟨numeral, htext, hmagnitude, hword⟩ := parse_u32_strict_eq_some.mp hparsed
    refine ⟨numeral, htext, ⟨hmagnitude, hword ▸ hle⟩, ?_⟩
    rw [hword, UInt32.toNat_toUInt16]
    exact (Nat.mod_eq_of_lt (Nat.lt_succ_of_le hle)).symm
  · rintro ⟨numeral, htext, ⟨hmagnitude, hle⟩, hword⟩
    rw [hword] at hle
    have hsame : value.toUInt32.toNat = value.toNat := UInt16.toNat_toUInt32 value
    refine ⟨value.toUInt32, parse_u32_strict_eq_some.mpr ⟨numeral, htext, hmagnitude, hword.trans hsame.symm⟩, ?_, ?_⟩
    · rwa [hsame]
    · exact UInt16.toUInt16_toUInt32 value

theorem parse_ipv4_with_optional_prefix_eq_ok {args word : List Char} {ip_addr : Ipv4} :
    parse_ipv4_with_optional_prefix args word = .ok ip_addr ↔
      ∃ numerals : List Numeral, numerals.length = 4 ∧
        skipOptional word args = ['.'].intercalate (numerals.map Numeral.text) ∧
        Denote numerals (octetsOf ip_addr) := by
  rw [← parse_ipv4_strict_eq_some, parse_ipv4_with_optional_prefix]
  cases parse_ipv4_strict (skipOptional word args) with
  | none => exact ⟨nofun, nofun⟩
  | some address => simp

/-- A port parser accepts exactly the strings of digits, with the value that they denote. -/
def StrictPort (parse : List Char → Except E2sError UInt16) (args : List Char) : Prop :=
  ∀ port, parse args = .ok port ↔
    IsDigits (skipOptional "port".toList args) ∧ decimal (skipOptional "port".toList args) = port.toNat

/-- The parser of the remote address accepts exactly four strings of digits up to
255 with single dots between them. -/
def StrictAddress (args : List Char) : Prop :=
  (∃ ip_addr, parse_set_ip_remote_args args = .ok ip_addr) ↔
    ∃ texts : List (List Char), texts.length = 4 ∧ skipOptional "ip".toList args = ['.'].intercalate texts ∧
      ∀ text ∈ texts, IsDigits text ∧ decimal text ≤ UINT8_MAX

/-- A number with white space or a sign in front that `strtoul` brings into the
range of a port. -/
def LoosePort (text : List Char) : Prop :=
  ∃ numeral : Numeral, text = numeral.text ∧ ¬ numeral.Plain ∧ numeral.Within UINT16_MAX

/-- Four numbers that `strtoul` brings into the range of an octet, one of them with
white space or a sign in front. -/
def LooseAddress (text : List Char) : Prop :=
  ∃ numerals : List Numeral, numerals.length = 4 ∧ text = ['.'].intercalate (numerals.map Numeral.text) ∧
    (∀ numeral ∈ numerals, numeral.Within UINT8_MAX) ∧ ∃ numeral ∈ numerals, ¬ numeral.Plain

theorem strictPort_iff (args : List Char) :
    StrictPort (fun args => parse_u16_with_optional_prefix args "port".toList) args ↔
      ¬ LoosePort (skipOptional "port".toList args) := by
  simp only [StrictPort, parse_u16_with_optional_prefix_eq_ok]
  constructor
  · rintro hstrict ⟨numeral, htext, hnot, hwithin⟩
    have hport : numeral.word = (UInt16.ofNat numeral.word).toNat := by
      rw [UInt16.toNat_ofNat_of_lt' (Nat.lt_succ_of_le hwithin.2)]
    obtain ⟨hdigits, -⟩ := (hstrict _).mp ⟨numeral, htext, hwithin, hport⟩
    rw [htext] at hdigits
    exact hnot (numeral.plain_of_isDigits hdigits)
  · intro hloose port
    constructor
    · rintro ⟨numeral, htext, hwithin, hword⟩
      have hplain : numeral.Plain := by
        by_contra hnot
        exact hloose ⟨numeral, htext, hnot, hwithin⟩
      rw [htext, ← numeral.word_of_plain hplain hwithin.1]
      exact ⟨numeral.isDigits_of_plain hplain, hword⟩
    · rintro ⟨hdigits, hport⟩
      have hle : port.toNat ≤ UINT16_MAX := Nat.le_of_lt_succ port.toNat_lt
      obtain ⟨hwithin, hword⟩ := Numeral.within_ofDigits hdigits (by decide) (hport.le.trans hle)
      exact ⟨_, (Numeral.text_ofDigits hdigits).symm, hwithin, hword.trans hport⟩

theorem Denote.within {numerals : List Numeral} {octets : List UInt8} (h : Denote numerals octets) :
    ∀ numeral ∈ numerals, numeral.Within UINT8_MAX := by
  unfold Denote at h
  induction h with
  | nil => exact List.forall_mem_nil _
  | cons hdenotes hdenote ih => exact List.forall_mem_cons.mpr ⟨hdenotes.1, ih⟩

/-- Four numerals in range denote an address. -/
theorem exists_denote : ∀ {numerals : List Numeral}, numerals.length = 4 →
    (∀ numeral ∈ numerals, numeral.Within UINT8_MAX) → ∃ ip_addr, Denote numerals (octetsOf ip_addr)
  | [first, second, third, fourth], _, hwithin => by
    have hdenotes : ∀ numeral ∈ [first, second, third, fourth],
        numeral.Within UINT8_MAX ∧ numeral.word = (UInt8.ofNat numeral.word).toNat := by
      intro numeral hmem
      have hle := (hwithin numeral hmem).2
      rw [UInt8.toNat_ofNat_of_lt' (Nat.lt_succ_of_le hle)]
      exact ⟨hwithin numeral hmem, rfl⟩
    refine ⟨⟨.ofNat first.word, .ofNat second.word, .ofNat third.word, .ofNat fourth.word⟩, ?_⟩
    exact .cons (hdenotes _ (by simp)) (.cons (hdenotes _ (by simp)) (.cons (hdenotes _ (by simp))
      (.cons (hdenotes _ (by simp)) .nil)))

theorem not_dot_mem_numerals (numerals : List Numeral) : ∀ text ∈ numerals.map Numeral.text, '.' ∉ text := by
  rw [List.forall_mem_map]
  exact fun numeral _ => numeral.not_mem_text (by decide) (by decide) (by decide) (by decide)

theorem map_text_ne_nil {numerals : List Numeral} (hlength : numerals.length = 4) :
    numerals.map Numeral.text ≠ [] := List.ne_nil_of_length_eq_add_one ((List.length_map _).trans hlength)

theorem strictAddress_iff (args : List Char) :
    StrictAddress args ↔ ¬ LooseAddress (skipOptional "ip".toList args) := by
  simp only [StrictAddress, parse_set_ip_remote_args, parse_ipv4_with_optional_prefix_eq_ok]
  constructor
  · rintro hstrict ⟨numerals, hlength, htext, hwithin, numeral, hmem, hnot⟩
    obtain ⟨ip_addr, hdenote⟩ := exists_denote hlength hwithin
    obtain ⟨texts, hlength', htext', hdigits⟩ := hstrict.mp ⟨ip_addr, numerals, hlength, htext, hdenote⟩
    have hdots : ∀ text ∈ texts, '.' ∉ text :=
      fun text hmem hdot => absurd ((hdigits text hmem).1.2 '.' hdot) (by decide)
    have hsame := intercalate_injective hdots (not_dot_mem_numerals numerals)
      (List.ne_nil_of_length_eq_add_one hlength') (map_text_ne_nil hlength) (htext'.symm.trans htext)
    have hplain := (hdigits numeral.text (hsame ▸ List.mem_map_of_mem hmem)).1
    exact hnot (numeral.plain_of_isDigits hplain)
  · intro hloose
    constructor
    · rintro ⟨ip_addr, numerals, hlength, htext, hdenote⟩
      refine ⟨numerals.map Numeral.text, by rwa [List.length_map], htext, ?_⟩
      rw [List.forall_mem_map]
      intro numeral hmem
      have hwithin := hdenote.within numeral hmem
      have hplain : numeral.Plain := by
        by_contra hnot
        exact hloose ⟨numerals, hlength, htext, hdenote.within, numeral, hmem, hnot⟩
      rw [← numeral.word_of_plain hplain hwithin.1]
      exact ⟨numeral.isDigits_of_plain hplain, hwithin.2⟩
    · rintro ⟨texts, hlength, htext, hdigits⟩
      obtain ⟨numerals, rfl, hplain⟩ := exists_plain_numerals (by decide) hdigits
      rw [List.length_map] at hlength
      obtain ⟨ip_addr, hdenote⟩ := exists_denote hlength fun numeral hmem => (hplain numeral hmem).2
      exact ⟨ip_addr, numerals, hlength, htext, hdenote⟩

/-- The strict parsers accept digits only, except where `strtoul` makes a number in
range of white space or a sign in front of it. -/
theorem strict_parsers_iff (args : List Char) :
    (StrictPort parse_set_udp_port_local_args args ∧ StrictPort parse_set_udp_port_remote_args args ∧
        StrictAddress args) ↔
      ¬ LoosePort (skipOptional "port".toList args) ∧ ¬ LooseAddress (skipOptional "ip".toList args) := by
  have hlocal : StrictPort parse_set_udp_port_local_args args ↔ _ := strictPort_iff args
  have hremote : StrictPort parse_set_udp_port_remote_args args ↔ _ := strictPort_iff args
  rw [hlocal, hremote, strictAddress_iff, and_self_left]

/-- A negated number wraps into the range of a port. -/
theorem not_strict_port :
    parse_set_udp_port_local_args "-4294967291".toList = .ok 5 ∧
      ¬ StrictPort parse_set_udp_port_local_args "-4294967291".toList := by
  have hparse : parse_set_udp_port_local_args "-4294967291".toList = .ok 5 := rfl
  refine ⟨hparse, ?_⟩
  intro hstrict
  exact absurd (((hstrict 5).mp hparse).1.2 '-' (by decide)) (by decide)

end ether2ser.cli_parser
