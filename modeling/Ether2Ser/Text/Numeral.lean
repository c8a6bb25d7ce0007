import Mathlib.Data.List.TakeWhile
import Ether2Ser.Text.Scan

namespace Text

inductive Sign where
  | none
  | plus
  | minus
  deriving DecidableEq, Repr

def Sign.text : Sign → List Char
  | .none => []
  | .plus => ['+']
  | .minus => ['-']

/-- A number as the conversions of `stdlib.h` read it: white space, a sign and
decimal digits. -/
structure Numeral where
  space : List Char
  sign : Sign
  digits : List Char
  all_space : ∀ letter ∈ space, isspace letter = true
  all_digits : ∀ letter ∈ digits, letter.isDigit = true
  digits_ne : digits ≠ []

/-- A string of decimal digits. -/
def IsDigits (text : List Char) : Prop := text ≠ [] ∧ ∀ letter ∈ text, letter.isDigit = true

namespace Numeral

def text (numeral : Numeral) : List Char := numeral.space ++ (numeral.sign.text ++ numeral.digits)

def magnitude (numeral : Numeral) : Nat := decimal numeral.digits

def value (numeral : Numeral) : Int :=
  if numeral.sign = .minus then -(numeral.magnitude : Int) else numeral.magnitude

/-- The value modulo 2³², which is what `strtoul` makes of it. -/
def word (numeral : Numeral) : Nat := (numeral.value % 4294967296).toNat

/-- Nothing but digits. -/
def Plain (numeral : Numeral) : Prop := numeral.space = [] ∧ numeral.sign = .none

/-- The conversion succeeds, with a result up to a bound. -/
def Within (bound : Nat) (numeral : Numeral) : Prop := numeral.magnitude ≤ ULONG_MAX ∧ numeral.word ≤ bound

def ofDigits {digits : List Char} (h : IsDigits digits) : Numeral where
  space := []
  sign := .none
  digits := digits
  all_space := List.forall_mem_nil _
  all_digits := h.2
  digits_ne := h.1

theorem text_ofDigits {digits : List Char} (h : IsDigits digits) : (ofDigits h).text = digits := rfl

theorem plain_ofDigits {digits : List Char} (h : IsDigits digits) : (ofDigits h).Plain := ⟨rfl, rfl⟩

end Numeral

/-- The text behind a number starts with no digit. -/
def EndsNumber (rest : List Char) : Prop := ∀ letter ∈ rest.head?, letter.isDigit = false

theorem endsNumber_nil : EndsNumber [] := nofun

theorem endsNumber_cons {letter : Char} {rest : List Char} (h : letter.isDigit = false) :
    EndsNumber (letter :: rest) := by
  intro first hfirst
  rwa [← Option.some_inj.mp hfirst]

/-- Where a run of letters ends. -/
theorem span_append {p : Char → Bool} {run rest : List Char} (hrun : ∀ letter ∈ run, p letter = true)
    (hrest : ∀ letter ∈ rest.head?, p letter = false) :
    (run ++ rest).takeWhile p = run ∧ (run ++ rest).dropWhile p = rest := by
  rw [List.takeWhile_append_of_pos hrun, List.dropWhile_append_of_pos hrun]
  cases rest with
  | nil => simp
  | cons letter rest =>
    have hletter : p letter = false := hrest letter rfl
    simp [hletter]

/-- The text before and behind the first occurrence of a letter. -/
theorem span_ne_append {mark : Char} {before : List Char} (behind : List Char) (hbefore : mark ∉ before) :
    (before ++ mark :: behind).takeWhile (· ≠ mark) = before ∧
      (before ++ mark :: behind).dropWhile (· ≠ mark) = mark :: behind := by
  apply span_append
  · intro letter hmem
    exact decide_eq_true fun heq => hbefore (heq ▸ hmem)
  · intro letter hletter
    rw [← Option.some_inj.mp hletter]
    exact decide_eq_false (not_not.mpr rfl)

theorem scanDigits_append (negative : Bool) {digits rest : List Char}
    (hdigits : ∀ letter ∈ digits, letter.isDigit = true) (hrest : EndsNumber rest) :
    scanDigits negative (digits ++ rest) = { negative, digits, rest } := by
  obtain ⟨htake, hdrop⟩ := span_append hdigits hrest
  rw [scanDigits, htake, hdrop]

theorem not_isspace_of_isDigit {letter : Char} (h : letter.isDigit = true) : isspace letter = false := by
  obtain ⟨hlow, hhigh⟩ := Char.isDigit_iff_toNat.mp h
  have hspace : letter ≠ ' ' := by
    rintro rfl
    exact absurd h (by decide)
  simp only [isspace, beq_eq_false_iff_ne.mpr hspace, Bool.false_or, Bool.and_eq_false_iff, decide_eq_false_iff_not]
  exact .inr (by change 48 ≤ _ at hlow; omega)

theorem Numeral.not_isspace_head (numeral : Numeral) (rest : List Char) :
    ∀ letter ∈ (numeral.sign.text ++ (numeral.digits ++ rest)).head?, isspace letter = false := by
  obtain ⟨first, digits, hdigits⟩ := List.exists_cons_of_ne_nil numeral.digits_ne
  have hfirst := numeral.all_digits first (by simp [hdigits])
  intro letter hletter
  cases hsign : numeral.sign with
  | none =>
    simp only [hsign, Sign.text, hdigits, List.nil_append, List.cons_append, List.head?_cons,
      Option.mem_some_iff] at hletter
    subst hletter
    exact not_isspace_of_isDigit hfirst
  | plus | minus =>
    simp only [hsign, Sign.text, List.cons_append, List.head?_cons, Option.mem_some_iff] at hletter
    subst hletter
    decide

/-- The scanner finds a numeral with no digit behind it. -/
theorem Numeral.scanNumber_text (numeral : Numeral) {rest : List Char} (hrest : EndsNumber rest) :
    scanNumber (numeral.text ++ rest) =
      { negative := numeral.sign = .minus, digits := numeral.digits, rest } := by
  have hbody := (span_append numeral.all_space (numeral.not_isspace_head rest)).2
  have hscan := fun negative => scanDigits_append negative numeral.all_digits hrest
  rw [scanNumber, text, List.append_assoc, List.append_assoc, hbody]
  cases hsign : numeral.sign with
  | none =>
    obtain ⟨first, digits, hdigits⟩ := List.exists_cons_of_ne_nil numeral.digits_ne
    have hfirst := numeral.all_digits first (by simp [hdigits])
    simp only [Sign.text, List.nil_append]
    split
    · rename_i heq
      rw [hdigits] at heq
      cases heq
      cases hfirst
    · rename_i heq
      rw [hdigits] at heq
      cases heq
      cases hfirst
    · exact hscan false
  | plus => exact hscan false
  | minus => exact hscan true

theorem scanDigits_append_rest (negative : Bool) (text : List Char) :
    text = (scanDigits negative text).digits ++ (scanDigits negative text).rest := List.takeWhile_append_dropWhile.symm

theorem isDigit_of_mem_scanDigits {negative : Bool} {text : List Char} {letter : Char}
    (h : letter ∈ (scanDigits negative text).digits) : letter.isDigit = true := List.mem_takeWhile_imp h

theorem endsNumber_scanDigits (negative : Bool) (text : List Char) :
    EndsNumber (scanDigits negative text).rest := by
  intro letter hletter
  have hhead := List.head?_dropWhile_not Char.isDigit text
  rwa [show (text.dropWhile Char.isDigit).head? = some letter from hletter] at hhead

/-- Where the scanner finds digits, the text starts with a numeral. -/
theorem exists_numeral_of_scanNumber {text : List Char} (hdigits : (scanNumber text).digits ≠ []) :
    ∃ (numeral : Numeral) (rest : List Char), text = numeral.text ++ rest ∧ EndsNumber rest := by
  have hspace : ∀ letter ∈ text.takeWhile isspace, isspace letter = true := fun _ => List.mem_takeWhile_imp
  obtain ⟨negative, sign, body, hbody, hscan⟩ : ∃ negative sign body,
      text.dropWhile isspace = Sign.text sign ++ body ∧ scanNumber text = scanDigits negative body := by
    unfold scanNumber
    split
    · rename_i body hbody
      exact ⟨true, .minus, body, hbody, rfl⟩
    · rename_i body hbody
      exact ⟨false, .plus, body, hbody, rfl⟩
    · exact ⟨false, .none, _, rfl, rfl⟩
  rw [hscan] at hdigits
  let numeral : Numeral :=
    { space := text.takeWhile isspace
      sign
      digits := (scanDigits negative body).digits
      all_space := hspace
      all_digits := fun _ => isDigit_of_mem_scanDigits
      digits_ne := hdigits }
  refine ⟨numeral, (scanDigits negative body).rest, ?_, endsNumber_scanDigits negative body⟩
  calc text = text.takeWhile isspace ++ text.dropWhile isspace := List.takeWhile_append_dropWhile.symm
    _ = text.takeWhile isspace ++ (sign.text ++ body) := by rw [hbody]
    _ = numeral.text ++ (scanDigits negative body).rest := by
      conv_lhs => rw [scanDigits_append_rest negative body]
      simp only [Numeral.text, numeral, List.append_assoc]

theorem Numeral.word_eq {numeral : Numeral} (hmagnitude : numeral.magnitude ≤ ULONG_MAX) :
    numeral.word = if numeral.sign = .minus then (ULONG_MAX + 1 - numeral.magnitude) % (ULONG_MAX + 1)
      else numeral.magnitude := by
  have hmax : ULONG_MAX = 4294967295 := rfl
  rw [hmax] at hmagnitude ⊢
  unfold word value
  split <;> omega

/-- `strtoul` on a numeral with no digit behind it. -/
theorem Numeral.strtoul_text (numeral : Numeral) {rest : List Char} (hrest : EndsNumber rest) :
    strtoul (numeral.text ++ rest) =
      if numeral.magnitude ≤ ULONG_MAX then { value := numeral.word, end_ptr := rest, erange := false }
      else { value := ULONG_MAX, end_ptr := rest, erange := true } := by
  have hdecimal : decimal numeral.digits = numeral.magnitude := rfl
  simp only [strtoul, numeral.scanNumber_text hrest, if_neg numeral.digits_ne, hdecimal, gt_iff_lt]
  by_cases hmagnitude : numeral.magnitude ≤ ULONG_MAX
  · rw [if_pos hmagnitude, if_neg (Nat.not_lt.mpr hmagnitude), numeral.word_eq hmagnitude]
    by_cases hminus : numeral.sign = .minus
    · simp [hminus]
    · simp [hminus]
  · rw [if_neg hmagnitude, if_pos (Nat.lt_of_not_le hmagnitude)]

/-- Without a numeral `strtoul` stops where it starts. -/
theorem strtoul_of_no_digits {text : List Char} (h : (scanNumber text).digits = []) :
    strtoul text = { value := 0, end_ptr := text, erange := false } := if_pos h

theorem Numeral.text_ne_nil (numeral : Numeral) : numeral.text ≠ [] := by
  simp [text, numeral.digits_ne]

/-- `strtoul` converts the whole of a text up to `rest` exactly where this is a
numeral that fits. -/
theorem strtoul_converts_iff {text rest : List Char} (hrest : EndsNumber rest) (value : Nat) :
    ((strtoul text).erange = false ∧ (strtoul text).end_ptr ≠ text ∧ (strtoul text).end_ptr = rest ∧
        (strtoul text).value = value) ↔
      ∃ numeral : Numeral, text = numeral.text ++ rest ∧ numeral.magnitude ≤ ULONG_MAX ∧ numeral.word = value := by
  constructor
  · rintro ⟨herange, hmoved, hend, hvalue⟩
    by_cases hdigits : (scanNumber text).digits = []
    · rw [strtoul_of_no_digits hdigits] at hmoved
      exact absurd rfl hmoved
    · obtain ⟨numeral, behind, rfl, hbehind⟩ := exists_numeral_of_scanNumber hdigits
      rw [numeral.strtoul_text hbehind] at herange hend hvalue
      split at herange
      · rename_i hmagnitude
        rw [if_pos hmagnitude] at hend hvalue
        exact ⟨numeral, by rw [← hend], hmagnitude, hvalue⟩
      · cases herange
  · rintro ⟨numeral, rfl, hmagnitude, rfl⟩
    rw [numeral.strtoul_text hrest, if_pos hmagnitude]
    refine ⟨rfl, ?_, rfl, rfl⟩
    intro heq
    exact numeral.text_ne_nil (List.self_eq_append_left.mp heq)

/-- The letters of a numeral. -/
theorem Numeral.mem_text {numeral : Numeral} {letter : Char} (h : letter ∈ numeral.text) :
    isspace letter = true ∨ letter = '+' ∨ letter = '-' ∨ letter.isDigit = true := by
  obtain hspace | hletter := List.mem_append.mp h
  · exact .inl (numeral.all_space letter hspace)
  · obtain hsign | hdigit := List.mem_append.mp hletter
    · cases hcase : numeral.sign with
      | none => simp [hcase, Sign.text] at hsign
      | plus =>
        simp only [hcase, Sign.text, List.mem_singleton] at hsign
        exact .inr (.inl hsign)
      | minus =>
        simp only [hcase, Sign.text, List.mem_singleton] at hsign
        exact .inr (.inr (.inl hsign))
    · exact .inr (.inr (.inr (numeral.all_digits letter hdigit)))

theorem Numeral.text_of_plain {numeral : Numeral} (h : numeral.Plain) : numeral.text = numeral.digits := by
  rw [text, h.1, h.2]
  rfl

theorem Numeral.isDigits_of_plain {numeral : Numeral} (h : numeral.Plain) : IsDigits numeral.text := by
  rw [numeral.text_of_plain h]
  exact ⟨numeral.digits_ne, numeral.all_digits⟩

/-- A numeral of digits alone is plain. -/
theorem Numeral.plain_of_isDigits {numeral : Numeral} (h : IsDigits numeral.text) : numeral.Plain := by
  constructor
  · by_contra hne
    obtain ⟨first, space, hspace⟩ := List.exists_cons_of_ne_nil hne
    have hdigit := h.2 first (by simp [text, hspace])
    have hfirst := numeral.all_space first (by simp [hspace])
    rw [not_isspace_of_isDigit hdigit] at hfirst
    cases hfirst
  · cases hsign : numeral.sign with
    | none => rfl
    | plus => exact absurd (h.2 '+' (by simp [text, hsign, Sign.text])) (by decide)
    | minus => exact absurd (h.2 '-' (by simp [text, hsign, Sign.text])) (by decide)

theorem Numeral.word_of_nonneg {numeral : Numeral} (hmagnitude : numeral.magnitude ≤ ULONG_MAX)
    (h : 0 ≤ numeral.value) : (numeral.word : Int) = numeral.value := by
  have hmax : ULONG_MAX = 4294967295 := rfl
  have hle : numeral.value ≤ numeral.magnitude := by
    unfold value
    split <;> omega
  unfold word
  omega

theorem Numeral.word_of_plain {numeral : Numeral} (h : numeral.Plain) (hmagnitude : numeral.magnitude ≤ ULONG_MAX) :
    numeral.word = decimal numeral.text := by
  rw [numeral.word_eq hmagnitude, h.2, if_neg nofun, numeral.text_of_plain h]
  rfl

theorem Numeral.within_ofDigits {digits : List Char} (h : IsDigits digits) {bound : Nat} (hbound : bound ≤ ULONG_MAX)
    (hle : decimal digits ≤ bound) : (ofDigits h).Within bound ∧ (ofDigits h).word = decimal digits := by
  have hmagnitude : (ofDigits h).magnitude ≤ ULONG_MAX := hle.trans hbound
  have hword := word_of_plain (plain_ofDigits h) hmagnitude
  exact ⟨⟨hmagnitude, hword.le.trans hle⟩, hword⟩

theorem Numeral.word_lt (numeral : Numeral) : numeral.word < UInt32.size := by
  have hsize : UInt32.size = 4294967296 := rfl
  unfold word
  omega

/-- The text of a numeral determines its value. -/
theorem Numeral.value_eq_of_text_eq {numeral other : Numeral} (h : numeral.text = other.text) :
    numeral.value = other.value := by
  have hscan := numeral.scanNumber_text endsNumber_nil
  rw [h, other.scanNumber_text endsNumber_nil] at hscan
  obtain ⟨hsign, hdigits, -⟩ := Number.mk.inj hscan
  have hminus : numeral.sign = .minus ↔ other.sign = .minus := decide_eq_decide.mp hsign.symm
  simp only [value, magnitude, hminus, hdigits]

/-- Strings of digits up to a bound are the texts of plain numerals. -/
theorem exists_plain_numerals {bound : Nat} (hbound : bound ≤ ULONG_MAX) {texts : List (List Char)}
    (h : ∀ text ∈ texts, IsDigits text ∧ decimal text ≤ bound) :
    ∃ numerals : List Numeral, numerals.map Numeral.text = texts ∧
      ∀ numeral ∈ numerals, numeral.Plain ∧ numeral.Within bound := by
  induction texts with
  | nil => exact ⟨[], rfl, List.forall_mem_nil _⟩
  | cons text texts ih =>
    obtain ⟨⟨hdigits, hle⟩, htexts⟩ := List.forall_mem_cons.mp h
    obtain ⟨numerals, hnumerals, hplain⟩ := ih htexts
    refine ⟨.ofDigits hdigits :: numerals, by rw [List.map_cons, hnumerals, Numeral.text_ofDigits], ?_⟩
    rw [List.forall_mem_cons]
    exact ⟨⟨Numeral.plain_ofDigits hdigits, (Numeral.within_ofDigits hdigits hbound hle).1⟩, hplain⟩

theorem Numeral.not_mem_text {letter : Char} (hspace : isspace letter = false) (hplus : letter ≠ '+')
    (hminus : letter ≠ '-') (hdigit : letter.isDigit = false) (numeral : Numeral) : letter ∉ numeral.text := by
  intro hmem
  obtain h | h | h | h := numeral.mem_text hmem <;> simp_all

theorem not_mem_intercalate {separator letter : Char} (hne : letter ≠ separator) {texts : List (List Char)}
    (htexts : ∀ text ∈ texts, letter ∉ text) : letter ∉ [separator].intercalate texts := by
  induction texts with
  | nil => exact List.not_mem_nil
  | cons text texts ih =>
    obtain ⟨htext, hrest⟩ := List.forall_mem_cons.mp htexts
    cases texts with
    | nil => rwa [List.intercalate_singleton]
    | cons next texts =>
      simp only [List.intercalate_cons_cons, List.mem_append, List.mem_singleton, not_or]
      exact ⟨⟨htext, hne⟩, ih hrest⟩

/-- Texts without the separator between them can be told apart. -/
theorem intercalate_injective {separator : Char} {texts others : List (List Char)}
    (htexts : ∀ text ∈ texts, separator ∉ text) (hothers : ∀ text ∈ others, separator ∉ text) (hne : texts ≠ [])
    (hne' : others ≠ []) (h : [separator].intercalate texts = [separator].intercalate others) : texts = others := by
  rw [← List.splitOn_intercalate separator htexts hne, h, List.splitOn_intercalate separator hothers hne']

end Text
