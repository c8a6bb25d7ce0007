import Ether2Ser.System.CliParser
import Ether2Ser.Text.Words

open Text ether2ser.error ether2ser.v24_config

namespace ether2ser.cli_parser

/-- The lines whose polarity can be inverted. -/
inductive V24Line where
  | txd
  | txc
  | cts
  | rts
  | dtr
  | rxd
  | rxc
  | dcd
  deriving DecidableEq, Repr

namespace V24Line

/-- Whether a line is inverted. -/
def inverted (polarities : V24Polarities) : V24Line → Bool
  | txd => polarities.tx_polarities.txd_inverted
  | txc => polarities.tx_polarities.txc_inverted
  | cts => polarities.tx_polarities.cts_inverted
  | rts => polarities.tx_polarities.rts_inverted
  | dtr => polarities.tx_polarities.dtr_inverted
  | rxd => polarities.rx_polarities.rxd_inverted
  | rxc => polarities.rx_polarities.rxc_inverted
  | dcd => polarities.rx_polarities.dcd_inverted

/-- The name that `parse_set_v24_polarities` accepts for a line. -/
def typedName : V24Line → List Char
  | txd => "txd".toList
  | txc => "tck".toList
  | cts => "cts".toList
  | rts => "rts".toList
  | dtr => "dtr".toList
  | rxd => "rxd".toList
  | rxc => "rck".toList
  | dcd => "dcd".toList

end V24Line

/-- Polarities are what they say about every line. -/
theorem polarities_ext {polarities others : V24Polarities}
    (h : ∀ line : V24Line, line.inverted polarities = line.inverted others) : polarities = others := by
  obtain ⟨⟨_, _, _, _, _⟩, _, _, _⟩ := polarities
  obtain ⟨⟨_, _, _, _, _⟩, _, _, _⟩ := others
  congr
  · exact h .txd
  · exact h .txc
  · exact h .cts
  · exact h .rts
  · exact h .dtr
  · exact h .rxd
  · exact h .rxc
  · exact h .dcd

theorem inverted_zero (line : V24Line) : line.inverted .zero = false := by cases line <;> rfl

/-- The name of a line inverts this line. -/
theorem invertLine_typedName (polarities : V24Polarities) (line : V24Line) :
    ∃ next, invertLine polarities line.typedName = some next ∧
      ∀ other : V24Line, other.inverted next = (other.inverted polarities || decide (other = line)) := by
  cases line <;> refine ⟨_, rfl, ?_⟩ <;> intro other <;> cases other <;> simp [V24Line.inverted]

theorem typedName_injective {line other : V24Line} (h : line.typedName = other.typedName) : line = other := by
  cases line <;> cases other <;> first | rfl | exact absurd h (by decide)

theorem trimSpaces_text (spaced : SpacedWord ',') : trimSpaces spaced.text = spaced.word := by
  let mirrored : SpacedWord ',' :=
    { left := spaced.right
      word := spaced.word.reverse
      right := 0
      word_ne := by simp [spaced.word_ne]
      no_space := by simp [spaced.no_space]
      no_separator := by simp [spaced.no_separator] }
  have hleft := spaced.dropWhile_space []
  have hright := mirrored.dropWhile_space []
  have hmirrored : (spaced.word ++ List.replicate spaced.right ' ').reverse = mirrored.text := by
    simp [mirrored, SpacedWord.text]
  simp only [List.append_nil] at hleft hright
  rw [trimSpaces, hleft, hmirrored, hright]
  simp [mirrored]

theorem invertLines_text (polarities : V24Polarities) (token : SpacedWord ',') (tokens : List (List Char)) :
    invertLines polarities (token.text :: tokens) =
      (invertLine polarities token.word).bind fun next => invertLines next tokens := by
  rw [invertLines, trimSpaces_text, if_neg token.word_ne]
  cases invertLine polarities token.word <;> rfl

/-- The tokens of lines invert these lines and no others. -/
theorem invertLines_typed {tokens : List (SpacedWord ',')}
    (htokens : ∀ token ∈ tokens, ∃ line : V24Line, token.word = line.typedName) (polarities : V24Polarities) :
    ∃ next, invertLines polarities (tokens.map SpacedWord.text) = some next ∧
      ∀ line : V24Line, line.inverted next =
        (line.inverted polarities || decide (line.typedName ∈ tokens.map SpacedWord.word)) := by
  induction tokens generalizing polarities with
  | nil => exact ⟨polarities, rfl, by simp⟩
  | cons token tokens ih =>
    obtain ⟨⟨named, hnamed⟩, htokens⟩ := List.forall_mem_cons.mp htokens
    obtain ⟨next, hnext, hinverted⟩ := invertLine_typedName polarities named
    obtain ⟨last, hlast, hrest⟩ := ih htokens next
    refine ⟨last, ?_, ?_⟩
    · rw [List.map_cons, invertLines_text, hnamed, hnext, Option.bind_some, hlast]
    · intro line
      have hsame : decide (line = named) = decide (line.typedName = named.typedName) := by
        rw [decide_eq_decide]
        exact ⟨congrArg _, typedName_injective⟩
      rw [hrest, hinverted, hsame, Bool.or_assoc, ← Bool.decide_or, List.map_cons, hnamed]
      simp only [List.mem_cons]

/-- A token that names no line makes the parser fail. -/
theorem invertLines_unknown {tokens : List (SpacedWord ',')} {token : SpacedWord ','} (hmem : token ∈ tokens)
    (hunknown : ∀ polarities, invertLine polarities token.word = none) (polarities : V24Polarities) :
    invertLines polarities (tokens.map SpacedWord.text) = none := by
  induction tokens generalizing polarities with
  | nil => cases hmem
  | cons first tokens ih =>
    rw [List.map_cons, invertLines_text]
    obtain rfl | hmem := List.mem_cons.mp hmem
    · rw [hunknown, Option.bind_none]
    · cases invertLine polarities first.word with
      | none => rfl
      | some next => exact ih hmem next

theorem parse_set_v24_polarities_eq_ok {args token_list : List Char}
    (hne : args.dropWhile (· = ' ') ≠ [])
    (hlist : (dropWord? "invert ".toList (args.dropWhile (· = ' '))).getD (args.dropWhile (· = ' ')) = token_list)
    (hlength : token_list.length < 64) {polarities : V24Polarities} :
    parse_set_v24_polarities args = .ok polarities ↔ invertLines .zero (strtok ',' token_list) = some polarities := by
  simp only [parse_set_v24_polarities, hlist, if_neg hne, if_neg (Nat.not_le.mpr hlength)]
  cases invertLines .zero (strtok ',' token_list) <;> simp

/-- The parser reads a list of words, with an optional word in front of it. -/
theorem parse_set_v24_polarities_list {segments : List (Option (SpacedWord ','))} {args : List Char}
    (hwords : listWords segments ≠ []) (hfirst : ∀ word ∈ listWords segments, word.head? ≠ some 'i')
    (hlength : (listText segments).length < 64)
    (hargs : args = listText segments ∨ args = "invert ".toList ++ listText segments) :
    ∃ tokens : List (SpacedWord ','), tokens.map SpacedWord.word = listWords segments ∧
      ∀ polarities, parse_set_v24_polarities args = .ok polarities ↔
        invertLines .zero (tokens.map SpacedWord.text) = some polarities := by
  have hcomma : ',' ≠ ' ' := by decide
  obtain rfl | rfl := hargs
  · obtain ⟨others, hdrop, hsame, hhead⟩ := exists_dropWhile_listText hcomma segments
    have hne : listText others ≠ [] := by
      intro hnil
      rw [← hsame] at hwords
      exact hwords (listWords_of_listText_eq_nil hcomma hnil)
    have hword : dropWord? "invert ".toList (listText others) = none := by
      obtain ⟨letter, rest, htext⟩ := List.exists_cons_of_ne_nil hne
      rw [htext] at hhead ⊢
      have hletter : 'i' ≠ letter := by
        rintro rfl
        obtain hcase | ⟨word, hmem, hcase⟩ := hhead 'i' rfl
        · exact absurd hcase (by decide)
        · exact hfirst word (hsame ▸ hmem) hcase
      simp [dropWord?, hletter]
    have hle := (List.dropWhile_sublist (fun letter => decide (letter = ' ')) (l := listText segments)).length_le
    rw [hdrop] at hle
    refine ⟨others.reduceOption, hsame, fun polarities => ?_⟩
    rw [← strtok_listText hcomma]
    apply parse_set_v24_polarities_eq_ok
    · rwa [hdrop]
    · rw [hdrop, hword, Option.getD_none]
    · omega
  · refine ⟨segments.reduceOption, rfl, fun polarities => ?_⟩
    have hdrop : ("invert ".toList ++ listText segments).dropWhile (· = ' ') =
        "invert ".toList ++ listText segments := rfl
    rw [← strtok_listText hcomma]
    apply parse_set_v24_polarities_eq_ok
    · rw [hdrop]
      exact List.cons_ne_nil _ _
    · rw [hdrop]
      rfl
    · exact hlength

end ether2ser.cli_parser
