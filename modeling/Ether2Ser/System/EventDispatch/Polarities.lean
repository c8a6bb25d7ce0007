import Ether2Ser.System.CliParser.Polarities

open Text ether2ser.cli_parser ether2ser.error ether2ser.v24_config

namespace ether2ser.control_plane

/-- The macro `ADD` of `print_v24_polarities`, on the text printed so far and the
variable `first`. -/
def ADD (name : List Char) (flag : Bool) (printed : List Char × Bool) : List Char × Bool :=
  if flag then (printed.1 ++ ((if printed.2 then [] else ",".toList) ++ name), false) else printed

/-- The text that `print_v24_polarities` prints. -/
def print_v24_polarities (polarities : V24Polarities) : List Char :=
  let printed := ("polarities: ".toList, true)
  let printed := ADD "txd".toList polarities.tx_polarities.txd_inverted printed
  let printed := ADD "txc".toList polarities.tx_polarities.txc_inverted printed
  let printed := ADD "cts".toList polarities.tx_polarities.cts_inverted printed
  let printed := ADD "rts".toList polarities.tx_polarities.rts_inverted printed
  let printed := ADD "dtr".toList polarities.tx_polarities.dtr_inverted printed
  let printed := ADD "rxd".toList polarities.rx_polarities.rxd_inverted printed
  let printed := ADD "rxc".toList polarities.rx_polarities.rxc_inverted printed
  let (text, first) := ADD "dcd".toList polarities.rx_polarities.dcd_inverted printed
  text ++ ((if first then "<none>".toList else []) ++ "\r\n".toList)

/-- The name that `print_v24_polarities` prints for a line. -/
def printedName : V24Line → List Char
  | .txd => "txd".toList
  | .txc => "txc".toList
  | .cts => "cts".toList
  | .rts => "rts".toList
  | .dtr => "dtr".toList
  | .rxd => "rxd".toList
  | .rxc => "rxc".toList
  | .dcd => "dcd".toList

/-- The lines in the order in which `print_v24_polarities` prints them. -/
def printedLines : List V24Line := [.txd, .txc, .cts, .rts, .dtr, .rxd, .rxc, .dcd]

/-- The names of the inverted lines, in this order. -/
def invertedNames (polarities : V24Polarities) : List (List Char) :=
  (printedLines.filter fun line => line.inverted polarities).map printedName

/-- The names that `print_v24_polarities` emits, between commas behind its label. -/
def emittedNames (polarities : V24Polarities) : List (List Char) :=
  strtok ',' (((print_v24_polarities polarities).drop "polarities: ".toList.length).takeWhile (· ≠ '\r'))

theorem ADD_false (name : List Char) (printed : List Char × Bool) : ADD name false printed = printed := rfl

theorem ADD_first (name text : List Char) : ADD name true (text, true) = (text ++ name, false) := rfl

theorem ADD_next (name text : List Char) : ADD name true (text, false) = (text ++ ',' :: name, false) := rfl

/-- What the macro prints behind the first name. -/
theorem foldl_ADD_next (polarities : V24Polarities) (lines : List V24Line) (text : List Char) :
    lines.foldl (fun printed line => ADD (printedName line) (line.inverted polarities) printed) (text, false) =
      (text ++ ((lines.filter fun line => line.inverted polarities).map printedName).flatMap (',' :: ·), false) := by
  induction lines generalizing text with
  | nil => simp
  | cons line lines ih =>
    cases hline : line.inverted polarities with
    | false => rw [List.foldl_cons, hline, ADD_false, ih, List.filter_cons_of_neg (by simp [hline])]
    | true =>
      rw [List.foldl_cons, hline, ADD_next, ih, List.filter_cons_of_pos hline, List.map_cons, List.flatMap_cons,
        List.append_assoc]

theorem foldl_ADD_first (polarities : V24Polarities) (lines : List V24Line) (text : List Char) :
    lines.foldl (fun printed line => ADD (printedName line) (line.inverted polarities) printed) (text, true) =
      (text ++ [','].intercalate ((lines.filter fun line => line.inverted polarities).map printedName),
        ((lines.filter fun line => line.inverted polarities).map printedName).isEmpty) := by
  induction lines with
  | nil => simp
  | cons line lines ih =>
    cases hline : line.inverted polarities with
    | false => rw [List.foldl_cons, hline, ADD_false, ih, List.filter_cons_of_neg (by simp [hline])]
    | true =>
      rw [List.foldl_cons, hline, ADD_first, foldl_ADD_next, List.filter_cons_of_pos hline, List.map_cons,
        intercalate_cons, List.append_assoc, List.isEmpty_cons]

/-- The printed text lists the names of the inverted lines. -/
theorem print_v24_polarities_eq (polarities : V24Polarities) :
    print_v24_polarities polarities =
      "polarities: ".toList ++ ([','].intercalate (invertedNames polarities) ++
        ((if (invertedNames polarities).isEmpty then "<none>".toList else []) ++ "\r\n".toList)) := by
  have hfold := foldl_ADD_first polarities printedLines "polarities: ".toList
  have hprint : print_v24_polarities polarities =
      let printed := printedLines.foldl
        (fun printed line => ADD (printedName line) (line.inverted polarities) printed) ("polarities: ".toList, true)
      printed.1 ++ ((if printed.2 then "<none>".toList else []) ++ "\r\n".toList) := rfl
  rw [hprint, hfold]
  exact List.append_assoc ..

theorem mem_invertedNames {polarities : V24Polarities} {name : List Char} :
    name ∈ invertedNames polarities ↔ ∃ line : V24Line, line.inverted polarities = true ∧ printedName line = name := by
  have hall : ∀ line : V24Line, line ∈ printedLines := by
    intro line
    cases line <;> decide
  simp [invertedNames, hall]

theorem invertedNames_ne_nil {polarities : V24Polarities} (h : polarities ≠ .zero) :
    invertedNames polarities ≠ [] := by
  intro hnil
  apply h
  apply polarities_ext
  intro line
  rw [inverted_zero]
  by_contra hinverted
  have hmem := mem_invertedNames.mpr ⟨line, eq_true_of_ne_false hinverted, rfl⟩
  rw [hnil] at hmem
  cases hmem

/-- A printed name is a word, and no line break or `i` starts it. -/
theorem printedName_letters (line : V24Line) :
    printedName line ≠ [] ∧ ',' ∉ printedName line ∧ '\r' ∉ printedName line ∧ (printedName line).head? ≠ some 'i' := by
  cases line <;> decide

/-- With an inverted line exactly the names of the inverted lines are emitted. -/
theorem emittedNames_eq {polarities : V24Polarities} (h : polarities ≠ .zero) :
    emittedNames polarities = invertedNames polarities := by
  have hne := invertedNames_ne_nil h
  have hletters : ∀ name ∈ invertedNames polarities, name ≠ [] ∧ ',' ∉ name ∧ '\r' ∉ name := by
    intro name hname
    obtain ⟨line, _, rfl⟩ := mem_invertedNames.mp hname
    obtain ⟨hnil, hcomma, hreturn, _⟩ := printedName_letters line
    exact ⟨hnil, hcomma, hreturn⟩
  have hreturn := not_mem_intercalate (by decide : '\r' ≠ ',') fun name hname => (hletters name hname).2.2
  have htake : ([','].intercalate (invertedNames polarities) ++ "\r\n".toList).takeWhile (· ≠ '\r') =
      [','].intercalate (invertedNames polarities) := (span_ne_append "\n".toList hreturn).1
  rw [emittedNames, print_v24_polarities_eq, List.drop_left, if_neg (by simp [hne]), List.nil_append, htake, strtok,
    List.splitOn_intercalate ',' (fun name hname => (hletters name hname).2.1) hne, List.filter_eq_self]
  exact fun name hname => decide_eq_true (hletters name hname).1

/-- The printed name of a line other than a clock is the one that the parser accepts. -/
theorem printedName_eq_typedName {line : V24Line} (htxc : line ≠ .txc) (hrxc : line ≠ .rxc) :
    printedName line = line.typedName := by
  cases line <;> first | rfl | contradiction

/-- The name that the parser accepts for a clock is printed for no line. -/
theorem eq_of_printedName_eq_typedName {line other : V24Line} (h : printedName other = line.typedName) :
    other = line ∧ line ≠ .txc ∧ line ≠ .rxc := by
  cases line <;> cases other <;> first | exact absurd h (by decide) | exact ⟨rfl, by decide, by decide⟩

theorem invertLine_printedName_txc (polarities : V24Polarities) : invertLine polarities (printedName .txc) = none := rfl

theorem invertLine_printedName_rxc (polarities : V24Polarities) : invertLine polarities (printedName .rxc) = none := rfl

theorem typedName_mem_invertedNames {polarities : V24Polarities} {line : V24Line} :
    line.typedName ∈ invertedNames polarities ↔
      line.inverted polarities = true ∧ line ≠ .txc ∧ line ≠ .rxc := by
  rw [mem_invertedNames]
  constructor
  · rintro ⟨other, hinverted, hname⟩
    obtain ⟨rfl, hclock⟩ := eq_of_printedName_eq_typedName hname
    exact ⟨hinverted, hclock⟩
  · rintro ⟨hinverted, htxc, hrxc⟩
    exact ⟨line, hinverted, printedName_eq_typedName htxc hrxc⟩

/-- A list of exactly the emitted names, in any order and with any spacing, is read
back as the polarities that it was printed for, unless one of the clocks is inverted. -/
theorem printed_polarities_read_back_iff {polarities : V24Polarities} {segments : List (Option (SpacedWord ','))}
    {args : List Char} (hinverted : polarities ≠ .zero)
    (hnames : ∀ name, name ∈ listWords segments ↔ name ∈ emittedNames polarities)
    (hlength : (listText segments).length < 64)
    (hargs : args = listText segments ∨ args = "invert ".toList ++ listText segments) :
    parse_set_v24_polarities args = .ok polarities ↔
      polarities.tx_polarities.txc_inverted = false ∧ polarities.rx_polarities.rxc_inverted = false := by
  rw [emittedNames_eq hinverted] at hnames
  have hwords : listWords segments ≠ [] := by
    obtain ⟨name, hname⟩ := List.exists_mem_of_ne_nil _ (invertedNames_ne_nil hinverted)
    exact List.ne_nil_of_mem ((hnames name).mpr hname)
  have hfirst : ∀ word ∈ listWords segments, word.head? ≠ some 'i' := by
    intro word hword
    obtain ⟨line, _, rfl⟩ := mem_invertedNames.mp ((hnames word).mp hword)
    exact (printedName_letters line).2.2.2
  obtain ⟨tokens, htokens, hparse⟩ := parse_set_v24_polarities_list hwords hfirst hlength hargs
  rw [hparse]
  constructor
  · intro hread
    have hclock : ∀ line : V24Line, (∀ others, invertLine others (printedName line) = none) →
        line.inverted polarities = false := by
      intro line hunknown
      by_contra hline
      have hmem := (hnames _).mpr (mem_invertedNames.mpr ⟨line, eq_true_of_ne_false hline, rfl⟩)
      rw [← htokens] at hmem
      obtain ⟨token, htoken, hword⟩ := List.mem_map.mp hmem
      rw [← hword] at hunknown
      rw [invertLines_unknown htoken hunknown] at hread
      cases hread
    exact ⟨hclock .txc invertLine_printedName_txc, hclock .rxc invertLine_printedName_rxc⟩
  · rintro ⟨htxc, hrxc⟩
    have hclock : ∀ line : V24Line, line.inverted polarities = true → line ≠ .txc ∧ line ≠ .rxc := by
      intro line hline
      constructor
      · rintro rfl
        exact Bool.false_ne_true (htxc.symm.trans hline)
      · rintro rfl
        exact Bool.false_ne_true (hrxc.symm.trans hline)
    have hknown : ∀ token ∈ tokens, ∃ line : V24Line, token.word = line.typedName := by
      intro token htoken
      have hmem : token.word ∈ tokens.map SpacedWord.word := List.mem_map_of_mem htoken
      rw [htokens, hnames] at hmem
      obtain ⟨line, hline, hname⟩ := mem_invertedNames.mp hmem
      obtain ⟨htxc, hrxc⟩ := hclock line hline
      exact ⟨line, hname.symm.trans (printedName_eq_typedName htxc hrxc)⟩
    obtain ⟨next, hnext, hlines⟩ := invertLines_typed hknown .zero
    rw [hnext, Option.some_inj]
    apply polarities_ext
    intro line
    have hline : line.typedName ∈ listWords segments ↔ line.inverted polarities = true := by
      rw [hnames, typedName_mem_invertedNames]
      exact ⟨And.left, fun hline => ⟨hline, hclock line hline⟩⟩
    rw [hlines, inverted_zero, Bool.false_or, htokens]
    simp only [hline, Bool.decide_eq_true]

/-- RTS and DTR are inverted. -/
def rtsDtrInverted : V24Polarities :=
  { V24Polarities.zero with
    tx_polarities := { V24Polarities.zero.tx_polarities with rts_inverted := true, dtr_inverted := true } }

/-- The names of DTR, RTS and again DTR, with spaces around the first one and an
empty segment behind it. -/
def dtrRtsDtr : List (Option (SpacedWord ',')) :=
  [some ⟨1, "dtr".toList, 1, by decide, by decide, by decide⟩, none,
    some ⟨0, "rts".toList, 0, by decide, by decide, by decide⟩,
    some ⟨0, "dtr".toList, 0, by decide, by decide, by decide⟩]

theorem printed_polarities_read_back_iff_rts_dtr :
    parse_set_v24_polarities "invert  dtr ,,rts,dtr".toList = .ok rtsDtrInverted := by
  have hnames : ∀ name, name ∈ listWords dtrRtsDtr ↔ name ∈ emittedNames rtsDtrInverted := by
    intro name
    change name ∈ ["dtr".toList, "rts".toList, "dtr".toList] ↔ name ∈ ["rts".toList, "dtr".toList]
    simp only [List.mem_cons, List.not_mem_nil, or_false]
    tauto
  exact (printed_polarities_read_back_iff (by decide) hnames (by decide) (.inr rfl)).mpr ⟨rfl, rfl⟩

/-- The transmit clock is inverted. -/
def txcInverted : V24Polarities :=
  { V24Polarities.zero with tx_polarities := { V24Polarities.zero.tx_polarities with txc_inverted := true } }

/-- The printed name of the transmit clock is not accepted. -/
theorem not_printed_polarities_read_back :
    print_v24_polarities txcInverted = "polarities: txc\r\n".toList ∧ emittedNames txcInverted = ["txc".toList] ∧
      parse_set_v24_polarities "txc".toList = .error .E2S_ERR_CLI_USAGE_SET := ⟨rfl, rfl, rfl⟩

end ether2ser.control_plane
