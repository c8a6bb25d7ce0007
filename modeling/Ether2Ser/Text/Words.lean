import Mathlib.Data.List.ReduceOption
import Ether2Ser.Text.Numeral

namespace Text

/-- A word of a list, with spaces around it. -/
structure SpacedWord (separator : Char) where
  left : Nat
  word : List Char
  right : Nat
  word_ne : word ≠ []
  no_space : ' ' ∉ word
  no_separator : separator ∉ word

variable {separator : Char}

def SpacedWord.text (spaced : SpacedWord separator) : List Char :=
  List.replicate spaced.left ' ' ++ (spaced.word ++ List.replicate spaced.right ' ')

/-- What stands between two separators of a list: a word with spaces around it or nothing. -/
def segmentText : Option (SpacedWord separator) → List Char
  | none => []
  | some spaced => spaced.text

def listText (segments : List (Option (SpacedWord separator))) : List Char :=
  [separator].intercalate (segments.map segmentText)

def listWords (segments : List (Option (SpacedWord separator))) : List (List Char) :=
  segments.reduceOption.map SpacedWord.word

theorem SpacedWord.text_ne_nil (spaced : SpacedWord separator) : spaced.text ≠ [] := by
  simp [text, spaced.word_ne]

theorem SpacedWord.separator_not_mem (hspace : separator ≠ ' ') (spaced : SpacedWord separator) :
    separator ∉ spaced.text := by
  simp [text, spaced.no_separator, List.mem_replicate, hspace]

/-- The letters around a word are not part of it. -/
theorem SpacedWord.head_ne_space (spaced : SpacedWord separator) (rest : List Char) :
    ∀ letter ∈ (spaced.word ++ rest).head?, decide (letter = ' ') = false := by
  obtain ⟨first, word, hword⟩ := List.exists_cons_of_ne_nil spaced.word_ne
  have hspace := spaced.no_space
  rw [hword] at hspace ⊢
  intro letter hletter
  rw [← Option.some_inj.mp hletter]
  exact decide_eq_false fun heq => hspace (by simp [heq])

theorem SpacedWord.dropWhile_space (spaced : SpacedWord separator) (rest : List Char) :
    (spaced.text ++ rest).dropWhile (· = ' ') = spaced.word ++ (List.replicate spaced.right ' ' ++ rest) := by
  have hspaces : ∀ letter ∈ List.replicate spaced.left ' ', decide (letter = ' ') = true := by
    intro letter hletter
    rw [(List.mem_replicate.mp hletter).2]
    decide
  rw [text, List.append_assoc, List.append_assoc]
  exact (span_append hspaces (spaced.head_ne_space _)).2

theorem filter_map_segmentText (segments : List (Option (SpacedWord separator))) :
    (segments.map segmentText).filter (fun token => token ≠ []) = segments.reduceOption.map SpacedWord.text := by
  induction segments with
  | nil => rfl
  | cons segment segments ih =>
    cases segment with
    | none => rwa [List.map_cons, List.filter_cons_of_neg (by simp [segmentText]), List.reduceOption_cons_of_none]
    | some spaced =>
      rw [List.map_cons, List.filter_cons_of_pos (by simp [segmentText, spaced.text_ne_nil]), ih,
        List.reduceOption_cons_of_some, List.map_cons]
      rfl

/-- The tokens of a list are its words with the spaces around them. -/
theorem strtok_listText (hspace : separator ≠ ' ') (segments : List (Option (SpacedWord separator))) :
    strtok separator (listText segments) = segments.reduceOption.map SpacedWord.text := by
  rw [← filter_map_segmentText, strtok, listText]
  cases segments with
  | nil => simp
  | cons segment segments =>
    rw [List.splitOn_intercalate _ _ (by simp)]
    rw [List.forall_mem_map]
    intro segment _
    cases segment with
    | none => exact List.not_mem_nil
    | some spaced => exact spaced.separator_not_mem hspace

/-- What stands behind the first segment of a list does not depend on it. -/
theorem exists_behind (segments : List (Option (SpacedWord separator))) :
    ∃ behind, (∀ segment, listText (segment :: segments) = segmentText segment ++ behind) ∧
      ∀ letter ∈ behind.head?, letter = separator := by
  cases segments with
  | nil => exact ⟨[], fun segment => by simp [listText], nofun⟩
  | cons next segments =>
    refine ⟨separator :: listText (next :: segments), ?_, ?_⟩
    · intro segment
      simp only [listText, List.map_cons, List.intercalate_cons_cons, List.append_assoc, List.singleton_append]
    · intro letter hletter
      exact (Option.some_inj.mp hletter).symm

/-- Dropping the spaces in front of a list changes none of its words and leaves a
separator or a word in front. -/
theorem exists_dropWhile_listText (hspace : separator ≠ ' ') (segments : List (Option (SpacedWord separator))) :
    ∃ others : List (Option (SpacedWord separator)),
      (listText segments).dropWhile (· = ' ') = listText others ∧ listWords others = listWords segments ∧
        ∀ letter ∈ (listText others).head?, letter = separator ∨
          ∃ word ∈ listWords others, word.head? = some letter := by
  cases segments with
  | nil => exact ⟨[], rfl, rfl, nofun⟩
  | cons segment segments =>
    obtain ⟨behind, hbehind, hhead⟩ := exists_behind segments
    cases segment with
    | none =>
      have hstop : ∀ letter ∈ behind.head?, decide (letter = ' ') = false := by
        intro letter hletter
        rw [hhead letter hletter]
        exact decide_eq_false hspace
      refine ⟨none :: segments, ?_, rfl, ?_⟩
      · rw [hbehind]
        exact (span_append (List.forall_mem_nil _) hstop).2
      · rw [hbehind]
        exact fun letter hletter => .inl (hhead letter hletter)
    | some spaced =>
      refine ⟨some { spaced with left := 0 } :: segments, ?_, by simp [listWords], ?_⟩
      · rw [hbehind, hbehind, segmentText, segmentText, spaced.dropWhile_space]
        simp only [SpacedWord.text, List.replicate_zero, List.nil_append, List.append_assoc]
      · intro letter hletter
        refine .inr ⟨spaced.word, by simp [listWords], ?_⟩
        obtain ⟨first, word, hword⟩ := List.exists_cons_of_ne_nil spaced.word_ne
        rw [hbehind] at hletter
        simpa [segmentText, SpacedWord.text, hword] using hletter

theorem intercalate_cons (text : List Char) (texts : List (List Char)) :
    [separator].intercalate (text :: texts) = text ++ texts.flatMap (separator :: ·) := by
  induction texts generalizing text with
  | nil => simp
  | cons next texts ih => simp [List.intercalate_cons_cons, ih]

theorem listWords_of_listText_eq_nil (hspace : separator ≠ ' ') {segments : List (Option (SpacedWord separator))}
    (h : listText segments = []) : listWords segments = [] := by
  have htokens := strtok_listText hspace segments
  rw [h] at htokens
  rw [listWords, List.map_eq_nil_iff.mp htokens.symm]
  rfl

end Text
