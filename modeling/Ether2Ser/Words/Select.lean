import Mathlib.Data.List.Basic

namespace Words

variable {α : Type}

/-- The letters of a text whose mark is set. -/
def select : List Bool → List α → List α
  | true :: keep, letter :: text => letter :: select keep text
  | false :: keep, _ :: text => select keep text
  | _, _ => []

@[simp]
theorem select_nil (keep : List Bool) : select keep ([] : List α) = [] := by
  cases keep with
  | nil => rfl
  | cons mark keep => cases mark <;> rfl

theorem mem_of_mem_select {keep : List Bool} {text : List α} {letter : α} (h : letter ∈ select keep text) :
    letter ∈ text := by
  induction keep generalizing text with
  | nil => cases h
  | cons mark keep ih =>
    cases text with
    | nil =>
      rw [select_nil] at h
      cases h
    | cons first text =>
      cases mark with
      | true =>
        rcases List.mem_cons.mp h with rfl | hmem
        · exact List.mem_cons_self
        · exact List.mem_cons_of_mem first (ih hmem)
      | false => exact List.mem_cons_of_mem first (ih h)

theorem select_append {keep : List Bool} {text : List α} (hlength : keep.length = text.length) (others : List Bool)
    (more : List α) : select (keep ++ others) (text ++ more) = select keep text ++ select others more := by
  induction keep generalizing text with
  | nil =>
    rw [List.length_nil] at hlength
    rw [List.eq_nil_of_length_eq_zero hlength.symm]
    rfl
  | cons mark keep ih =>
    cases text with
    | nil => simp at hlength
    | cons letter text =>
      rw [List.length_cons, List.length_cons, Nat.succ_inj] at hlength
      cases mark with
      | true => exact congrArg (letter :: ·) (ih hlength)
      | false => exact ih hlength

theorem select_of_all {keep : List Bool} {text : List α} (hlength : keep.length = text.length)
    (hall : ∀ mark ∈ keep, mark = true) : select keep text = text := by
  induction keep generalizing text with
  | nil =>
    rw [List.length_nil] at hlength
    rw [List.eq_nil_of_length_eq_zero hlength.symm]
    rfl
  | cons mark keep ih =>
    cases text with
    | nil => simp at hlength
    | cons letter text =>
      rw [List.length_cons, List.length_cons, Nat.succ_inj] at hlength
      rw [hall mark List.mem_cons_self]
      exact congrArg (letter :: ·) (ih hlength fun other hmem => hall other (List.mem_cons_of_mem _ hmem))

/-- A text with a middle part that is kept as a whole. -/
theorem select_of_middle {keep : List Bool} {first middle last : List α}
    (hlength : keep.length = first.length + (middle.length + last.length))
    (hmiddle : ∀ mark ∈ (keep.drop first.length).take middle.length, mark = true) :
    select keep (first ++ (middle ++ last)) =
      select (keep.take first.length) first ++ (middle ++ select (keep.drop (first.length + middle.length)) last) := by
  have hsplit : keep = keep.take first.length ++
      ((keep.drop first.length).take middle.length ++ keep.drop (first.length + middle.length)) := by
    have hbehind : keep.drop (first.length + middle.length) = (keep.drop first.length).drop middle.length :=
      List.drop_drop.symm
    rw [hbehind, List.take_append_drop, List.take_append_drop]
  have hkept : select ((keep.drop first.length).take middle.length) middle = middle := by
    apply select_of_all _ hmiddle
    rw [List.length_take, List.length_drop]
    omega
  calc select keep (first ++ (middle ++ last))
    _ = select (keep.take first.length ++ ((keep.drop first.length).take middle.length ++
          keep.drop (first.length + middle.length))) (first ++ (middle ++ last)) := congrArg (select · _) hsplit
    _ = select (keep.take first.length) first ++
          (middle ++ select (keep.drop (first.length + middle.length)) last) := by
      rw [select_append (by rw [List.length_take]; omega),
        select_append (by rw [List.length_take, List.length_drop]; omega), hkept]

theorem select_replicate_false (n : Nat) (text : List α) : select (List.replicate n false) text = [] := by
  induction n generalizing text with
  | zero => rfl
  | succ n ih =>
    cases text with
    | nil => exact select_nil _
    | cons letter text => exact ih text

/-- What is left of a run of one letter is a run of it. -/
theorem select_replicate (keep : List Bool) (letter : α) (n : Nat) :
    ∃ m, select keep (List.replicate n letter) = List.replicate m letter := by
  induction keep generalizing n with
  | nil => exact ⟨0, rfl⟩
  | cons mark keep ih =>
    cases n with
    | zero => exact ⟨0, select_nil _⟩
    | succ n =>
      obtain ⟨m, hm⟩ := ih n
      cases mark with
      | true => exact ⟨m + 1, congrArg (letter :: ·) hm⟩
      | false => exact ⟨m, hm⟩

theorem select_replicate_of_head {keep : List Bool} (letter : α) (n : Nat) (hhead : keep.head? = some true) :
    ∃ m, select keep (List.replicate (n + 1) letter) = List.replicate (m + 1) letter := by
  cases keep with
  | nil => cases hhead
  | cons mark keep =>
    rw [List.head?_cons, Option.some_inj] at hhead
    subst hhead
    obtain ⟨m, hm⟩ := select_replicate keep letter n
    exact ⟨m, congrArg (letter :: ·) hm⟩

end Words
