import Mathlib.Data.List.Basic

namespace Words

variable {α : Type}

/-- The words occur in the text as disjoint blocks, in this order. -/
inductive OccurInOrder : List (List α) → List α → Prop where
  | nil (text : List α) : OccurInOrder [] text
  | cons {words : List (List α)} {after : List α} (before word : List α) (hwords : OccurInOrder words after) :
    OccurInOrder (word :: words) (before ++ (word ++ after))

theorem OccurInOrder.append {words : List (List α)} {text : List α} (h : OccurInOrder words text) (more : List α) :
    OccurInOrder words (text ++ more) := by
  induction h with
  | nil text => exact .nil _
  | cons before word _ ih =>
    rw [List.append_assoc, List.append_assoc]
    exact .cons before word ih

theorem OccurInOrder.snoc {words : List (List α)} {text : List α} (h : OccurInOrder words text) (word : List α) :
    OccurInOrder (words ++ [word]) (text ++ word) := by
  induction h with
  | nil text =>
    have hlast := OccurInOrder.cons text word (.nil [])
    rwa [List.append_nil] at hlast
  | cons before first _ ih =>
    rw [List.append_assoc, List.append_assoc]
    exact .cons before first ih

/-- Disjoint blocks need room. -/
theorem OccurInOrder.length_le {words : List (List α)} {text : List α} (h : OccurInOrder words text) :
    words.flatten.length ≤ text.length := by
  induction h with
  | nil text => exact Nat.zero_le _
  | cons before word _ ih =>
    simp only [List.flatten_cons, List.length_append]
    omega

end Words
