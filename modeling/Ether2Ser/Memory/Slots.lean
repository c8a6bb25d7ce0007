import Mathlib.Data.List.Basic

namespace Memory

variable {β : Type}

/-- Copy `item` over the cells from `offset` on. -/
def store (cells : List β) (offset : Nat) (item : List β) : List β :=
  cells.take offset ++ (item ++ cells.drop (offset + item.length))

/-- The `size` cells from `offset` on. -/
def load (cells : List β) (offset size : Nat) : List β := (cells.drop offset).take size

theorem length_store {cells item : List β} {offset : Nat} (hfits : offset + item.length ≤ cells.length) :
    (store cells offset item).length = cells.length := by
  simp only [store, List.length_append, List.length_take, List.length_drop]
  omega

theorem load_store_same {cells item : List β} {offset size : Nat} (hitem : item.length = size)
    (hfits : offset + item.length ≤ cells.length) : load (store cells offset item) offset size = item := by
  subst hitem
  have hlen : (cells.take offset).length = offset := by
    rw [List.length_take]
    omega
  rw [load, store, List.drop_left' hlen, List.take_left]

theorem load_store_of_le {cells item : List β} {offset other size : Nat} (hbefore : other + size ≤ offset)
    (hfits : offset + item.length ≤ cells.length) :
    load (store cells offset item) other size = load cells other size := by
  have hlen : (cells.take offset).length = offset := by
    rw [List.length_take]
    omega
  rw [load, store, List.drop_append_of_le_length (by omega), List.take_append_of_le_length
    (by rw [List.length_drop]; omega), List.drop_take, List.take_take, Nat.min_eq_left (by omega)]
  rfl

theorem load_store_of_ge {cells item : List β} {offset other size : Nat} (hbehind : offset + item.length ≤ other)
    (hfits : offset + item.length ≤ cells.length) :
    load (store cells offset item) other size = load cells other size := by
  have hlen : (cells.take offset ++ item).length = offset + item.length := by
    rw [List.length_append, List.length_take]
    omega
  rw [load, store, ← List.append_assoc, List.drop_append, List.drop_eq_nil_of_le (by omega), List.nil_append, hlen,
    List.drop_drop, Nat.add_sub_cancel' hbehind]
  rfl

/-- Storing one slot leaves every other slot as it is. -/
theorem load_store_slot {cells item : List β} {size i j : Nat} (hitem : item.length = size) (hne : i ≠ j)
    (hfits : i * size + size ≤ cells.length) :
    load (store cells (i * size) item) (j * size) size = load cells (j * size) size := by
  subst hitem
  obtain hlt | hlt := Nat.lt_or_gt_of_ne hne
  · apply load_store_of_ge _ hfits
    calc i * item.length + item.length = (i + 1) * item.length := (Nat.succ_mul ..).symm
      _ ≤ j * item.length := Nat.mul_le_mul_right _ hlt
  · apply load_store_of_le _ hfits
    calc j * item.length + item.length = (j + 1) * item.length := (Nat.succ_mul ..).symm
      _ ≤ i * item.length := Nat.mul_le_mul_right _ hlt

end Memory
