import Mathlib.Data.List.Basic

namespace Memory

variable {β : Type}

/-- A ring of `size` cells with one reserved cell holds the given items, the
oldest one in cell `first`. -/
structure RingHolds (size : Nat) (cells : List β) (first : Nat) (items : List β) : Prop where
  length_cells : cells.length = size
  first_lt : first < size
  reserved : items.length < size
  slots : ∀ i (hi : i < items.length), cells[(first + i) % size]? = some items[i]

/-- The cell behind the last item. -/
def ringEnd (size first : Nat) (items : List β) : Nat := (first + items.length) % size

section

variable {size first : Nat} {cells items : List β} {item : β}

theorem RingHolds.size_pos (h : RingHolds size cells first items) : 0 < size :=
  Nat.lt_of_le_of_lt (Nat.zero_le _) h.first_lt

theorem ringHolds_nil (hcells : cells.length = size) (hfirst : first < size) : RingHolds size cells first [] where
  length_cells := hcells
  first_lt := hfirst
  reserved := Nat.lt_of_le_of_lt (Nat.zero_le _) hfirst
  slots := by simp

theorem ringEnd_lt (h : RingHolds size cells first items) : ringEnd size first items < size := Nat.mod_lt _ h.size_pos

/-- Positions less than a ring apart are in different cells. -/
theorem ring_index_ne (first : Nat) {i j : Nat} (hlt : i < j) (hj : j < size) :
    (first + j) % size ≠ (first + i) % size := by
  intro heq
  have hdiff := Nat.sub_mod_eq_zero_of_mod_eq heq
  rw [Nat.add_sub_add_left, Nat.mod_eq_of_lt (by omega)] at hdiff
  omega

theorem ringEnd_eq_first_iff (h : RingHolds size cells first items) :
    ringEnd size first items = first ↔ items = [] := by
  constructor
  · intro heq
    by_contra hne
    have hpos : 0 < items.length := List.length_pos_iff.mpr hne
    apply ring_index_ne first hpos h.reserved
    rw [Nat.add_zero, Nat.mod_eq_of_lt h.first_lt]
    exact heq
  · intro hnil
    rw [ringEnd, hnil, List.length_nil, Nat.add_zero, Nat.mod_eq_of_lt h.first_lt]

/-- The ring is full once only the reserved cell is left. -/
theorem ringEnd_succ_eq_first_iff (h : RingHolds size cells first items) :
    (ringEnd size first items + 1) % size = first ↔ items.length + 1 = size := by
  have hreserved := h.reserved
  rw [ringEnd, Nat.mod_add_mod, Nat.add_assoc]
  constructor
  · intro heq
    by_contra hne
    apply ring_index_ne first (Nat.succ_pos items.length) (show items.length + 1 < size by omega)
    rw [Nat.add_zero, Nat.mod_eq_of_lt h.first_lt]
    exact heq
  · intro hfull
    rw [hfull, Nat.add_mod_right, Nat.mod_eq_of_lt h.first_lt]

/-- Writing the cell behind the last item disturbs none of them. -/
theorem RingHolds.set (h : RingHolds size cells first items) (item : β) :
    RingHolds size (cells.set (ringEnd size first items) item) first items where
  length_cells := List.length_set.trans h.length_cells
  first_lt := h.first_lt
  reserved := h.reserved
  slots := by
    intro i hi
    rw [ringEnd, List.getElem?_set_ne (ring_index_ne first hi h.reserved)]
    exact h.slots i hi

theorem RingHolds.getElem?_set (h : RingHolds size cells first items) (item : β) :
    (cells.set (ringEnd size first items) item)[ringEnd size first items]? = some item := by
  rw [List.getElem?_set_self]
  rw [h.length_cells]
  exact ringEnd_lt h

/-- Moving the end over a written cell appends its item. -/
theorem RingHolds.concat (h : RingHolds size cells first items) (hroom : items.length + 1 < size)
    (hitem : cells[ringEnd size first items]? = some item) : RingHolds size cells first (items ++ [item]) where
  length_cells := h.length_cells
  first_lt := h.first_lt
  reserved := by rwa [List.length_append, List.length_singleton]
  slots := by
    intro i hi
    rw [List.length_append, List.length_singleton] at hi
    by_cases hlast : i = items.length
    · subst hlast
      rw [List.getElem_concat_length rfl]
      exact hitem
    · rw [List.getElem_append_left (by omega)]
      exact h.slots i (by omega)

theorem ringEnd_concat : ringEnd size first (items ++ [item]) = (ringEnd size first items + 1) % size := by
  rw [ringEnd, ringEnd, Nat.mod_add_mod, List.length_append, List.length_singleton, Nat.add_assoc]

/-- The cells between the two ends determine the items. -/
theorem RingHolds.unique {others : List β} (h : RingHolds size cells first items)
    (h' : RingHolds size cells first others) (hend : ringEnd size first items = ringEnd size first others) :
    items = others := by
  have hlength : items.length = others.length := by
    by_contra hne
    rcases Nat.lt_or_gt_of_ne hne with hlt | hgt
    · exact ring_index_ne first hlt h'.reserved hend.symm
    · exact ring_index_ne first hgt h.reserved hend
  apply List.ext_getElem hlength
  intro i hi hi'
  exact Option.some_inj.mp ((h.slots i hi).symm.trans (h'.slots i hi'))

theorem RingHolds.head (h : RingHolds size cells first (item :: items)) : cells[first]? = some item := by
  have hslot := h.slots 0 (Nat.succ_pos _)
  rwa [Nat.add_zero, Nat.mod_eq_of_lt h.first_lt] at hslot

/-- Moving the start over the oldest item drops it. -/
theorem RingHolds.tail (h : RingHolds size cells first (item :: items)) :
    RingHolds size cells ((first + 1) % size) items where
  length_cells := h.length_cells
  first_lt := Nat.mod_lt _ h.size_pos
  reserved := Nat.lt_of_succ_lt h.reserved
  slots := by
    intro i hi
    have hslot := h.slots (i + 1) (Nat.succ_lt_succ hi)
    rw [Nat.mod_add_mod, Nat.add_assoc, Nat.add_comm 1 i]
    exact hslot

theorem ringEnd_cons : ringEnd size first (item :: items) = ringEnd size ((first + 1) % size) items := by
  rw [ringEnd, ringEnd, Nat.mod_add_mod, List.length_cons, Nat.add_comm items.length 1, ← Nat.add_assoc]

end

end Memory
