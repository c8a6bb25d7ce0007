import Ether2Ser.Memory.Ring
import Ether2Ser.Memory.Slots

open Memory

namespace ether2ser.ringbuffer

/-- `Ringbuffer` over cells of type `β`. Pointers are offsets from the start of
the storage, and an item takes `itemSizeInByte` cells. -/
structure Ringbuffer (β : Type) where
  buffer : List β
  bufferEnd : Nat
  capacity : Nat
  count : Nat
  itemSizeInByte : Nat
  head : Nat
  tail : Nat

def RbInit {β : Type} (zero : β) (capacity itemSizeInByte : Nat) : Ringbuffer β where
  buffer := List.replicate (capacity * itemSizeInByte) zero
  bufferEnd := capacity * itemSizeInByte
  capacity := capacity
  count := 0
  itemSizeInByte := itemSizeInByte
  head := 0
  tail := 0

/-- Move a cursor by one item, from the end of the storage to its start. -/
def Ringbuffer.advance {β : Type} (rb : Ringbuffer β) (cursor : Nat) : Nat :=
  if cursor + rb.itemSizeInByte = rb.bufferEnd then 0 else cursor + rb.itemSizeInByte

/-- The buffer after a push, unless it was full. -/
def RbPushBack {β : Type} (rb : Ringbuffer β) (element : List β) : Option (Ringbuffer β) :=
  if rb.count = rb.capacity then none
  else some
    { rb with
      buffer := store rb.buffer rb.head element
      head := rb.advance rb.head
      count := rb.count + 1 }

/-- The oldest item and the buffer without it, unless it was empty. -/
def RbPopFront {β : Type} (rb : Ringbuffer β) : Option (List β × Ringbuffer β) :=
  if rb.count = 0 then none
  else some (load rb.buffer rb.tail rb.itemSizeInByte,
    { rb with
      tail := rb.advance rb.tail
      count := rb.count - 1 })

/-- The buffer after a push that takes the place of the oldest item where the
buffer was full. -/
def RbPushBackWrap {β : Type} (rb : Ringbuffer β) (element : List β) : Ringbuffer β :=
  let rb :=
    if rb.count = rb.capacity then { rb with tail := rb.advance rb.tail }
    else { rb with count := rb.count + 1 }
  { rb with
    buffer := store rb.buffer rb.head element
    head := rb.advance rb.head }

/-- The ring buffer holds the given items, the oldest one first. -/
structure Holds {β : Type} (rb : Ringbuffer β) (items : List (List β)) : Prop where
  capacity_pos : 0 < rb.capacity
  length_buffer : rb.buffer.length = rb.capacity * rb.itemSizeInByte
  end_eq : rb.bufferEnd = rb.capacity * rb.itemSizeInByte
  size_pos : 0 < rb.itemSizeInByte
  count_eq : rb.count = items.length
  count_le : items.length ≤ rb.capacity
  slots : ∃ first < rb.capacity, rb.tail = first * rb.itemSizeInByte ∧
    rb.head = (first + items.length) % rb.capacity * rb.itemSizeInByte ∧
    ∀ i (hi : i < items.length),
      load rb.buffer ((first + i) % rb.capacity * rb.itemSizeInByte) rb.itemSizeInByte = items[i]

theorem holds_RbInit {β : Type} (zero : β) {capacity itemSizeInByte : Nat} (hcapacity : 0 < capacity)
    (hsize : 0 < itemSizeInByte) : Holds (RbInit zero capacity itemSizeInByte) [] where
  capacity_pos := hcapacity
  length_buffer := List.length_replicate
  end_eq := rfl
  size_pos := hsize
  count_eq := rfl
  count_le := Nat.zero_le _
  slots := ⟨0, hcapacity, (Nat.zero_mul _).symm, by simp [RbInit], by simp⟩

/-- A cursor on a slot moves to the next slot. -/
theorem Holds.advance_eq {β : Type} {rb : Ringbuffer β} {items : List (List β)} (h : Holds rb items) {slot : Nat}
    (hslot : slot < rb.capacity) :
    rb.advance (slot * rb.itemSizeInByte) = (slot + 1) % rb.capacity * rb.itemSizeInByte := by
  have hnext : slot * rb.itemSizeInByte + rb.itemSizeInByte = (slot + 1) * rb.itemSizeInByte :=
    (Nat.succ_mul ..).symm
  unfold Ringbuffer.advance
  rw [h.end_eq, hnext]
  by_cases hlast : slot + 1 = rb.capacity
  · rw [hlast, if_pos rfl, Nat.mod_self, Nat.zero_mul]
  · rw [if_neg, Nat.mod_eq_of_lt (by omega)]
    exact fun heq => hlast (Nat.eq_of_mul_eq_mul_right h.size_pos heq)

theorem Holds.push {β : Type} {rb : Ringbuffer β} {items : List (List β)} (h : Holds rb items) {element : List β}
    (hsize : element.length = rb.itemSizeInByte) (hroom : items.length < rb.capacity) :
    ∃ rb', RbPushBack rb element = some rb' ∧ Holds rb' (items ++ [element]) ∧ rb'.capacity = rb.capacity ∧
      rb'.itemSizeInByte = rb.itemSizeInByte := by
  obtain ⟨first, hfirst, htail, hhead, hslots⟩ := h.slots
  have hcount := h.count_eq
  have hslot : (first + items.length) % rb.capacity < rb.capacity := Nat.mod_lt _ h.capacity_pos
  have hfits : (first + items.length) % rb.capacity * rb.itemSizeInByte + element.length ≤ rb.buffer.length := by
    rw [h.length_buffer, hsize, ← Nat.succ_mul]
    exact Nat.mul_le_mul_right _ hslot
  refine ⟨_, if_neg (by omega), ?_, rfl, rfl⟩
  exact
    { h with
      length_buffer := by
        rw [hhead, length_store hfits]
        exact h.length_buffer
      count_eq := by
        simp only [List.length_append, List.length_singleton]
        omega
      count_le := by
        simp only [List.length_append, List.length_singleton]
        omega
      slots := by
        refine ⟨first, hfirst, htail, ?_, ?_⟩
        · rw [hhead, h.advance_eq hslot, List.length_append, List.length_singleton, ← Nat.add_assoc, Nat.mod_add_mod]
        · intro i hi
          simp only [List.length_append, List.length_singleton] at hi
          by_cases hlast : i = items.length
          · subst hlast
            rw [List.getElem_concat_length rfl, hhead, load_store_same hsize hfits]
          · rw [List.getElem_append_left (by omega), hhead,
              load_store_slot hsize (ring_index_ne first (by omega) hroom) (by rw [hsize] at hfits; exact hfits)]
            exact hslots i (by omega) }

theorem Holds.push_full {β : Type} {rb : Ringbuffer β} {items : List (List β)} (h : Holds rb items) (element : List β)
    (hfull : items.length = rb.capacity) : RbPushBack rb element = none :=
  if_pos (h.count_eq.trans hfull)

theorem Holds.pop {β : Type} {rb : Ringbuffer β} {item : List β} {items : List (List β)}
    (h : Holds rb (item :: items)) :
    ∃ rb', RbPopFront rb = some (item, rb') ∧ Holds rb' items ∧ rb'.capacity = rb.capacity ∧
      rb'.itemSizeInByte = rb.itemSizeInByte := by
  obtain ⟨first, hfirst, htail, hhead, hslots⟩ := h.slots
  have hcount := h.count_eq
  have hle := h.count_le
  rw [List.length_cons] at hcount hle
  have hitem : load rb.buffer rb.tail rb.itemSizeInByte = item := by
    have hslot := hslots 0 (by simp)
    rw [Nat.add_zero, Nat.mod_eq_of_lt hfirst, ← htail] at hslot
    exact hslot
  unfold RbPopFront
  rw [if_neg (by omega), hitem]
  refine ⟨_, rfl, ?_, rfl, rfl⟩
  exact
    { h with
      count_eq := by
        simp only
        omega
      count_le := Nat.le_of_succ_le hle
      slots := by
        refine ⟨(first + 1) % rb.capacity, Nat.mod_lt _ h.capacity_pos, ?_, ?_, ?_⟩
        · rw [htail, h.advance_eq hfirst]
        · rw [hhead, List.length_cons, Nat.mod_add_mod, Nat.add_assoc, Nat.add_comm items.length]
        · intro i hi
          have hslot := hslots (i + 1) (by rw [List.length_cons]; omega)
          rw [Nat.mod_add_mod, Nat.add_assoc, Nat.add_comm 1 i]
          exact hslot }

/-- With room a wrapping push is a push. -/
theorem RbPushBackWrap_of_push {β : Type} {rb rb' : Ringbuffer β} {element : List β}
    (hpush : RbPushBack rb element = some rb') : RbPushBackWrap rb element = rb' := by
  unfold RbPushBack at hpush
  split at hpush
  · cases hpush
  · rename_i hroom
    cases hpush
    unfold RbPushBackWrap
    rw [if_neg hroom]
    rfl

/-- A wrapping push into a full buffer is a pop and a push. -/
theorem RbPushBackWrap_of_pop {β : Type} {rb rb' rb'' : Ringbuffer β} {item element : List β}
    (hfull : rb.count = rb.capacity) (hpop : RbPopFront rb = some (item, rb'))
    (hpush : RbPushBack rb' element = some rb'') : RbPushBackWrap rb element = rb'' := by
  unfold RbPopFront at hpop
  split at hpop
  · cases hpop
  · rename_i hcount
    cases hpop
    unfold RbPushBack at hpush
    split at hpush
    · cases hpush
    · cases hpush
      unfold RbPushBackWrap
      have hsame : rb.count - 1 + 1 = rb.count := Nat.sub_add_cancel (Nat.pos_of_ne_zero hcount)
      rw [if_pos hfull]
      simp only [hsame]
      rfl

theorem Holds.pushWrap {β : Type} {rb : Ringbuffer β} {items : List (List β)} (h : Holds rb items) {element : List β}
    (hsize : element.length = rb.itemSizeInByte) (hroom : items.length < rb.capacity) :
    Holds (RbPushBackWrap rb element) (items ++ [element]) ∧ (RbPushBackWrap rb element).capacity = rb.capacity ∧
      (RbPushBackWrap rb element).itemSizeInByte = rb.itemSizeInByte := by
  obtain ⟨rb', hpush, hrb'⟩ := h.push hsize hroom
  rw [RbPushBackWrap_of_push hpush]
  exact hrb'

theorem Holds.pushWrap_full {β : Type} {rb : Ringbuffer β} {items : List (List β)} (h : Holds rb items)
    {element : List β} (hsize : element.length = rb.itemSizeInByte) (hfull : items.length = rb.capacity) :
    Holds (RbPushBackWrap rb element) (items.tail ++ [element]) ∧
      (RbPushBackWrap rb element).capacity = rb.capacity ∧
      (RbPushBackWrap rb element).itemSizeInByte = rb.itemSizeInByte := by
  have hpos := h.capacity_pos
  obtain ⟨item, items, rfl⟩ := List.exists_cons_of_ne_nil (List.ne_nil_of_length_pos (by omega : 0 < items.length))
  obtain ⟨rb', hpop, hrb', hcapacity', hsize'⟩ := h.pop
  rw [List.length_cons] at hfull
  obtain ⟨rb'', hpush, hrb'', hcapacity'', hsize''⟩ := hrb'.push (hsize.trans hsize'.symm) (by omega)
  rw [RbPushBackWrap_of_pop (h.count_eq.trans hfull) hpop hpush]
  exact ⟨hrb'', hcapacity''.trans hcapacity', hsize''.trans hsize'⟩

theorem Holds.pop_empty {β : Type} {rb : Ringbuffer β} (h : Holds rb []) : RbPopFront rb = none := if_pos h.count_eq

end ether2ser.ringbuffer
