import Mathlib.Data.List.Basic

namespace Memory

/-- A queue of at most `capacity` items, the oldest one first. -/
structure Fifo (α : Type) (capacity : Nat) where
  items : List α
  length_le : items.length ≤ capacity

namespace Fifo

variable {α : Type} {capacity : Nat}

def empty : Fifo α capacity := ⟨[], Nat.zero_le _⟩

/-- Append an item, which fails and changes nothing exactly where the queue is full. -/
def push (queue : Fifo α capacity) (item : α) : Bool × Fifo α capacity :=
  if hroom : queue.items.length < capacity then
    (true, ⟨queue.items ++ [item], by rwa [List.length_append, List.length_singleton]⟩)
  else (false, queue)

/-- Remove the oldest item, which fails exactly where the queue is empty. -/
def pop : Fifo α capacity → Option α × Fifo α capacity
  | ⟨[], hle⟩ => (none, ⟨[], hle⟩)
  | ⟨item :: items, hle⟩ => (some item, ⟨items, Nat.le_of_succ_le hle⟩)

/-- Append an item and discard the oldest one exactly where the queue is full. -/
def pushWrap (hcapacity : 0 < capacity) (queue : Fifo α capacity) (item : α) : Fifo α capacity :=
  if hroom : queue.items.length < capacity then
    ⟨queue.items ++ [item], by rwa [List.length_append, List.length_singleton]⟩
  else
    ⟨queue.items.tail ++ [item], by
      have hle := queue.length_le
      rw [List.length_append, List.length_tail, List.length_singleton]
      omega⟩

/-- A queue without room is full. -/
theorem length_eq_of_not_lt {queue : Fifo α capacity} (h : ¬ queue.items.length < capacity) :
    queue.items.length = capacity := Nat.le_antisymm queue.length_le (Nat.le_of_not_lt h)

theorem push_room {queue : Fifo α capacity} (hroom : queue.items.length < capacity) (item : α) :
    (queue.push item).1 = true ∧ (queue.push item).2.items = queue.items ++ [item] := by
  rw [push, dif_pos hroom]
  exact ⟨rfl, rfl⟩

theorem push_full {queue : Fifo α capacity} (hfull : queue.items.length = capacity) (item : α) :
    queue.push item = (false, queue) := dif_neg (by omega)

theorem pop_empty {queue : Fifo α capacity} (hempty : queue.items = []) : queue.pop = (none, queue) := by
  obtain ⟨items, hle⟩ := queue
  subst hempty
  rfl

theorem pop_cons {queue : Fifo α capacity} {item : α} {items : List α} (hitems : queue.items = item :: items) :
    queue.pop.1 = some item ∧ queue.pop.2.items = items := by
  obtain ⟨_, hle⟩ := queue
  subst hitems
  exact ⟨rfl, rfl⟩

theorem pushWrap_room (hcapacity : 0 < capacity) {queue : Fifo α capacity} (hroom : queue.items.length < capacity)
    (item : α) : (queue.pushWrap hcapacity item).items = queue.items ++ [item] := by
  rw [pushWrap, dif_pos hroom]

theorem pushWrap_full (hcapacity : 0 < capacity) {queue : Fifo α capacity} (hfull : queue.items.length = capacity)
    (item : α) : (queue.pushWrap hcapacity item).items = queue.items.tail ++ [item] := by
  rw [pushWrap, dif_neg (by omega)]

end Fifo

end Memory
