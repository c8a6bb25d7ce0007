import Mathlib.Data.Vector.Basic
import Ether2Ser.Control.Machine
import Ether2Ser.Memory.Fifo
import Ether2Ser.System.Ringbuffer

open Memory Machine

namespace ether2ser.ringbuffer

/-- A call on a ring buffer. The elements that `memcpy` reads have the size of an item. -/
inductive RbCall (β : Type) (itemSizeInByte : Nat) where
  | pushBack (element : List.Vector β itemSizeInByte)
  | popFront
  | pushBackWrap (element : List.Vector β itemSizeInByte)

/-- What a call returns. `pushBackWrap` returns nothing. -/
inductive RbAnswer (β : Type) where
  | pushed (ok : Bool)
  | popped (item : Option (List β))
  | wrapped
  deriving DecidableEq

section

variable {β : Type} {capacity itemSizeInByte : Nat}

def respond (rb : Ringbuffer β) : RbCall β itemSizeInByte → RbAnswer β × Ringbuffer β
  | .pushBack element =>
    match RbPushBack rb element.toList with
    | none => (.pushed false, rb)
    | some rb => (.pushed true, rb)
  | .popFront =>
    match RbPopFront rb with
    | none => (.popped none, rb)
    | some (item, rb) => (.popped (some item), rb)
  | .pushBackWrap element => (.wrapped, RbPushBackWrap rb element.toList)

/-- The same call on the queue that a ring buffer stands for. -/
def respondFifo (hcapacity : 0 < capacity) (queue : Fifo (List β) capacity) :
    RbCall β itemSizeInByte → RbAnswer β × Fifo (List β) capacity
  | .pushBack element => (.pushed (queue.push element.toList).1, (queue.push element.toList).2)
  | .popFront => (.popped queue.pop.1, queue.pop.2)
  | .pushBackWrap element => (.wrapped, queue.pushWrap hcapacity element.toList)

/-- A ring buffer of the given dimensions that holds the items of a queue. -/
structure Represents (itemSizeInByte : Nat) (rb : Ringbuffer β) (queue : Fifo (List β) capacity) : Prop where
  holds : Holds rb queue.items
  capacity_eq : rb.capacity = capacity
  size_eq : rb.itemSizeInByte = itemSizeInByte

theorem represents_RbInit (zero : β) (hcapacity : 0 < capacity) (hsize : 0 < itemSizeInByte) :
    Represents itemSizeInByte (RbInit zero capacity itemSizeInByte) (Fifo.empty : Fifo (List β) capacity) where
  holds := holds_RbInit zero hcapacity hsize
  capacity_eq := rfl
  size_eq := rfl

section

variable {rb : Ringbuffer β} {queue : Fifo (List β) capacity}

/-- No call changes the dimensions of a buffer. -/
theorem Represents.next (h : Represents itemSizeInByte rb queue) {rb' : Ringbuffer β} {queue' : Fifo (List β) capacity}
    (hnext : Holds rb' queue'.items ∧ rb'.capacity = rb.capacity ∧ rb'.itemSizeInByte = rb.itemSizeInByte) :
    Represents itemSizeInByte rb' queue' where
  holds := hnext.1
  capacity_eq := hnext.2.1.trans h.capacity_eq
  size_eq := hnext.2.2.trans h.size_eq

theorem Represents.pushBack (h : Represents itemSizeInByte rb queue) (hcapacity : 0 < capacity)
    (element : List.Vector β itemSizeInByte) :
    (respond rb (.pushBack element)).1 = (respondFifo hcapacity queue (.pushBack element)).1 ∧
      Represents itemSizeInByte (respond rb (.pushBack element)).2
        (respondFifo hcapacity queue (.pushBack element)).2 := by
  simp only [respond, respondFifo]
  by_cases hroom : queue.items.length < capacity
  · obtain ⟨hok, hitems⟩ := Fifo.push_room hroom element.toList
    obtain ⟨rb', hpush, hnext⟩ :=
      h.holds.push (element.toList_length.trans h.size_eq.symm) (by rwa [h.capacity_eq])
    rw [← hitems] at hnext
    rw [hpush, hok]
    exact ⟨rfl, h.next hnext⟩
  · have hfull := Fifo.length_eq_of_not_lt hroom
    rw [Fifo.push_full hfull, h.holds.push_full _ (hfull.trans h.capacity_eq.symm)]
    exact ⟨rfl, h⟩

theorem Represents.popFront (h : Represents itemSizeInByte rb queue) (hcapacity : 0 < capacity) :
    (respond rb (.popFront : RbCall β itemSizeInByte)).1 =
        (respondFifo hcapacity queue (.popFront : RbCall β itemSizeInByte)).1 ∧
      Represents itemSizeInByte (respond rb (.popFront : RbCall β itemSizeInByte)).2
        (respondFifo hcapacity queue (.popFront : RbCall β itemSizeInByte)).2 := by
  have hholds := h.holds
  simp only [respond, respondFifo]
  cases hitems : queue.items with
  | nil =>
    rw [hitems] at hholds
    rw [hholds.pop_empty, Fifo.pop_empty hitems]
    exact ⟨rfl, h⟩
  | cons item items =>
    obtain ⟨hitem, hrest⟩ := Fifo.pop_cons hitems
    rw [hitems] at hholds
    obtain ⟨rb', hpop, hnext⟩ := hholds.pop
    rw [← hrest] at hnext
    rw [hpop, hitem]
    exact ⟨rfl, h.next hnext⟩

theorem Represents.pushBackWrap (h : Represents itemSizeInByte rb queue) (hcapacity : 0 < capacity)
    (element : List.Vector β itemSizeInByte) :
    Represents itemSizeInByte (RbPushBackWrap rb element.toList) (queue.pushWrap hcapacity element.toList) := by
  have helement := element.toList_length.trans h.size_eq.symm
  by_cases hroom : queue.items.length < capacity
  · have hnext := h.holds.pushWrap helement (by rwa [h.capacity_eq])
    rw [← Fifo.pushWrap_room hcapacity hroom] at hnext
    exact h.next hnext
  · have hfull := Fifo.length_eq_of_not_lt hroom
    have hnext := h.holds.pushWrap_full helement (hfull.trans h.capacity_eq.symm)
    rw [← Fifo.pushWrap_full hcapacity hfull] at hnext
    exact h.next hnext

end

theorem respond_simulates (hcapacity : 0 < capacity) :
    Simulates (@respond β itemSizeInByte) (respondFifo hcapacity) (Represents itemSizeInByte) where
  answer_eq h call := by
    cases call with
    | pushBack element => exact (h.pushBack hcapacity element).1
    | popFront => exact (h.popFront hcapacity).1
    | pushBackWrap element => rfl
  preserves h call := by
    cases call with
    | pushBack element => exact (h.pushBack hcapacity element).2
    | popFront => exact (h.popFront hcapacity).2
    | pushBackWrap element => exact h.pushBackWrap hcapacity element

/-- Both cursors stand on items inside the storage. -/
theorem Represents.cursors {rb : Ringbuffer β} {queue : Fifo (List β) capacity}
    (h : Represents itemSizeInByte rb queue) :
    (∃ slot < capacity, rb.head = slot * itemSizeInByte) ∧ ∃ slot < capacity, rb.tail = slot * itemSizeInByte := by
  obtain ⟨hholds, rfl, rfl⟩ := h
  obtain ⟨first, hfirst, htail, hhead, _⟩ := hholds.slots
  exact ⟨⟨_, Nat.mod_lt _ hholds.capacity_pos, hhead⟩, first, hfirst, htail⟩

/-- A ring buffer answers every sequence of calls as a bounded queue does. It
counts the items of this queue, and its cursors stay on items of its storage. -/
theorem ringbuffer_refines_fifo (zero : β) (hcapacity : 0 < capacity) (hsize : 0 < itemSizeInByte)
    (calls : List (RbCall β itemSizeInByte)) :
    answers respond (RbInit zero capacity itemSizeInByte) calls = answers (respondFifo hcapacity) .empty calls ∧
      (final respond (RbInit zero capacity itemSizeInByte) calls).count =
        (final (respondFifo hcapacity) .empty calls).items.length ∧
      (final respond (RbInit zero capacity itemSizeInByte) calls).buffer.length = capacity * itemSizeInByte ∧
      (∃ slot < capacity,
        (final respond (RbInit zero capacity itemSizeInByte) calls).head = slot * itemSizeInByte) ∧
      ∃ slot < capacity,
        (final respond (RbInit zero capacity itemSizeInByte) calls).tail = slot * itemSizeInByte := by
  have hstart := represents_RbInit zero hcapacity hsize
  have hfinal := (respond_simulates hcapacity).final hstart calls
  have hlength := hfinal.holds.length_buffer
  rw [hfinal.capacity_eq, hfinal.size_eq] at hlength
  exact ⟨(respond_simulates hcapacity).answers_eq hstart calls, hfinal.holds.count_eq, hlength, hfinal.cursors⟩

end

/-- Two items fill the buffer, a third one takes the place of the oldest, and the
second one is then the oldest. -/
theorem ringbuffer_refines_fifo_wrapped :
    answers respond (RbInit (0 : UInt8) 2 1) [.pushBack ⟨[1], rfl⟩, .pushBack ⟨[2], rfl⟩, .pushBackWrap ⟨[3], rfl⟩,
        .pushBack ⟨[4], rfl⟩, .popFront] =
      [.pushed true, .pushed true, .wrapped, .pushed false, .popped (some [2])] :=
  (ringbuffer_refines_fifo 0 (by decide) (by decide) _).1

end ether2ser.ringbuffer
