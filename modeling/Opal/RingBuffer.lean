import Mathlib.Data.List.Basic
import Mathlib.Data.Nat.ModEq

set_option autoImplicit false

-- A bounded FIFO kept in a circular array. The two bounds travel with the
-- value, so no operation can be given a head outside the array or a count
-- above its capacity.
structure RingBuffer (α : Type) (cap : Nat) where
  slots : Vector α cap
  head : Nat
  count : Nat
  head_lt : head < cap
  count_le : count ≤ cap

namespace RingBuffer

variable {α : Type} {cap : Nat}

theorem cap_pos (ring : RingBuffer α cap) : 0 < cap := Nat.lt_of_le_of_lt (Nat.zero_le _) ring.head_lt

def empty (fill : α) (room : 0 < cap) : RingBuffer α cap := ⟨.replicate cap fill, 0, 0, room, Nat.zero_le _⟩

def enqueue (ring : RingBuffer α cap) (item : α) : Bool × RingBuffer α cap :=
  if full : ring.count ≥ cap then (false, ring)
  else
    have bound := Nat.mod_lt (ring.head + ring.count) ring.cap_pos
    (true, { ring with
      slots := ring.slots.set ((ring.head + ring.count) % cap) item bound
      count := ring.count + 1
      count_le := Nat.lt_of_not_ge full })

def dequeue (ring : RingBuffer α cap) : Option α × RingBuffer α cap :=
  if ring.count = 0 then (none, ring)
  else
    have bound := ring.head_lt
    (some ring.slots[ring.head], { ring with
      head := (ring.head + 1) % cap
      count := ring.count - 1
      head_lt := Nat.mod_lt _ ring.cap_pos
      count_le := Nat.le_trans (Nat.sub_le _ _) ring.count_le })

def cell (ring : RingBuffer α cap) (offset : Nat) : α :=
  have bound := Nat.mod_lt (ring.head + offset) ring.cap_pos
  ring.slots[(ring.head + offset) % cap]

-- The abstract queue: what is waiting, the next to leave first.
def toList (ring : RingBuffer α cap) : List α := (List.range ring.count).map ring.cell

@[simp] theorem length_to_list (ring : RingBuffer α cap) : ring.toList.length = ring.count := by
  simp [toList]

theorem length_le_cap (ring : RingBuffer α cap) : ring.toList.length ≤ cap := by
  simpa using ring.count_le

@[simp] theorem to_list_empty (fill : α) (room : 0 < cap) : (empty fill room).toList = [] := rfl

theorem to_list_eq_nil (ring : RingBuffer α cap) : ring.toList = [] ↔ ring.count = 0 := by
  rw [← List.length_eq_zero_iff, length_to_list]

theorem offset_injective (head i j : Nat) (below : i < cap) (also : j < cap)
    (same : (head + i) % cap = (head + j) % cap) : i = j := by
  have residues : Nat.ModEq cap i j := Nat.ModEq.add_left_cancel' head same
  exact Nat.ModEq.eq_of_lt_of_lt residues below also

theorem enqueue_full (ring : RingBuffer α cap) (item : α) (full : ring.count ≥ cap) :
    ring.enqueue item = (false, ring) := by
  simp [enqueue, full]

theorem enqueue_accepts (ring : RingBuffer α cap) (item : α) :
    (ring.enqueue item).1 = decide (ring.toList.length < cap) := by
  rw [length_to_list]
  by_cases full : ring.count ≥ cap
  · simp [enqueue, full, Nat.not_lt.mpr full]
  · simp [enqueue, full, Nat.lt_of_not_ge full]

theorem enqueue_to_list_of_room (ring : RingBuffer α cap) (item : α) (room : ring.count < cap) :
    (ring.enqueue item).2.toList = ring.toList ++ [item] := by
  have open_ : ¬ ring.count ≥ cap := Nat.not_le.mpr room
  simp only [enqueue, open_, dite_false, toList, List.range_succ, List.map_append, List.map_cons, List.map_nil]
  congr 1
  · apply List.map_congr_left
    intro i member
    have below : i < ring.count := List.mem_range.mp member
    have apart : (ring.head + ring.count) % cap ≠ (ring.head + i) % cap := fun same => by
      have := offset_injective ring.head ring.count i room (Nat.lt_trans below room) same
      omega
    simp [cell, Vector.getElem_set_ne, apart]
  · simp [cell]

-- A full ring refuses the item, which is what taking the first cap items says.
theorem enqueue_to_list (ring : RingBuffer α cap) (item : α) :
    (ring.enqueue item).2.toList = (ring.toList ++ [item]).take cap := by
  by_cases room : ring.count < cap
  · rw [enqueue_to_list_of_room ring item room, List.take_of_length_le]
    simp only [List.length_append, length_to_list, List.length_singleton]
    omega
  · have exactly : ring.toList.length = cap := by
      rw [length_to_list]
      exact Nat.le_antisymm ring.count_le (Nat.le_of_not_lt room)
    rw [enqueue_full ring item (Nat.le_of_not_lt room), List.take_append_of_le_length (Nat.le_of_eq exactly.symm),
      List.take_of_length_le (Nat.le_of_eq exactly)]

theorem dequeue_nil (ring : RingBuffer α cap) (none_waiting : ring.toList = []) : ring.dequeue = (none, ring) := by
  simp [dequeue, (to_list_eq_nil ring).mp none_waiting]

theorem dequeue_cons (ring : RingBuffer α cap) (item : α) (rest : List α) (waiting : ring.toList = item :: rest) :
    ring.dequeue.1 = some item ∧ ring.dequeue.2.toList = rest := by
  have positive : ring.count ≠ 0 := fun zero => by
    rw [(to_list_eq_nil ring).mpr zero] at waiting
    cases waiting
  obtain ⟨n, count⟩ := Nat.exists_eq_succ_of_ne_zero positive
  have shape : ring.toList = ring.cell 0 :: (List.range n).map (fun i => ring.cell (i + 1)) := by
    simp only [toList, count, List.range_succ_eq_map, List.map_cons, List.map_map]
    rfl
  rw [shape] at waiting
  obtain ⟨first, remaining⟩ := List.cons.inj waiting
  have head : ring.head % cap = ring.head := Nat.mod_eq_of_lt ring.head_lt
  constructor
  · rw [← first]
    simp [dequeue, positive, cell, head]
  · rw [← remaining]
    simp only [dequeue, toList, count, Nat.succ_eq_add_one, Nat.add_sub_cancel]
    apply List.map_congr_left
    intro i _
    have shift : ((ring.head + 1) % cap + i) % cap = (ring.head + (i + 1)) % cap := by
      rw [Nat.mod_add_mod]
      congr 1
      omega
    simp [cell, shift]

end RingBuffer
