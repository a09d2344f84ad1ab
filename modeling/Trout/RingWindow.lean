import Mathlib

/-! Memory as a function from addresses to cells, block copies, and the window of a circular store:
the cells from `tail` on, `live` of them, read modulo the capacity. A contiguous block written at
the end of the window extends it, a contiguous block at its start is a prefix of it. -/

namespace RingWindow

variable {β : Type*}

/-- `memcpy` of `len` cells. -/
def copy (dst : Nat → β) (dstStart : Nat) (src : Nat → β) (srcStart len : Nat) : Nat → β :=
  fun a => if dstStart ≤ a ∧ a < dstStart + len then src (srcStart + (a - dstStart)) else dst a

/-- The cells `[start, start + len)`. -/
def slice (mem : Nat → β) (start len : Nat) : List β :=
  (List.range len).map fun i => mem (start + i)

@[simp] theorem slice_length (mem : Nat → β) (start len : Nat) : (slice mem start len).length = len := by
  rw [slice, List.length_map, List.length_range]

@[simp] theorem slice_zero (mem : Nat → β) (start : Nat) : slice mem start 0 = [] := rfl

theorem slice_add (mem : Nat → β) (start a b : Nat) :
    slice mem start (a + b) = slice mem start a ++ slice mem (start + a) b := by
  simp only [slice, List.range_add, List.map_append, List.map_map]
  congr 1
  apply List.map_congr_left
  intro i _
  simp only [Function.comp_apply, Nat.add_assoc]

theorem slice_succ (mem : Nat → β) (start n : Nat) : slice mem start (n + 1) = mem start :: slice mem (start + 1) n := by
  rw [Nat.add_comm n 1, slice_add]
  rfl

theorem slice_congr {mem mem' : Nat → β} {start start' len : Nat}
    (h : ∀ i, i < len → mem (start + i) = mem' (start' + i)) :
    slice mem start len = slice mem' start' len := by
  apply List.map_congr_left
  intro i hi
  exact h i (List.mem_range.mp hi)

theorem slice_take (mem : Nat → β) (start : Nat) {k len : Nat} (h : k ≤ len) :
    (slice mem start len).take k = slice mem start k := by
  obtain ⟨rest, rfl⟩ := Nat.exists_eq_add_of_le h
  rw [slice_add, List.take_left' (slice_length mem start k)]

theorem copy_of_mem {dst src : Nat → β} {dstStart srcStart len i : Nat} (h : i < len) :
    copy dst dstStart src srcStart len (dstStart + i) = src (srcStart + i) := by
  rw [copy, if_pos (by omega), Nat.add_sub_cancel_left]

theorem copy_of_not_mem {dst src : Nat → β} {dstStart srcStart len a : Nat}
    (h : a < dstStart ∨ dstStart + len ≤ a) : copy dst dstStart src srcStart len a = dst a := by
  rw [copy, if_neg (by omega)]

/-- The block just copied reads back as its source. -/
theorem slice_copy_inside {dst src : Nat → β} {dstStart srcStart len off k : Nat} (h : off + k ≤ len) :
    slice (copy dst dstStart src srcStart len) (dstStart + off) k = slice src (srcStart + off) k := by
  apply slice_congr
  intro i hi
  rw [Nat.add_assoc, copy_of_mem (by omega), Nat.add_assoc]

theorem slice_copy_block (dst src : Nat → β) (dstStart srcStart len : Nat) :
    slice (copy dst dstStart src srcStart len) dstStart len = slice src srcStart len :=
  slice_congr fun _ hi => copy_of_mem hi

/-- A block that does not meet the copied one is unchanged. -/
theorem slice_copy_outside {dst src : Nat → β} {dstStart srcStart len start k : Nat}
    (h : start + k ≤ dstStart ∨ dstStart + len ≤ start) :
    slice (copy dst dstStart src srcStart len) start k = slice dst start k := by
  apply slice_congr
  intro i hi
  exact copy_of_not_mem (by omega)

/-- A block of `count` records of `size` cells, as the list of its records. -/
def records (mem : Nat → β) (size start count : Nat) : List (List β) :=
  (List.range count).map fun j => slice mem ((start + j) * size) size

@[simp] theorem records_length (mem : Nat → β) (size start count : Nat) :
    (records mem size start count).length = count := by
  rw [records, List.length_map, List.length_range]

theorem records_eq_slice (mem : Nat → β) (size start count : Nat) :
    records mem size start count = slice (fun i => slice mem (i * size) size) start count := rfl

theorem records_add (mem : Nat → β) (size start a b : Nat) :
    records mem size start (a + b) = records mem size start a ++ records mem size (start + a) b :=
  slice_add (fun i => slice mem (i * size) size) start a b

theorem records_take (mem : Nat → β) (size start : Nat) {k count : Nat} (h : k ≤ count) :
    (records mem size start count).take k = records mem size start k :=
  slice_take (fun i => slice mem (i * size) size) start h

/-- The records of a copied block are those of its source. -/
theorem records_copy_block (dst src : Nat → β) (size count : Nat) :
    records (copy dst 0 src 0 (count * size)) size 0 count = records src size 0 count := by
  apply List.map_congr_left
  intro j hj
  have hj : j < count := List.mem_range.mp hj
  apply slice_congr
  intro b hb
  have hin : (0 + j) * size + b < count * size := by
    calc (0 + j) * size + b < (0 + j) * size + size := Nat.add_lt_add_left hb _
      _ = (j + 1) * size := by rw [Nat.zero_add, Nat.succ_mul]
      _ ≤ count * size := Nat.mul_le_mul_right _ hj
  rw [copy, if_pos (by omega), Nat.zero_add, Nat.sub_zero]

/-- The first cells of each record. -/
theorem records_map_take (mem : Nat → β) {size k : Nat} (start count : Nat) (h : k ≤ size) :
    (records mem size start count).map (List.take k) =
      (List.range count).map fun j => slice mem ((start + j) * size) k := by
  rw [records, List.map_map]
  apply List.map_congr_left
  intro j _
  exact slice_take mem ((start + j) * size) h

/-- The `live` cells from `tail` on, circularly. -/
def window (cells : Nat → β) (capacity tail live : Nat) : List β :=
  (List.range live).map fun j => cells ((tail + j) % capacity)

@[simp] theorem window_length (cells : Nat → β) (capacity tail live : Nat) :
    (window cells capacity tail live).length = live := by
  rw [window, List.length_map, List.length_range]

@[simp] theorem window_zero (cells : Nat → β) (capacity tail : Nat) : window cells capacity tail 0 = [] := rfl

/-- Two offsets of one revolution that meet the same cell are equal. -/
theorem offset_injective {capacity tail i j : Nat} (hi : i < capacity) (hj : j < capacity)
    (h : (tail + i) % capacity = (tail + j) % capacity) : i = j := by
  have hmod : i % capacity = j % capacity := Nat.ModEq.add_left_cancel' tail h
  rwa [Nat.mod_eq_of_lt hi, Nat.mod_eq_of_lt hj] at hmod

theorem mod_add_of_lt {capacity a i : Nat} (h : a % capacity + i < capacity) :
    (a + i) % capacity = a % capacity + i := by
  rw [Nat.add_mod, Nat.mod_eq_of_lt (show i < capacity by omega), Nat.mod_eq_of_lt h]

/-- Writing `count` contiguous cells at the head appends them to the window and leaves the rest. -/
theorem window_append {cells cells' : Nat → β} {capacity tail live head count : Nat}
    (hhead : head = (tail + live) % capacity) (hspace : live + count ≤ capacity)
    (hcontig : head + count ≤ capacity)
    (hframe : ∀ i, i < capacity → (i < head ∨ head + count ≤ i) → cells' i = cells i) :
    window cells' capacity tail (live + count) =
      window cells capacity tail live ++ slice cells' head count := by
  simp only [window, List.range_add, List.map_append, List.map_map]
  congr 1
  · apply List.map_congr_left
    intro j hj
    have hj : j < live := List.mem_range.mp hj
    apply hframe
    · exact Nat.mod_lt _ (by omega)
    · by_contra hmeet
      obtain ⟨d, hd⟩ : ∃ d, (tail + j) % capacity = head + d := ⟨(tail + j) % capacity - head, by omega⟩
      have hlt : (tail + j) % capacity < capacity := Nat.mod_lt _ (by omega)
      have hsame : (tail + j) % capacity = (tail + (live + d)) % capacity := by
        rw [hd, ← Nat.add_assoc, mod_add_of_lt (by omega), ← hhead]
      have := offset_injective (by omega) (by omega) hsame
      omega
  · apply List.map_congr_left
    intro j hj
    have hj : j < count := List.mem_range.mp hj
    simp only [Function.comp_apply]
    rw [← Nat.add_assoc, mod_add_of_lt (by omega), ← hhead]

/-- The first `count` cells of the window are contiguous when they do not wrap. -/
theorem window_take {cells : Nat → β} {capacity tail live count : Nat} (hle : count ≤ live)
    (hcontig : tail + count ≤ capacity) :
    (window cells capacity tail live).take count = slice cells tail count := by
  obtain ⟨rest, rfl⟩ := Nat.exists_eq_add_of_le hle
  simp only [window, List.range_add, List.map_append]
  rw [List.take_left' (by rw [List.length_map, List.length_range])]
  apply List.map_congr_left
  intro j hj
  have hj : j < count := List.mem_range.mp hj
  rw [Nat.mod_eq_of_lt (by omega)]

/-- Advancing the tail drops the oldest cells. -/
theorem window_drop {cells : Nat → β} {capacity tail live count : Nat} (hle : count ≤ live) :
    (window cells capacity tail live).drop count =
      window cells capacity ((tail + count) % capacity) (live - count) := by
  obtain ⟨rest, rfl⟩ := Nat.exists_eq_add_of_le hle
  rw [Nat.add_sub_cancel_left]
  simp only [window, List.range_add, List.map_append, List.map_map]
  rw [List.drop_left' (by rw [List.length_map, List.length_range])]
  apply List.map_congr_left
  intro j _
  simp only [Function.comp_apply, Nat.mod_add_mod, Nat.add_assoc]

end RingWindow
