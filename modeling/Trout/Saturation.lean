import Mathlib

/-! Saturating sums in an ordered group: every partial sum is clamped to `[lo, hi]`, so the result can
depend on the order of the summands. It does not exactly when no order clips (`FitsWithin`) or all
summands have one sign. The last section adds items that count only once some item has opened the
sum, as a sum over the tail of the list that starts at the first opening item. -/

namespace Saturation

section Clamp

variable {α : Type*} [LinearOrder α] {lo hi : α}

def clamp (lo hi x : α) : α := max lo (min hi x)

theorem lo_le_clamp (x : α) : lo ≤ clamp lo hi x := le_max_left _ _

theorem clamp_le_hi (h : lo ≤ hi) (x : α) : clamp lo hi x ≤ hi := max_le h (min_le_left _ _)

theorem clamp_of_mem {x : α} (hlo : lo ≤ x) (hhi : x ≤ hi) : clamp lo hi x = x := by
  rw [clamp, min_eq_right hhi, max_eq_right hlo]

theorem clamp_of_ge (h : lo ≤ hi) {x : α} (hx : hi ≤ x) : clamp lo hi x = hi := by
  rw [clamp, min_eq_left hx, max_eq_right h]

theorem clamp_of_le {x : α} (hx : x ≤ lo) : clamp lo hi x = lo := max_eq_left ((min_le_right _ _).trans hx)

theorem clamp_of_le_hi {x : α} (hx : x ≤ hi) : clamp lo hi x = max lo x := by rw [clamp, min_eq_right hx]

theorem clamp_of_lo_le (h : lo ≤ hi) {x : α} (hx : lo ≤ x) : clamp lo hi x = min hi x :=
  max_eq_right (le_min h hx)

theorem hi_le_of_clamp (hlt : lo < hi) {x : α} (h : clamp lo hi x = hi) : hi ≤ x := by
  by_contra hx
  rw [not_le] at hx
  rw [clamp, min_eq_right hx.le] at h
  exact absurd h (max_lt hlt hx).ne

theorem le_lo_of_clamp (hlt : lo < hi) {x : α} (h : clamp lo hi x = lo) : x ≤ lo := by
  by_contra hx
  rw [not_le] at hx
  have hmin : lo < min hi x := lt_min hlt hx
  rw [clamp, max_eq_right hmin.le] at h
  exact absurd h hmin.ne'

end Clamp

section Sums

variable {α : Type*} [AddCommGroup α] [LinearOrder α] {lo hi : α}

def satAdd (lo hi x y : α) : α := clamp lo hi (x + y)

def satSum (lo hi : α) (l : List α) : α := l.foldl (satAdd lo hi) 0

/-- The sum of the positive summands. -/
def rise (l : List α) : α := (l.map fun x => max x 0).sum

/-- The sum of the negative summands. -/
def fall (l : List α) : α := (l.map fun x => min x 0).sum

@[simp] theorem rise_cons (x : α) (l : List α) : rise (x :: l) = max x 0 + rise l := by
  rw [rise, List.map_cons, List.sum_cons, rise]

@[simp] theorem fall_cons (x : α) (l : List α) : fall (x :: l) = min x 0 + fall l := by
  rw [fall, List.map_cons, List.sum_cons, fall]

theorem rise_perm {l l' : List α} (h : l.Perm l') : rise l = rise l' := (h.map _).sum_eq

theorem fall_perm {l l' : List α} (h : l.Perm l') : fall l = fall l' := (h.map _).sum_eq

theorem rise_append (l l' : List α) : rise (l ++ l') = rise l + rise l' := by
  simp only [rise, List.map_append, List.sum_append]

theorem fall_append (l l' : List α) : fall (l ++ l') = fall l + fall l' := by
  simp only [fall, List.map_append, List.sum_append]

theorem rise_add_fall (l : List α) : rise l + fall l = l.sum := by
  induction l with
  | nil => exact add_zero 0
  | cons x l ih =>
      rw [rise_cons, fall_cons, add_add_add_comm, ih, max_add_min, add_zero, List.sum_cons]

theorem rise_of_nonneg {l : List α} (h : ∀ x ∈ l, 0 ≤ x) : rise l = l.sum := by
  rw [rise, List.map_congr_left (fun x hx => max_eq_left (h x hx)), List.map_id']

theorem fall_of_nonpos {l : List α} (h : ∀ x ∈ l, x ≤ 0) : fall l = l.sum := by
  rw [fall, List.map_congr_left (fun x hx => min_eq_left (h x hx)), List.map_id']

/-- No order of the summands reaches a bound. -/
def FitsWithin (lo hi : α) (l : List α) : Prop := lo ≤ fall l ∧ rise l ≤ hi

/-- The lists whose saturating sum is the clamped sum in every order. -/
def OrderFree (lo hi : α) (l : List α) : Prop :=
  FitsWithin lo hi l ∨ (∀ x ∈ l, 0 ≤ x) ∨ ∀ x ∈ l, x ≤ 0

theorem OrderFree.perm {l l' : List α} (hperm : l.Perm l') (h : OrderFree lo hi l) : OrderFree lo hi l' := by
  rcases h with ⟨hfall, hrise⟩ | hpos | hneg
  · exact Or.inl ⟨by rwa [← fall_perm hperm], by rwa [← rise_perm hperm]⟩
  · exact Or.inr (Or.inl fun x hx => hpos x (hperm.mem_iff.mpr hx))
  · exact Or.inr (Or.inr fun x hx => hneg x (hperm.mem_iff.mpr hx))

variable [IsOrderedAddMonoid α]

theorem rise_nonneg (l : List α) : 0 ≤ rise l := by
  apply List.sum_nonneg
  intro x hx
  obtain ⟨y, _, rfl⟩ := List.mem_map.mp hx
  exact le_max_right y 0

theorem fall_nonpos (l : List α) : fall l ≤ 0 := by
  induction l with
  | nil => exact le_refl 0
  | cons x l ih =>
      rw [fall_cons]
      exact add_nonpos (min_le_right x 0) ih

theorem rise_of_nonpos {l : List α} (h : ∀ x ∈ l, x ≤ 0) : rise l = 0 := by
  have hsum := rise_add_fall l
  rw [fall_of_nonpos h] at hsum
  exact add_eq_right.mp hsum

theorem fall_of_nonneg {l : List α} (h : ∀ x ∈ l, 0 ≤ x) : fall l = 0 := by
  have hsum := rise_add_fall l
  rw [rise_of_nonneg h] at hsum
  exact add_eq_left.mp hsum

theorem nonpos_of_rise {l : List α} (h : rise l = 0) : ∀ x ∈ l, x ≤ 0 := by
  induction l with
  | nil => intro x hx; cases hx
  | cons y l ih =>
      rw [rise_cons] at h
      have hhead : max y 0 = 0 := by
        refine le_antisymm ?_ (le_max_right y 0)
        calc max y 0 ≤ max y 0 + rise l := le_add_of_nonneg_right (rise_nonneg l)
          _ = 0 := h
      have htail : rise l = 0 := by rwa [hhead, zero_add] at h
      intro x hx
      rcases List.mem_cons.mp hx with rfl | hmem
      · exact (le_max_left x 0).trans (le_of_eq hhead)
      · exact ih htail x hmem

theorem nonneg_of_fall {l : List α} (h : fall l = 0) : ∀ x ∈ l, 0 ≤ x := by
  induction l with
  | nil => intro x hx; cases hx
  | cons y l ih =>
      rw [fall_cons] at h
      have hhead : min y 0 = 0 := by
        refine le_antisymm (min_le_right y 0) ?_
        calc 0 = min y 0 + fall l := h.symm
          _ ≤ min y 0 := add_le_of_nonpos_right (fall_nonpos l)
      have htail : fall l = 0 := by rwa [hhead, zero_add] at h
      intro x hx
      rcases List.mem_cons.mp hx with rfl | hmem
      · exact (ge_of_eq hhead).trans (min_le_left x 0)
      · exact ih htail x hmem

/-! ### Lists of one sign, and lists that fit -/

theorem foldl_nonneg (h : lo ≤ hi) {l : List α} (hl : ∀ x ∈ l, 0 ≤ x) {s : α} (hlo : lo ≤ s) (hhi : s ≤ hi) :
    l.foldl (satAdd lo hi) s = min hi (s + l.sum) := by
  induction l generalizing s with
  | nil => rw [List.foldl_nil, List.sum_nil, add_zero, min_eq_right hhi]
  | cons x l ih =>
      have hx := hl x List.mem_cons_self
      have hrest : ∀ y ∈ l, 0 ≤ y := fun y hy => hl y (List.mem_cons_of_mem x hy)
      have hstep : satAdd lo hi s x = min hi (s + x) := clamp_of_lo_le h (hlo.trans (le_add_of_nonneg_right hx))
      have hrun : l.foldl (satAdd lo hi) (satAdd lo hi s x) = min hi (satAdd lo hi s x + l.sum) :=
        ih hrest (lo_le_clamp _) (clamp_le_hi h _)
      rw [List.foldl_cons, hrun, hstep, List.sum_cons, ← add_assoc]
      rcases le_total hi (s + x) with hover | hunder
      · have hsum : 0 ≤ l.sum := List.sum_nonneg hrest
        rw [min_eq_left hover, min_eq_left (le_add_of_nonneg_right hsum),
          min_eq_left (hover.trans (le_add_of_nonneg_right hsum))]
      · rw [min_eq_right hunder]

theorem sum_nonpos {l : List α} (hl : ∀ x ∈ l, x ≤ 0) : l.sum ≤ 0 := by
  rw [← fall_of_nonpos hl]
  exact fall_nonpos l

theorem foldl_nonpos (h : lo ≤ hi) {l : List α} (hl : ∀ x ∈ l, x ≤ 0) {s : α} (hlo : lo ≤ s) (hhi : s ≤ hi) :
    l.foldl (satAdd lo hi) s = max lo (s + l.sum) := by
  induction l generalizing s with
  | nil => rw [List.foldl_nil, List.sum_nil, add_zero, max_eq_right hlo]
  | cons x l ih =>
      have hx := hl x List.mem_cons_self
      have hrest : ∀ y ∈ l, y ≤ 0 := fun y hy => hl y (List.mem_cons_of_mem x hy)
      have hstep : satAdd lo hi s x = max lo (s + x) := clamp_of_le_hi ((add_le_of_nonpos_right hx).trans hhi)
      have hrun : l.foldl (satAdd lo hi) (satAdd lo hi s x) = max lo (satAdd lo hi s x + l.sum) :=
        ih hrest (lo_le_clamp _) (clamp_le_hi h _)
      rw [List.foldl_cons, hrun, hstep, List.sum_cons, ← add_assoc]
      rcases le_total (s + x) lo with hunder | hover
      · have hsum : l.sum ≤ 0 := sum_nonpos hrest
        rw [max_eq_left hunder, max_eq_left (add_le_of_nonpos_right hsum),
          max_eq_left ((add_le_of_nonpos_right hsum).trans hunder)]
      · rw [max_eq_right hover]

theorem foldl_fits {l : List α} {s : α} (hlo : lo ≤ s + fall l) (hhi : s + rise l ≤ hi) :
    l.foldl (satAdd lo hi) s = s + l.sum := by
  induction l generalizing s with
  | nil => rw [List.foldl_nil, List.sum_nil, add_zero]
  | cons x l ih =>
      rw [fall_cons, ← add_assoc] at hlo
      rw [rise_cons, ← add_assoc] at hhi
      have hlow : lo ≤ s + x := by
        refine hlo.trans ?_
        rw [add_assoc]
        exact add_le_add_right ((add_le_of_nonpos_right (fall_nonpos l)).trans (min_le_left x 0)) s
      have hhigh : s + x ≤ hi := by
        refine le_trans ?_ hhi
        rw [add_assoc]
        exact add_le_add_right ((le_max_left x 0).trans (le_add_of_nonneg_right (rise_nonneg l))) s
      rw [List.foldl_cons, satAdd, clamp_of_mem hlow hhigh, ih, List.sum_cons, add_assoc]
      · refine hlo.trans (add_le_add_left ?_ (fall l))
        exact add_le_add_right (min_le_left x 0) s
      · refine le_trans (add_le_add_left ?_ (rise l)) hhi
        exact add_le_add_right (le_max_left x 0) s

theorem satSum_of_orderFree (hlo : lo ≤ 0) (hhi : 0 ≤ hi) {l : List α} (h : OrderFree lo hi l) :
    satSum lo hi l = clamp lo hi l.sum := by
  rcases h with ⟨hfall, hrise⟩ | hpos | hneg
  · rw [satSum, foldl_fits (by rwa [zero_add]) (by rwa [zero_add]), zero_add, clamp_of_mem]
    · rw [← rise_add_fall l]
      exact hfall.trans (le_add_of_nonneg_left (rise_nonneg l))
    · rw [← rise_add_fall l]
      exact (add_le_of_nonpos_right (fall_nonpos l)).trans hrise
  · rw [satSum, foldl_nonneg (hlo.trans hhi) hpos hlo hhi, zero_add,
      clamp_of_lo_le (hlo.trans hhi) (hlo.trans (List.sum_nonneg hpos))]
  · rw [satSum, foldl_nonpos (hlo.trans hhi) hneg hlo hhi, zero_add,
      clamp_of_le_hi ((sum_nonpos hneg).trans hhi)]

/-- The saturating sum of the positive summands first, then the others. -/
theorem satSum_rise_first (hlo : lo ≤ 0) (hhi : 0 ≤ hi) {up down : List α} (hup : ∀ x ∈ up, 0 ≤ x)
    (hdown : ∀ x ∈ down, x ≤ 0) :
    satSum lo hi (up ++ down) = max lo (min hi (rise (up ++ down)) + fall (up ++ down)) := by
  have hsum : lo ≤ up.sum := hlo.trans (List.sum_nonneg hup)
  rw [satSum, List.foldl_append, foldl_nonneg (hlo.trans hhi) hup hlo hhi, zero_add,
    foldl_nonpos (hlo.trans hhi) hdown (le_min (hlo.trans hhi) hsum) (min_le_left _ _), rise_append, fall_append,
    rise_of_nonneg hup, rise_of_nonpos hdown, fall_of_nonneg hup, fall_of_nonpos hdown, add_zero, zero_add]

/-- The saturating sum of the negative summands first, then the others. -/
theorem satSum_fall_first (hlo : lo ≤ 0) (hhi : 0 ≤ hi) {up down : List α} (hup : ∀ x ∈ up, 0 ≤ x)
    (hdown : ∀ x ∈ down, x ≤ 0) :
    satSum lo hi (down ++ up) = min hi (max lo (fall (down ++ up)) + rise (down ++ up)) := by
  have hsum : down.sum ≤ hi := (sum_nonpos hdown).trans hhi
  rw [satSum, List.foldl_append, foldl_nonpos (hlo.trans hhi) hdown hlo hhi, zero_add,
    foldl_nonneg (hlo.trans hhi) hup (le_max_left _ _) (max_le (hlo.trans hhi) hsum), rise_append, fall_append,
    rise_of_nonneg hup, rise_of_nonpos hdown, fall_of_nonneg hup, fall_of_nonpos hdown, add_zero, zero_add]

/-- The two extreme orders agree only when nothing clips or one of the two sums vanishes. -/
theorem extremes_agree (hlt : lo < hi) {p n : α} (hp : 0 ≤ p) (hn : n ≤ 0)
    (h : max lo (min hi p + n) = min hi (max lo n + p)) : (lo ≤ n ∧ p ≤ hi) ∨ p = 0 ∨ n = 0 := by
  rcases eq_or_lt_of_le hp with hp0 | hppos
  · exact Or.inr (Or.inl hp0.symm)
  rcases eq_or_lt_of_le hn with hn0 | hnneg
  · exact Or.inr (Or.inr hn0)
  left
  by_contra hclip
  rw [not_and_or, not_le, not_le] at hclip
  -- the order that meets the bound first ends strictly below the other one
  suffices hstrict : max lo (min hi p + n) < min hi (max lo n + p) by exact absurd h (ne_of_lt hstrict)
  have hbelow : min hi p + n < hi := by
    calc min hi p + n < min hi p + 0 := add_lt_add_right hnneg _
      _ = min hi p := add_zero _
      _ ≤ hi := min_le_left _ _
  have habove : lo < max lo n + p := by
    calc lo ≤ max lo n := le_max_left _ _
      _ = max lo n + 0 := (add_zero _).symm
      _ < max lo n + p := add_lt_add_right hppos _
  refine max_lt (lt_min hlt habove) (lt_min hbelow ?_)
  rcases hclip with hunder | hover
  · calc min hi p + n < min hi p + lo := add_lt_add_right hunder _
      _ ≤ p + lo := add_le_add_left (min_le_right _ _) lo
      _ = lo + p := add_comm _ _
      _ ≤ max lo n + p := add_le_add_left (le_max_left _ _) p
  · calc min hi p + n ≤ hi + n := add_le_add_left (min_le_left _ _) n
      _ < p + n := add_lt_add_left hover n
      _ = n + p := add_comm _ _
      _ ≤ max lo n + p := add_le_add_left (le_max_right _ _) p

theorem nonneg_of_satAdd_hi (hlt : lo < hi) {x : α} (h : satAdd lo hi hi x = hi) : 0 ≤ x :=
  le_add_iff_nonneg_right hi |>.mp (hi_le_of_clamp hlt h)

theorem nonpos_of_satAdd_lo (hlt : lo < hi) {x : α} (h : satAdd lo hi lo x = lo) : x ≤ 0 :=
  add_le_iff_nonpos_right lo |>.mp (le_lo_of_clamp hlt h)

/-- A summand that changes nothing is zero, or the sum sits at the bound that absorbs it. -/
theorem satAdd_neutral {c x : α} (h : satAdd lo hi c x = c) : x = 0 ∨ c = lo ∨ c = hi := by
  by_cases hunder : c + x ≤ lo
  · rw [satAdd, clamp_of_le hunder] at h
    exact Or.inr (Or.inl h.symm)
  by_cases hover : hi ≤ c + x
  · rw [satAdd, clamp, min_eq_left hover] at h
    rcases max_choice lo hi with hmax | hmax
    · exact Or.inr (Or.inl (h.symm.trans hmax))
    · exact Or.inr (Or.inr (h.symm.trans hmax))
  · rw [satAdd, clamp_of_mem (le_of_not_ge hunder) (le_of_not_ge hover)] at h
    exact Or.inl (add_eq_left.mp h)

theorem OrderFree.nonneg_of_clamp (hhi : 0 ≤ hi) (hlt : lo < hi) {l : List α} (h : OrderFree lo hi l)
    (hclamp : clamp lo hi l.sum = hi) : ∀ x ∈ l, 0 ≤ x := by
  have hsum := hi_le_of_clamp hlt hclamp
  rcases h with ⟨-, hrise⟩ | hpos | hneg
  · apply nonneg_of_fall
    refine le_antisymm (fall_nonpos l) ?_
    rw [← rise_add_fall l] at hsum
    exact le_add_iff_nonneg_right (rise l) |>.mp (hrise.trans hsum)
  · exact hpos
  · apply nonneg_of_fall
    refine le_antisymm (fall_nonpos l) ?_
    rw [fall_of_nonpos hneg]
    exact hhi.trans hsum

theorem OrderFree.nonpos_of_clamp (hlo : lo ≤ 0) (hlt : lo < hi) {l : List α} (h : OrderFree lo hi l)
    (hclamp : clamp lo hi l.sum = lo) : ∀ x ∈ l, x ≤ 0 := by
  have hsum := le_lo_of_clamp hlt hclamp
  rcases h with ⟨hfall, -⟩ | hpos | hneg
  · apply nonpos_of_rise
    refine le_antisymm ?_ (rise_nonneg l)
    rw [← rise_add_fall l] at hsum
    exact add_le_iff_nonpos_left |>.mp (hsum.trans hfall)
  · apply nonpos_of_rise
    refine le_antisymm ?_ (rise_nonneg l)
    rw [rise_of_nonneg hpos]
    exact hsum.trans hlo
  · exact hneg

theorem orderFree_of_swap (hlo : lo ≤ 0) (hhi : 0 ≤ hi) (hlt : lo < hi) {up down : List α}
    (hup : ∀ x ∈ up, 0 ≤ x) (hdown : ∀ x ∈ down, x ≤ 0)
    (h : satSum lo hi (up ++ down) = satSum lo hi (down ++ up)) : OrderFree lo hi (up ++ down) := by
  have hswap : (down ++ up).Perm (up ++ down) := List.perm_append_comm
  rw [satSum_rise_first hlo hhi hup hdown, satSum_fall_first hlo hhi hup hdown, rise_perm hswap,
    fall_perm hswap] at h
  rcases extremes_agree hlt (rise_nonneg _) (fall_nonpos _) h with hfits | hrise | hfall
  · exact Or.inl hfits
  · exact Or.inr (Or.inr (nonpos_of_rise hrise))
  · exact Or.inr (Or.inl (nonneg_of_fall hfall))

end Sums

/-! ### Items that count once the sum is open -/

section Gated

variable {ι α : Type*} [AddCommGroup α] {opens : ι → Bool} {v : ι → α}

theorem filter_append_shut (l : List ι) :
    (l.filter opens ++ l.filter fun x => !opens x).Perm l :=
  List.filter_append_perm opens l

theorem sum_split (opens : ι → Bool) (v : ι → α) (l : List ι) :
    (l.map v).sum = ((l.filter opens).map v).sum + ((l.filter fun x => !opens x).map v).sum := by
  rw [← (filter_append_shut l).map v |>.sum_eq, List.map_append, List.sum_append]

variable [LinearOrder α] {lo hi : α}

/-- The saturating sum of the items from the first opening one on. -/
def gatedSum (lo hi : α) (opens : ι → Bool) (v : ι → α) (l : List ι) : α :=
  satSum lo hi ((l.dropWhile fun x => !opens x).map v)

theorem gatedSum_cons (x : ι) (l : List ι) :
    gatedSum lo hi opens v (x :: l) =
      if opens x then satSum lo hi ((x :: l).map v) else gatedSum lo hi opens v l := by
  by_cases hx : opens x
  · rw [gatedSum, List.dropWhile_cons_of_neg (by simp [hx]), if_pos hx]
  · rw [gatedSum, List.dropWhile_cons_of_pos (by simp [hx]), if_neg hx, gatedSum]

theorem gatedSum_shut {l : List ι} (h : ∀ x ∈ l, opens x = false) : gatedSum lo hi opens v l = 0 := by
  rw [gatedSum, List.dropWhile_eq_nil_iff.mpr (fun x hx => by simp [h x hx])]
  rfl

/-- Items before the first opening one do not count. -/
theorem gatedSum_append {shorts longs : List ι} (hshorts : ∀ x ∈ shorts, opens x = false) (rest : List ι)
    (hlongs : ∀ x ∈ longs, opens x = true) (hne : longs ≠ []) :
    gatedSum lo hi opens v (shorts ++ (longs ++ rest)) = satSum lo hi ((longs ++ rest).map v) := by
  induction shorts with
  | nil =>
      obtain ⟨x, longs, rfl⟩ := List.exists_cons_of_ne_nil hne
      rw [List.nil_append, List.cons_append, gatedSum_cons, if_pos (hlongs x List.mem_cons_self)]
  | cons y shorts ih =>
      rw [List.cons_append, gatedSum_cons, if_neg (by simp [hshorts y List.mem_cons_self])]
      exact ih fun x hx => hshorts x (List.mem_cons_of_mem y hx)

theorem satAdd_zero {x : α} (hlo : lo ≤ x) (hhi : x ≤ hi) : satAdd lo hi x 0 = x := by
  rw [satAdd, add_zero, clamp_of_mem hlo hhi]

/-- Zero summands can be left out. -/
theorem foldl_filter (h : lo ≤ hi) {l : List ι} (hzero : ∀ x ∈ l, opens x = false → v x = 0) {s : α}
    (hlo : lo ≤ s) (hhi : s ≤ hi) :
    (l.map v).foldl (satAdd lo hi) s = ((l.filter opens).map v).foldl (satAdd lo hi) s := by
  induction l generalizing s with
  | nil => rfl
  | cons x l ih =>
      have hrest : ∀ y ∈ l, opens y = false → v y = 0 := fun y hy => hzero y (List.mem_cons_of_mem x hy)
      rw [List.map_cons, List.foldl_cons]
      by_cases hx : opens x
      · rw [List.filter_cons_of_pos hx, List.map_cons, List.foldl_cons]
        exact ih hrest (lo_le_clamp _) (clamp_le_hi h _)
      · rw [List.filter_cons_of_neg hx, hzero x List.mem_cons_self (by simpa using hx), satAdd_zero hlo hhi]
        exact ih hrest hlo hhi

theorem filter_dropWhile (l : List ι) : (l.dropWhile fun x => !opens x).filter opens = l.filter opens := by
  induction l with
  | nil => rfl
  | cons x l ih =>
      by_cases hx : opens x
      · rw [List.dropWhile_cons_of_neg (by simp [hx])]
      · rw [List.dropWhile_cons_of_pos (by simp [hx]), ih, List.filter_cons_of_neg hx]

/-- When the other items are zero, the gate makes no difference. -/
theorem gatedSum_of_zero (hlo : lo ≤ 0) (hhi : 0 ≤ hi) {l : List ι} (hzero : ∀ x ∈ l, opens x = false → v x = 0) :
    gatedSum lo hi opens v l = satSum lo hi (l.map v) := by
  have hsub : ∀ x ∈ l.dropWhile fun x => !opens x, x ∈ l := (List.dropWhile_sublist _).subset
  rw [gatedSum, satSum, satSum, foldl_filter (hlo.trans hhi) (fun x hx => hzero x (hsub x hx)) hlo hhi,
    filter_dropWhile, foldl_filter (hlo.trans hhi) hzero hlo hhi]

variable [IsOrderedAddMonoid α]

/-- Adding neutral items to an order-free list of opening ones does not change the sum. -/
theorem satSum_neutral (hlo : lo ≤ 0) (hhi : 0 ≤ hi) (hlt : lo < hi) {l : List ι}
    (hfree : OrderFree lo hi ((l.filter opens).map v))
    (hneutral : ∀ x ∈ l, opens x = false →
      satAdd lo hi (clamp lo hi ((l.filter opens).map v).sum) (v x) =
        clamp lo hi ((l.filter opens).map v).sum) :
    satSum lo hi (l.map v) = clamp lo hi ((l.filter opens).map v).sum := by
  by_cases hzero : ∀ x ∈ l, opens x = false → v x = 0
  · rw [satSum, foldl_filter hlt.le hzero hlo hhi]
    exact satSum_of_orderFree hlo hhi hfree
  · push Not at hzero
    obtain ⟨y, hy, hshut, hne⟩ := hzero
    rcases satAdd_neutral (hneutral y hy hshut) with hv | hbound | hbound
    · exact absurd hv hne
    · have hall : ∀ x ∈ l, v x ≤ 0 := by
        intro x hx
        cases hopen : opens x with
        | true =>
            exact hfree.nonpos_of_clamp hlo hlt hbound (v x)
              (List.mem_map_of_mem (List.mem_filter.mpr ⟨hx, hopen⟩))
        | false =>
            have hstay := hneutral x hx hopen
            rw [hbound] at hstay
            exact nonpos_of_satAdd_lo hlt hstay
      have hmap : ∀ z ∈ l.map v, z ≤ 0 := List.forall_mem_map.mpr hall
      have hshorts : ((l.filter fun x => !opens x).map v).sum ≤ 0 :=
        sum_nonpos (List.forall_mem_map.mpr fun x hx => hall x (List.mem_of_mem_filter hx))
      have hsum : (l.map v).sum ≤ lo := by
        rw [sum_split opens v]
        exact (add_le_of_nonpos_right hshorts).trans (le_lo_of_clamp hlt hbound)
      rw [hbound, satSum_of_orderFree hlo hhi (Or.inr (Or.inr hmap)), clamp_of_le hsum]
    · have hall : ∀ x ∈ l, 0 ≤ v x := by
        intro x hx
        cases hopen : opens x with
        | true =>
            exact hfree.nonneg_of_clamp hhi hlt hbound (v x)
              (List.mem_map_of_mem (List.mem_filter.mpr ⟨hx, hopen⟩))
        | false =>
            have hstay := hneutral x hx hopen
            rw [hbound] at hstay
            exact nonneg_of_satAdd_hi hlt hstay
      have hmap : ∀ z ∈ l.map v, 0 ≤ z := List.forall_mem_map.mpr hall
      have hshorts : 0 ≤ ((l.filter fun x => !opens x).map v).sum :=
        List.sum_nonneg (List.forall_mem_map.mpr fun x hx => hall x (List.mem_of_mem_filter hx))
      have hsum : hi ≤ (l.map v).sum := by
        rw [sum_split opens v]
        exact (hi_le_of_clamp hlt hbound).trans (le_add_of_nonneg_right hshorts)
      rw [hbound, satSum_of_orderFree hlo hhi (Or.inr (Or.inl hmap)), clamp_of_ge hlt.le hsum]

theorem gatedSum_neutral (hlo : lo ≤ 0) (hhi : 0 ≤ hi) (hlt : lo < hi) {l : List ι}
    (hfree : OrderFree lo hi ((l.filter opens).map v))
    (hneutral : ∀ x ∈ l, opens x = false →
      satAdd lo hi (clamp lo hi ((l.filter opens).map v).sum) (v x) =
        clamp lo hi ((l.filter opens).map v).sum) :
    gatedSum lo hi opens v l = clamp lo hi ((l.filter opens).map v).sum := by
  have hsub : ∀ x ∈ l.dropWhile fun x => !opens x, x ∈ l := (List.dropWhile_sublist _).subset
  rw [← filter_dropWhile l] at hfree hneutral ⊢
  exact satSum_neutral hlo hhi hlt hfree fun x hx => hneutral x (hsub x hx)

/-- The gated sum is the same in every order exactly when no item opens it, or the opening items are
order-free and every other item leaves their clamped sum unchanged. -/
theorem gatedSum_perm_iff (opens : ι → Bool) (v : ι → α) (hlo : lo ≤ 0) (hhi : 0 ≤ hi) (hlt : lo < hi) (l : List ι) :
    (∀ l', l'.Perm l → gatedSum lo hi opens v l' = gatedSum lo hi opens v l) ↔
      (∀ x ∈ l, opens x = false) ∨
        OrderFree lo hi ((l.filter opens).map v) ∧ ∀ x ∈ l, opens x = false →
          satAdd lo hi (clamp lo hi ((l.filter opens).map v).sum) (v x) =
            clamp lo hi ((l.filter opens).map v).sum := by
  constructor
  · intro hall
    by_cases hshut : ∀ x ∈ l, opens x = false
    · exact Or.inl hshut
    right
    push Not at hshut
    obtain ⟨y, hy, hyopen⟩ := hshut
    have hyopen : opens y = true := by simpa using hyopen
    have hlongs : ∀ x ∈ l.filter opens, opens x = true := fun x hx => List.of_mem_filter hx
    have hshorts : ∀ x ∈ l.filter (fun x => !opens x), opens x = false := fun x hx => by
      simpa using List.of_mem_filter hx
    have hne : l.filter opens ≠ [] := List.ne_nil_of_mem (List.mem_filter.mpr ⟨hy, hyopen⟩)
    -- every arrangement of the opening items after the others gives the same sum
    have horder : ∀ longs : List ι, longs.Perm (l.filter opens) →
        gatedSum lo hi opens v l = satSum lo hi (longs.map v) := by
      intro longs hperm
      have hperm' : (l.filter (fun x => !opens x) ++ (longs ++ [])).Perm l := by
        rw [List.append_nil]
        refine List.perm_append_comm.trans ((hperm.append_right _).trans ?_)
        exact filter_append_shut l
      rw [← hall _ hperm', gatedSum_append hshorts [] (fun x hx => hlongs x (hperm.mem_iff.mp hx)),
        List.append_nil]
      exact fun hnil => hne (List.Perm.nil_eq (hnil ▸ hperm)).symm
    have hfree : OrderFree lo hi ((l.filter opens).map v) := by
      have hsplit := List.filter_append_perm (fun x => decide (0 ≤ v x)) (l.filter opens)
      have hswap := (horder _ hsplit).symm.trans (horder _ (List.perm_append_comm.trans hsplit))
      rw [List.map_append, List.map_append] at hswap
      have hfree := orderFree_of_swap hlo hhi hlt ?_ ?_ hswap
      · rw [← List.map_append] at hfree
        exact hfree.perm (hsplit.map v)
      · refine List.forall_mem_map.mpr fun x hx => ?_
        simpa using List.of_mem_filter hx
      · refine List.forall_mem_map.mpr fun x hx => ?_
        have hneg : ¬ 0 ≤ v x := by simpa using List.of_mem_filter hx
        exact le_of_not_ge hneg
    refine ⟨hfree, fun x hx hshut => ?_⟩
    -- the item `x` moved behind the opening items
    obtain ⟨before, behind, hsplit⟩ :=
      List.append_of_mem (List.mem_filter.mpr ⟨hx, by simp [hshut]⟩ : x ∈ l.filter fun x => !opens x)
    have hrest : ∀ z ∈ before ++ behind, opens z = false := by
      intro z hz
      apply hshorts z
      rw [hsplit]
      rcases List.mem_append.mp hz with hz | hz
      · exact List.mem_append_left _ hz
      · exact List.mem_append_right _ (List.mem_cons_of_mem x hz)
    have hperm : ((before ++ behind) ++ (l.filter opens ++ [x])).Perm l := by
      calc ((before ++ behind) ++ (l.filter opens ++ [x])).Perm
            ((l.filter opens ++ [x]) ++ (before ++ behind)) := List.perm_append_comm
        _ = l.filter opens ++ (x :: (before ++ behind)) := by simp
        List.Perm _ (l.filter opens ++ (before ++ x :: behind)) :=
          List.Perm.append_left _ List.perm_middle.symm
        List.Perm _ l := by
          rw [← hsplit]
          exact filter_append_shut l
    have hlast := (hall _ hperm).trans (horder _ (List.Perm.refl _))
    rw [gatedSum_append hrest [x] hlongs hne, List.map_append, satSum, List.foldl_append] at hlast
    rw [← satSum_of_orderFree hlo hhi hfree]
    exact hlast
  · rintro (hshut | ⟨hfree, hneutral⟩) l' hperm
    · rw [gatedSum_shut hshut, gatedSum_shut fun x hx => hshut x (hperm.mem_iff.mp hx)]
    · have hmap : ((l'.filter opens).map v).Perm ((l.filter opens).map v) := (hperm.filter opens).map v
      rw [gatedSum_neutral hlo hhi hlt hfree hneutral, ← hmap.sum_eq]
      refine gatedSum_neutral hlo hhi hlt (hfree.perm hmap.symm) fun x hx hshut => ?_
      rw [hmap.sum_eq]
      exact hneutral x (hperm.mem_iff.mp hx) hshut

end Gated

end Saturation
