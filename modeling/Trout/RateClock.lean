import Mathlib

/-! A counter that runs with a clock. Running, it has gained `rate` units for every `period` of ticks since its
start, rounded down; standing, it keeps its base. The exact value, in parts of a unit, never grows faster than the
clock, which bounds the difference of any two values that are reported. -/

structure RateClock where
  running : Bool
  base : Nat
  start : Nat

namespace RateClock
variable (rate period : Nat)

/-- The whole units since the start. -/
def elapsed (c : RateClock) (now : Nat) : Nat := if c.running then (now - c.start) * rate / period else 0

def value (c : RateClock) (now : Nat) : Nat := c.base + c.elapsed rate period now

/-- The value in parts of a unit. -/
def exact (c : RateClock) (now : Nat) : Nat := period * c.base + if c.running then (now - c.start) * rate else 0

/-- The counter starts to run, if it does not already. -/
def begin (c : RateClock) (now : Nat) : RateClock := if c.running then c else { c with running := true, start := now }

/-- The counter stands at a value. -/
def stop (c : RateClock) (value : Nat) : RateClock := { c with running := false, base := value }

/-- The counter runs on from a value. -/
def restart (c : RateClock) (value now : Nat) : RateClock := { c with base := value, start := now }

variable {rate period}

theorem value_eq (hperiod : 0 < period) (c : RateClock) (now : Nat) :
    c.value rate period now = c.exact rate period now / period := by
  rw [value, elapsed, exact, Nat.mul_add_div hperiod]
  split
  · rfl
  · rw [Nat.zero_div]

/-- The value is the exact one, rounded down. -/
theorem exact_bounds (hperiod : 0 < period) (c : RateClock) (now : Nat) :
    period * c.value rate period now ≤ c.exact rate period now ∧
      c.exact rate period now < period * (c.value rate period now + 1) := by
  rw [value_eq hperiod]
  exact ⟨Nat.mul_div_le _ _, Nat.lt_mul_div_succ _ hperiod⟩

/-- The exact value grows with the clock at most. -/
theorem exact_advance (c : RateClock) {first now : Nat} (h : first ≤ now) :
    c.exact rate period now ≤ c.exact rate period first + (now - first) * rate := by
  rw [exact, exact]
  split
  · calc period * c.base + (now - c.start) * rate
        ≤ period * c.base + ((first - c.start) + (now - first)) * rate := by
          apply Nat.add_le_add_left
          apply Nat.mul_le_mul_right
          omega
      _ = period * c.base + (first - c.start) * rate + (now - first) * rate := by ring
  · omega

theorem elapsed_mono (c : RateClock) {first now : Nat} (h : first ≤ now) :
    c.elapsed rate period first ≤ c.elapsed rate period now := by
  rw [elapsed, elapsed]
  split
  · apply Nat.div_le_div_right
    apply Nat.mul_le_mul_right
    omega
  · exact le_refl 0

theorem value_mono (c : RateClock) {first now : Nat} (h : first ≤ now) :
    c.value rate period first ≤ c.value rate period now := Nat.add_le_add_left (c.elapsed_mono h) _

theorem elapsed_of_standing {c : RateClock} (h : c.running = false) (now : Nat) : c.elapsed rate period now = 0 := by
  rw [elapsed, if_neg (by simp [h])]

theorem value_of_standing {c : RateClock} (h : c.running = false) (now : Nat) : c.value rate period now = c.base := by
  rw [value, elapsed_of_standing h, Nat.add_zero]

/-! ### Starting and stopping -/

@[simp] theorem exact_begin (c : RateClock) (now : Nat) :
    (c.begin now).exact rate period now = c.exact rate period now := by
  rw [begin]
  split
  · rfl
  · rename_i hstanding
    rw [exact, exact, if_pos rfl, if_neg hstanding, Nat.sub_self, Nat.zero_mul]

@[simp] theorem value_begin (c : RateClock) (now : Nat) :
    (c.begin now).value rate period now = c.value rate period now := by
  rw [begin]
  split
  · rfl
  · rename_i hstanding
    rw [value, elapsed, value, elapsed, if_pos rfl, if_neg hstanding, Nat.sub_self, Nat.zero_mul, Nat.zero_div]

@[simp] theorem value_stop (c : RateClock) (v now : Nat) : (c.stop v).value rate period now = v :=
  value_of_standing rfl now

@[simp] theorem exact_stop (c : RateClock) (v now : Nat) : (c.stop v).exact rate period now = period * v := by
  rw [exact, stop, if_neg (by simp), Nat.add_zero]

@[simp] theorem value_restart (c : RateClock) (v now : Nat) : (c.restart v now).value rate period now = v := by
  rw [value, elapsed, restart]
  split <;> simp

@[simp] theorem exact_restart (c : RateClock) (v now : Nat) : (c.restart v now).exact rate period now = period * v := by
  rw [exact, restart]
  split <;> simp

/-! ### Reports -/

/-- Reports of values, with their times: the later ones are not smaller, and none is larger than the last bound. -/
def Rising (reports : List (Nat × Nat)) (bound : Nat) : Prop :=
  (∀ r ∈ reports, r.1 ≤ bound) ∧ reports.Pairwise fun r r' => r.1 ≤ r'.1

theorem Rising.mono {reports : List (Nat × Nat)} {bound bound' : Nat} (h : Rising reports bound) (hle : bound ≤ bound') :
    Rising reports bound' := ⟨fun r hr => le_trans (h.1 r hr) hle, h.2⟩

theorem Rising.snoc {reports : List (Nat × Nat)} {bound : Nat} (h : Rising reports bound) (now : Nat) :
    Rising (reports ++ [(bound, now)]) bound := by
  refine ⟨?_, ?_⟩
  · rw [List.forall_mem_append, List.forall_mem_singleton]
    exact ⟨h.1, le_refl bound⟩
  · rw [List.pairwise_append]
    refine ⟨h.2, List.pairwise_singleton _ _, fun r hr r' hr' => ?_⟩
    rw [List.mem_singleton.mp hr']
    exact h.1 r hr

/-- Reports in the order of the clock, that the exact value has caught up with no faster than the clock. -/
def Paced (rate period : Nat) (reports : List (Nat × Nat)) (exact now : Nat) : Prop :=
  (∀ r ∈ reports, r.2 ≤ now ∧ exact < period * (r.1 + 1) + (now - r.2) * rate) ∧
    reports.Pairwise fun r r' => r.2 ≤ r'.2 ∧ r'.1 ≤ r.1 + (r'.2 - r.2) * rate / period + 1

theorem Paced.advance {reports : List (Nat × Nat)} {exact exact' now now' : Nat} (h : Paced rate period reports exact now)
    (hnow : now ≤ now') (hexact : exact' ≤ exact + (now' - now) * rate) : Paced rate period reports exact' now' := by
  refine ⟨fun r hr => ?_, h.2⟩
  obtain ⟨hbefore, hlt⟩ := h.1 r hr
  have hsplit : (now' - r.2) * rate = (now - r.2) * rate + (now' - now) * rate := by
    rw [← Nat.add_mul]
    congr 1
    omega
  exact ⟨le_trans hbefore hnow, by omega⟩

theorem Paced.snoc (hperiod : 0 < period) {reports : List (Nat × Nat)} {exact now v : Nat}
    (h : Paced rate period reports exact now) (hlow : period * v ≤ exact) (hhigh : exact < period * (v + 1)) :
    Paced rate period (reports ++ [(v, now)]) exact now := by
  refine ⟨?_, ?_⟩
  · rw [List.forall_mem_append, List.forall_mem_singleton]
    refine ⟨h.1, le_refl now, ?_⟩
    rwa [Nat.sub_self, Nat.zero_mul, Nat.add_zero]
  · rw [List.pairwise_append]
    refine ⟨h.2, List.pairwise_singleton _ _, fun r hr r' hr' => ?_⟩
    rw [List.mem_singleton.mp hr']
    obtain ⟨hbefore, hlt⟩ := h.1 r hr
    -- the whole units between the reports are fewer than the clock has gained, but for one
    have hunits : period * v < period * (r.1 + 1 + ((now - r.2) * rate / period + 1)) := by
      calc period * v ≤ exact := hlow
        _ < period * (r.1 + 1) + (now - r.2) * rate := hlt
        _ < period * (r.1 + 1) + period * ((now - r.2) * rate / period + 1) :=
          Nat.add_lt_add_left (Nat.lt_mul_div_succ _ hperiod) _
        _ = period * (r.1 + 1 + ((now - r.2) * rate / period + 1)) := by ring
    have hlast := Nat.lt_of_mul_lt_mul_left hunits
    refine ⟨hbefore, ?_⟩
    show v ≤ r.1 + (now - r.2) * rate / period + 1
    omega

theorem paced_nil (exact now : Nat) : Paced rate period [] exact now := ⟨by simp, List.Pairwise.nil⟩

theorem rising_nil (bound : Nat) : Rising [] bound := ⟨by simp, List.Pairwise.nil⟩

/-! ### Steps -/

/-- A step of a counter that stops where it is, with what it shows. -/
inductive Step (rate period : Nat) (c : RateClock) (now : Nat) : RateClock → List Nat → Prop
  | kept : Step rate period c now c []
  | begun : Step rate period c now (c.begin now) []
  | stopped : Step rate period c now (c.stop (c.value rate period now)) []
  | shown : Step rate period c now c [c.value rate period now]

variable {c c' : RateClock} {now : Nat} {shows : List Nat}

/-- A step keeps the value. -/
theorem Step.value_eq (hstep : Step rate period c now c' shows) :
    c'.value rate period now = c.value rate period now := by
  cases hstep with
  | kept => rfl
  | begun => rw [value_begin]
  | stopped => rw [value_stop]
  | shown => rfl

theorem Step.shows_value (hstep : Step rate period c now c' shows) : ∀ v ∈ shows, v = c.value rate period now := by
  intro v hv
  cases hstep with
  | shown => exact List.mem_singleton.mp hv
  | _ => cases hv

theorem Step.exact_le (hperiod : 0 < period) (hstep : Step rate period c now c' shows) :
    c'.exact rate period now ≤ c.exact rate period now := by
  cases hstep with
  | kept => exact le_refl _
  | begun => rw [exact_begin]
  | stopped =>
      rw [exact_stop]
      exact (c.exact_bounds hperiod now).1
  | shown => exact le_refl _

theorem Step.rising (hstep : Step rate period c now c' shows) {reports : List (Nat × Nat)} {before : Nat}
    (hbefore : before ≤ now) (h : Rising reports (c.value rate period before)) :
    Rising (reports ++ shows.map fun v => (v, now)) (c'.value rate period now) := by
  have hrising := h.mono (c.value_mono hbefore)
  rw [hstep.value_eq]
  cases hstep with
  | shown => exact hrising.snoc now
  | _ =>
      rw [List.map_nil, List.append_nil]
      exact hrising

theorem Step.paced (hperiod : 0 < period) (hstep : Step rate period c now c' shows)
    {reports : List (Nat × Nat)} {before : Nat} (hbefore : before ≤ now)
    (h : Paced rate period reports (c.exact rate period before) before) :
    Paced rate period (reports ++ shows.map fun v => (v, now)) (c'.exact rate period now) now := by
  have hpaced : Paced rate period reports (c'.exact rate period now) now :=
    h.advance hbefore (le_trans (hstep.exact_le hperiod) (c.exact_advance hbefore))
  cases hstep with
  | shown =>
      obtain ⟨hlow, hhigh⟩ := c.exact_bounds hperiod now
      exact hpaced.snoc hperiod hlow hhigh
  | _ =>
      rw [List.map_nil, List.append_nil]
      exact hpaced

end RateClock

/-! ### A counter that is supplied -/

/-- A counter that stops at what it has been supplied with: shown beyond it, it starts again from there. -/
structure SuppliedClock where
  clock : RateClock
  supply : Nat

namespace SuppliedClock
variable (rate period : Nat)

def shown (c : SuppliedClock) (now : Nat) : Nat := min c.supply (c.clock.value rate period now)

/-- The counter after it has been looked at. -/
def look (c : SuppliedClock) (now : Nat) : SuppliedClock :=
  if c.supply < c.clock.value rate period now then { c with clock := c.clock.restart c.supply now } else c

variable {rate period}

theorem shown_mono (c : SuppliedClock) {first now : Nat} (h : first ≤ now) :
    c.shown rate period first ≤ c.shown rate period now := min_le_min_left c.supply (c.clock.value_mono h)

theorem shown_supply {c c' : SuppliedClock} (hclock : c'.clock = c.clock) (hsupply : c.supply ≤ c'.supply) (now : Nat) :
    c.shown rate period now ≤ c'.shown rate period now := by
  rw [shown, shown, hclock]
  exact min_le_min_right _ hsupply

@[simp] theorem look_supply (c : SuppliedClock) (now : Nat) : (c.look rate period now).supply = c.supply := by
  rw [look]
  split <;> rfl

/-- Looking at the counter does not change what it shows, and then it shows its value. -/
theorem look_value (c : SuppliedClock) (now : Nat) :
    (c.look rate period now).clock.value rate period now = c.shown rate period now := by
  rw [look, shown]
  split
  · rename_i hbeyond
    rw [RateClock.value_restart, min_eq_left hbeyond.le]
  · rename_i hwithin
    rw [min_eq_right (Nat.le_of_not_lt hwithin)]

@[simp] theorem look_shown (c : SuppliedClock) (now : Nat) :
    (c.look rate period now).shown rate period now = c.shown rate period now := by
  rw [shown, look_value, look_supply, shown, ← min_assoc, min_self]

/-- Looking at the counter does not put it forward. -/
theorem look_exact (hperiod : 0 < period) (c : SuppliedClock) (now : Nat) :
    (c.look rate period now).clock.exact rate period now ≤ c.clock.exact rate period now := by
  rw [look]
  split
  · rename_i hbeyond
    rw [RateClock.exact_restart]
    exact le_trans (Nat.mul_le_mul_left period hbeyond.le) (c.clock.exact_bounds hperiod now).1
  · exact le_refl _

/-- A step of a supplied counter with what it shows. A step that slips moves the base and leaves the start. -/
inductive Step (rate period : Nat) (slips : Prop) (c : SuppliedClock) (now : Nat) : SuppliedClock → List Nat → Prop
  | kept : Step rate period slips c now c []
  | supplied (n : Nat) : Step rate period slips c now { c with supply := c.supply + n } []
  | begun (n : Nat) :
      Step rate period slips c now ⟨(c.look rate period now).clock.begin now, c.supply + n⟩ []
  | looked : Step rate period slips c now (c.look rate period now) [c.shown rate period now]
  | stopped :
      Step rate period slips c now
        { c with clock := (c.look rate period now).clock.stop (c.shown rate period now) } []
  | slipped (h : slips) :
      Step rate period slips c now
        { c with clock := { (c.look rate period now).clock with base := c.shown rate period now } } []

theorem base_le_shown {c : SuppliedClock} (h : c.clock.base ≤ c.supply) (now : Nat) :
    c.clock.base ≤ c.shown rate period now := le_min h (Nat.le_add_right _ _)

theorem look_base {c : SuppliedClock} (h : c.clock.base ≤ c.supply) (now : Nat) :
    (c.look rate period now).clock.base ≤ c.shown rate period now := by
  rw [← look_shown]
  apply base_le_shown
  rw [look_supply, look]
  split
  · exact le_refl c.supply
  · exact h

variable {slips : Prop} {c c' : SuppliedClock} {now : Nat} {shows : List Nat}

/-- The base stays within the supply. -/
theorem Step.base_le (hstep : Step rate period slips c now c' shows) (h : c.clock.base ≤ c.supply) :
    c'.clock.base ≤ c'.supply := by
  have hshown : c.shown rate period now ≤ c.supply := min_le_left _ _
  have hlooked : (c.look rate period now).clock.base ≤ c.supply := le_trans (look_base h now) hshown
  cases hstep with
  | kept => exact h
  | supplied n => exact le_trans h (Nat.le_add_right _ n)
  | begun n =>
      refine le_trans (le_of_eq ?_) (le_trans hlooked (Nat.le_add_right _ n))
      rw [RateClock.begin]
      split <;> rfl
  | looked =>
      rw [look_supply]
      exact hlooked
  | stopped => exact hshown
  | slipped hslip => exact hshown

/-- A step never takes back what the counter shows. -/
theorem Step.shown_le (hstep : Step rate period slips c now c' shows) :
    c.shown rate period now ≤ c'.shown rate period now := by
  have hshown : c.shown rate period now ≤ c.supply := min_le_left _ _
  cases hstep with
  | kept => exact le_refl _
  | supplied n =>
      apply shown_supply
      · rfl
      · exact Nat.le_add_right c.supply n
  | begun n =>
      refine le_min (le_trans hshown (Nat.le_add_right _ n)) ?_
      rw [RateClock.value_begin, look_value]
  | looked => rw [look_shown]
  | stopped =>
      refine le_min hshown ?_
      rw [RateClock.value_stop]
  | slipped hslip => exact le_min hshown (Nat.le_add_right _ _)

/-- A step that does not slip never puts the counter forward. -/
theorem Step.exact_le (hperiod : 0 < period) (hstep : Step rate period False c now c' shows) :
    c'.clock.exact rate period now ≤ c.clock.exact rate period now := by
  have hlook : (c.look rate period now).clock.exact rate period now ≤ c.clock.exact rate period now :=
    c.look_exact hperiod now
  cases hstep with
  | kept => exact le_refl _
  | supplied n => exact le_refl _
  | begun n =>
      rw [RateClock.exact_begin]
      exact hlook
  | looked => exact hlook
  | stopped =>
      rw [RateClock.exact_stop, ← look_value]
      exact le_trans ((c.look rate period now).clock.exact_bounds hperiod now).1 hlook
  | slipped hslip => exact hslip.elim

/-- A slip leaves a counter alone that has gained no whole unit. -/
theorem slipped_of_elapsed (h : c.clock.base ≤ c.supply) (helapsed : c.clock.elapsed rate period now = 0) :
    { c with clock := { (c.look rate period now).clock with base := c.shown rate period now } } = c := by
  have hvalue : c.clock.value rate period now = c.clock.base := by rw [RateClock.value, helapsed, Nat.add_zero]
  have hshown : c.shown rate period now = c.clock.base := by rw [shown, hvalue, min_eq_right h]
  rw [hshown, look, hvalue, if_neg (Nat.not_lt.mpr h)]

theorem Step.of_slips (hstep : Step rate period slips c now c' shows) (h : c.clock.base ≤ c.supply)
    (helapsed : slips → c.clock.elapsed rate period now = 0) : Step rate period False c now c' shows := by
  cases hstep with
  | kept => exact .kept
  | supplied n => exact .supplied n
  | begun n => exact .begun n
  | looked => exact .looked
  | stopped => exact .stopped
  | slipped hslip =>
      rw [slipped_of_elapsed h (helapsed hslip)]
      exact .kept

/-- What a counter shows rises from step to step. -/
theorem Step.rising (hstep : Step rate period slips c now c' shows) {reports : List (Nat × Nat)} {before : Nat}
    (hbefore : before ≤ now) (h : RateClock.Rising reports (c.shown rate period before)) :
    RateClock.Rising (reports ++ shows.map fun v => (v, now)) (c'.shown rate period now) := by
  have hrising := h.mono (c.shown_mono hbefore)
  have hshown := hstep.shown_le
  cases hstep with
  | looked => exact (hrising.snoc now).mono hshown
  | _ =>
      rw [List.map_nil, List.append_nil]
      exact hrising.mono hshown

/-- A counter that does not slip is paced by the clock. -/
theorem Step.paced (hperiod : 0 < period) (hstep : Step rate period False c now c' shows)
    {reports : List (Nat × Nat)} {before : Nat} (hbefore : before ≤ now)
    (h : RateClock.Paced rate period reports (c.clock.exact rate period before) before) :
    RateClock.Paced rate period (reports ++ shows.map fun v => (v, now)) (c'.clock.exact rate period now) now := by
  have hpaced : RateClock.Paced rate period reports (c'.clock.exact rate period now) now :=
    h.advance hbefore (le_trans (hstep.exact_le hperiod) (c.clock.exact_advance hbefore))
  cases hstep with
  | looked =>
      obtain ⟨hlow, hhigh⟩ := @RateClock.exact_bounds rate period hperiod (c.look rate period now).clock now
      rw [look_value] at hlow hhigh
      exact hpaced.snoc hperiod hlow hhigh
  | _ =>
      rw [List.map_nil, List.append_nil]
      exact hpaced

end SuppliedClock
