import Mathlib

/-! Finite runs of a partial deterministic machine that emits events. All nondeterminism sits in
the labels: `step s l = none` means that `l` is not enabled at `s`. A condition on the steps of a
run is a relation between the state before a step and its label. -/

namespace Runs

variable {σ ℓ ε : Type*}

/-- Executes the labels in order and collects the events. -/
def exec (step : σ → ℓ → Option (σ × List ε)) : σ → List ℓ → Option (σ × List ε)
  | s, [] => some (s, [])
  | s, l :: ls =>
      match step s l with
      | none => none
      | some (t, es) =>
          match exec step t ls with
          | none => none
          | some (u, fs) => some (u, es ++ fs)

/-- Every step the run takes meets the condition. -/
def Guarded (step : σ → ℓ → Option (σ × List ε)) (guard : σ → ℓ → Prop) : σ → List ℓ → Prop
  | _, [] => True
  | s, l :: ls => guard s l ∧ ∀ t es, step s l = some (t, es) → Guarded step guard t ls

variable {step : σ → ℓ → Option (σ × List ε)} {guard : σ → ℓ → Prop}

@[simp] theorem exec_nil (s : σ) : exec step s [] = some (s, []) := rfl

theorem exec_cons_eq_some {s u : σ} {l : ℓ} {ls : List ℓ} {gs : List ε} :
    exec step s (l :: ls) = some (u, gs) ↔
      ∃ t es fs, step s l = some (t, es) ∧ exec step t ls = some (u, fs) ∧ gs = es ++ fs := by
  constructor
  · intro h
    rw [exec] at h
    split at h
    · cases h
    · rename_i t es hstep
      split at h
      · cases h
      · rename_i v fs hrun
        cases h
        exact ⟨t, es, fs, hstep, hrun, rfl⟩
  · rintro ⟨t, es, fs, hstep, hrun, rfl⟩
    simp only [exec, hstep, hrun]

theorem exec_single {s : σ} {l : ℓ} : exec step s [l] = step s l := by
  simp only [exec]
  cases step s l with
  | none => rfl
  | some pair => simp

theorem exec_append_eq_some {s u : σ} {ls ms : List ℓ} {gs : List ε} :
    exec step s (ls ++ ms) = some (u, gs) ↔
      ∃ t es fs, exec step s ls = some (t, es) ∧ exec step t ms = some (u, fs) ∧ gs = es ++ fs := by
  induction ls generalizing s gs with
  | nil =>
      constructor
      · intro h
        exact ⟨s, [], gs, rfl, h, rfl⟩
      · rintro ⟨t, es, fs, hnil, hrun, rfl⟩
        cases hnil
        exact hrun
  | cons l ls ih =>
      rw [List.cons_append]
      constructor
      · intro h
        obtain ⟨t, es, fs, hstep, hrun, rfl⟩ := exec_cons_eq_some.mp h
        obtain ⟨v, es', fs', hfirst, hsecond, rfl⟩ := ih.mp hrun
        exact ⟨v, es ++ es', fs', exec_cons_eq_some.mpr ⟨t, es, es', hstep, hfirst, rfl⟩, hsecond,
          by rw [List.append_assoc]⟩
      · rintro ⟨v, es, fs, hfirst, hsecond, rfl⟩
        obtain ⟨t, es', fs', hstep, hrun, rfl⟩ := exec_cons_eq_some.mp hfirst
        exact exec_cons_eq_some.mpr ⟨t, es', fs' ++ fs, hstep, ih.mpr ⟨v, fs', fs, hrun, hsecond, rfl⟩,
          by rw [List.append_assoc]⟩

theorem guarded_true (s : σ) (ls : List ℓ) : Guarded step (fun _ _ => True) s ls := by
  induction ls generalizing s with
  | nil => trivial
  | cons l ls ih => exact ⟨trivial, fun t _ _ => ih t⟩

theorem guarded_cons {s t : σ} {l : ℓ} {ls : List ℓ} {es : List ε} (hstep : step s l = some (t, es))
    (hguard : guard s l) (hrest : Guarded step guard t ls) : Guarded step guard s (l :: ls) := by
  refine ⟨hguard, fun u fs hother => ?_⟩
  cases hstep.symm.trans hother
  exact hrest

/-- A condition that can be evaluated can be evaluated along a run. -/
instance Guarded.decidable [∀ s l, Decidable (guard s l)] : ∀ s ls, Decidable (Guarded step guard s ls)
  | _, [] => isTrue trivial
  | s, l :: ls =>
      match hstep : step s l with
      | none => decidable_of_iff (guard s l)
          ⟨fun hguard => ⟨hguard, fun _ _ hother => nomatch hstep.symm.trans hother⟩, And.left⟩
      | some (t, es) =>
          have : Decidable (Guarded step guard t ls) := Guarded.decidable t ls
          decidable_of_iff (guard s l ∧ Guarded step guard t ls)
            ⟨fun h => guarded_cons hstep h.1 h.2, fun h => ⟨h.1, h.2 t es hstep⟩⟩

theorem guarded_of_labels {P : ℓ → Prop} {ls : List ℓ} (h : ∀ l ∈ ls, P l) (s : σ) :
    Guarded step (fun _ l => P l) s ls := by
  induction ls generalizing s with
  | nil => trivial
  | cons l ls ih =>
      have hrest : ∀ m ∈ ls, P m := fun m hm => h m (List.mem_cons_of_mem l hm)
      exact ⟨h l List.mem_cons_self, fun t _ _ => ih hrest t⟩

theorem Guarded.and_labels {P : ℓ → Prop} {s : σ} {ls : List ℓ} (hguard : Guarded step guard s ls)
    (h : ∀ l ∈ ls, P l) : Guarded step (fun s l => guard s l ∧ P l) s ls := by
  induction ls generalizing s with
  | nil => trivial
  | cons l ls ih =>
      have hrest : ∀ m ∈ ls, P m := fun m hm => h m (List.mem_cons_of_mem l hm)
      exact ⟨⟨hguard.1, h l List.mem_cons_self⟩, fun t es hstep => ih (hguard.2 t es hstep) hrest⟩

/-- A run that shows the condition of each of its steps in their events meets it. -/
theorem guarded_of_events {P : ε → Prop}
    (hstep : ∀ s l t es, step s l = some (t, es) → (∀ e ∈ es, P e) → guard s l) {s u : σ} {ls : List ℓ} {gs : List ε}
    (hrun : exec step s ls = some (u, gs)) (h : ∀ e ∈ gs, P e) : Guarded step guard s ls := by
  induction ls generalizing s gs with
  | nil => trivial
  | cons l ls ih =>
      obtain ⟨t, es, fs, hone, hrest, rfl⟩ := exec_cons_eq_some.mp hrun
      have hfirst : ∀ e ∈ es, P e := fun e he => h e (List.mem_append_left fs he)
      have hlater : ∀ e ∈ fs, P e := fun e he => h e (List.mem_append_right es he)
      exact guarded_cons hone (hstep s l t es hone hfirst) (ih hrest hlater)

/-- The invariant rule with history: what every guarded step preserves, relative to the events
emitted so far, holds at the end of every guarded run. -/
theorem exec_invariant_history (I : List ε → σ → Prop)
    (hstep : ∀ h s l t es, I h s → guard s l → step s l = some (t, es) → I (h ++ es) t)
    {s u : σ} {ls : List ℓ} {h gs : List ε} (hI : I h s) (hguard : Guarded step guard s ls)
    (hrun : exec step s ls = some (u, gs)) : I (h ++ gs) u := by
  induction ls generalizing s h gs with
  | nil =>
      cases hrun
      rwa [List.append_nil]
  | cons l ls ih =>
      obtain ⟨t, es, fs, hone, hrest, rfl⟩ := exec_cons_eq_some.mp hrun
      rw [← List.append_assoc]
      exact ih (hstep h s l t es hI hguard.1 hone) (hguard.2 t es hone) hrest

/-- The invariant rule for unconditional runs with history. -/
theorem exec_history (I : List ε → σ → Prop)
    (hstep : ∀ h s l t es, I h s → step s l = some (t, es) → I (h ++ es) t)
    {s u : σ} {ls : List ℓ} {gs : List ε} (hI : I [] s) (hrun : exec step s ls = some (u, gs)) :
    I gs u := by
  have hkeep : ∀ h s l t es, I h s → True → step s l = some (t, es) → I (h ++ es) t :=
    fun h s l t es hI _ hs => hstep h s l t es hI hs
  exact exec_invariant_history I hkeep hI (guarded_true s ls) hrun

/-- The invariant rule for state predicates. -/
theorem exec_invariant (I : σ → Prop)
    (hstep : ∀ s l t es, I s → guard s l → step s l = some (t, es) → I t)
    {s u : σ} {ls : List ℓ} {gs : List ε} (hI : I s) (hguard : Guarded step guard s ls)
    (hrun : exec step s ls = some (u, gs)) : I u := by
  have hkeep : ∀ (h : List ε) s l t es, I s → guard s l → step s l = some (t, es) → I t :=
    fun _ s l t es hI hg hs => hstep s l t es hI hg hs
  exact exec_invariant_history (fun _ => I) hkeep (h := []) hI hguard hrun

/-- The rank rule: what every guarded step of a kind takes off a rank, the guarded run takes off it. -/
theorem exec_rank (I : σ → Prop) (rank : σ → Nat) (counted : ℓ → Bool)
    (hstep : ∀ s l t es, I s → guard s l → step s l = some (t, es) → I t ∧ rank t ≤ rank s - if counted l then 1 else 0)
    {s u : σ} {ls : List ℓ} {gs : List ε} (hI : I s) (hguard : Guarded step guard s ls)
    (hrun : exec step s ls = some (u, gs)) : rank u ≤ rank s - ls.countP counted := by
  induction ls generalizing s gs with
  | nil =>
      cases hrun
      exact le_refl _
  | cons l ls ih =>
      obtain ⟨t, es, fs, hone, hrest, rfl⟩ := exec_cons_eq_some.mp hrun
      obtain ⟨ht, hrank⟩ := hstep s l t es hI hguard.1 hone
      have hlater : rank u ≤ rank t - ls.countP counted := ih ht (hguard.2 t es hone) hrest
      rw [List.countP_cons]
      omega

/-- A state is reachable when some run ends in it. -/
def Reachable (step : σ → ℓ → Option (σ × List ε)) (s u : σ) : Prop :=
  ∃ ls es, exec step s ls = some (u, es)

theorem Reachable.refl (s : σ) : Reachable step s s := ⟨[], [], rfl⟩

theorem Reachable.snoc {s u v : σ} {l : ℓ} {es : List ε} (h : Reachable step s u)
    (hstep : step u l = some (v, es)) : Reachable step s v := by
  obtain ⟨ls, fs, hrun⟩ := h
  exact ⟨ls ++ [l], fs ++ es, exec_append_eq_some.mpr ⟨u, fs, es, hrun, by rwa [exec_single], rfl⟩⟩

/-- What every step preserves holds at every reachable state. -/
theorem Reachable.invariant (I : σ → Prop)
    (hstep : ∀ s l t es, I s → step s l = some (t, es) → I t)
    {s u : σ} (h : Reachable step s u) (hI : I s) : I u := by
  obtain ⟨ls, es, hrun⟩ := h
  have hkeep : ∀ s l t es, I s → True → step s l = some (t, es) → I t :=
    fun s l t es hI _ hs => hstep s l t es hI hs
  exact exec_invariant I hkeep hI (guarded_true s ls) hrun

/-- The rule for two runs: what a step of one machine does, a step of the other does with a related label, and so run
the machines with related labels. -/
theorem exec_related {σ' ℓ' ε' : Type*} {step' : σ' → ℓ' → Option (σ' × List ε')} {R : σ → σ' → Prop}
    {Q : ℓ → ℓ' → Prop} {E : ε → ε' → Prop}
    (hstep : ∀ s s' l l' t es, R s s' → Q l l' → step s l = some (t, es) →
      ∃ t' es', step' s' l' = some (t', es') ∧ R t t' ∧ List.Forall₂ E es es')
    {s u : σ} {s' : σ'} {ls : List ℓ} {ls' : List ℓ'} {gs : List ε} (hs : R s s') (hls : List.Forall₂ Q ls ls')
    (hrun : exec step s ls = some (u, gs)) :
    ∃ u' gs', exec step' s' ls' = some (u', gs') ∧ R u u' ∧ List.Forall₂ E gs gs' := by
  induction hls generalizing s s' gs with
  | nil =>
      cases hrun
      exact ⟨s', [], rfl, hs, .nil⟩
  | cons hl hls ih =>
      obtain ⟨t, es, fs, hone, hrest, rfl⟩ := exec_cons_eq_some.mp hrun
      obtain ⟨t', es', hone', ht, hes⟩ := hstep _ _ _ _ _ _ hs hl hone
      obtain ⟨u', fs', hrest', hu, hfs⟩ := ih ht hrest
      exact ⟨u', es' ++ fs', exec_cons_eq_some.mpr ⟨t', es', fs', hone', hrest', rfl⟩, hu, List.rel_append hes hfs⟩

/-! ### Properties of all states of a run -/

/-- The property holds of every state that the run passes through. -/
def Always (step : σ → ℓ → Option (σ × List ε)) (I : σ → Prop) (s : σ) (ls : List ℓ) : Prop :=
  ∀ before after, ls = before ++ after → ∀ t es, exec step s before = some (t, es) → I t

theorem always_nil {I : σ → Prop} {s : σ} : Always step I s [] ↔ I s := by
  constructor
  · intro h
    exact h [] [] rfl s [] rfl
  · intro h before after hempty t es hrun
    obtain ⟨rfl, -⟩ := List.append_eq_nil_iff.mp hempty.symm
    cases hrun
    exact h

theorem always_cons {I : σ → Prop} {s : σ} {l : ℓ} {ls : List ℓ} :
    Always step I s (l :: ls) ↔ I s ∧ ∀ t es, step s l = some (t, es) → Always step I t ls := by
  constructor
  · intro h
    refine ⟨h [] (l :: ls) rfl s [] rfl, fun t es hstep before after hsplit u fs hrun => ?_⟩
    exact h (l :: before) after (by rw [hsplit, List.cons_append]) u (es ++ fs)
      (exec_cons_eq_some.mpr ⟨t, es, fs, hstep, hrun, rfl⟩)
  · rintro ⟨hs, hrest⟩ before after hsplit u gs hrun
    cases before with
    | nil =>
        cases hrun
        exact hs
    | cons first before =>
        obtain ⟨rfl, htail⟩ := List.cons.inj hsplit
        obtain ⟨t, es, fs, hstep, hrun, -⟩ := exec_cons_eq_some.mp hrun
        exact hrest t es hstep before after htail u fs hrun

/-- A property that a step keeps exactly when it meets the condition holds throughout a run exactly when all its
steps meet the condition. -/
theorem always_iff_guarded {I : σ → Prop} (hstep : ∀ s l t es, I s → step s l = some (t, es) → (I t ↔ guard s l))
    (hdisabled : ∀ s l, step s l = none → guard s l) {s : σ} (hs : I s) (ls : List ℓ) :
    Always step I s ls ↔ Guarded step guard s ls := by
  induction ls generalizing s with
  | nil => exact always_nil.trans (iff_of_true hs trivial)
  | cons l ls ih =>
      rw [always_cons]
      cases hone : step s l with
      | none =>
          refine iff_of_true ⟨hs, fun t es h => nomatch h⟩ ⟨hdisabled s l hone, fun t es h => ?_⟩
          exact nomatch hone.symm.trans h
      | some pair =>
          obtain ⟨t, es⟩ := pair
          constructor
          · intro h
            have hrest := h.2 t es rfl
            have ht : I t := hrest [] ls rfl t [] rfl
            exact guarded_cons hone ((hstep s l t es hs hone).mp ht) ((ih ht).mp hrest)
          · intro h
            have ht : I t := (hstep s l t es hs hone).mpr h.1
            refine ⟨hs, fun u fs heq => ?_⟩
            cases heq
            exact (ih ht).mpr (h.2 t es hone)

/-! ### Runs under a clock -/

/-- The machine with the last reading of a clock that never goes back. `reading` is what a step reads. -/
def clocked (step : σ → ℓ → Option (σ × List ε)) (reading : ℓ → Option Nat) (s : σ × Nat) (l : ℓ) :
    Option ((σ × Nat) × List ε) :=
  let now := (reading l).getD s.2
  if s.2 ≤ now then (step s.1 l).map fun r => ((r.1, now), r.2) else none

theorem clocked_eq_some {reading : ℓ → Option Nat} {s t : σ × Nat} {l : ℓ} {es : List ε} :
    clocked step reading s l = some (t, es) ↔
      t.2 = (reading l).getD s.2 ∧ s.2 ≤ t.2 ∧ step s.1 l = some (t.1, es) := by
  rw [clocked]
  constructor
  · intro h
    split at h
    · rename_i hle
      obtain ⟨⟨u, fs⟩, hstep, hpair⟩ := Option.map_eq_some_iff.mp h
      cases hpair
      exact ⟨rfl, hle, hstep⟩
    · cases h
  · rintro ⟨hnow, hle, hstep⟩
    simp only [← hnow, if_pos hle, hstep, Option.map_some]

theorem clocked_reading {reading : ℓ → Option Nat} {s t : σ × Nat} {l : ℓ} {es : List ε}
    (h : clocked step reading s l = some (t, es)) : ∀ now ∈ reading l, now = t.2 := by
  intro now hnow
  rw [(clocked_eq_some.mp h).1, hnow, Option.getD_some]

/-! ### Runs with sleepers -/

/-- What a step reads from the clock, which thread it puts to sleep and for how long, and which sleeper it is of. -/
structure Sleepers (σ ℓ τ : Type*) where
  reading : ℓ → Option Nat
  sleeps : σ → ℓ → Option (τ × Nat)
  resumes : ℓ → Option τ

/-- A state with its time and the times before which the sleepers do not go on. -/
structure TimedState (σ τ : Type*) where
  state : σ
  now : Nat
  wake : τ → Nat

/-- The machine in time: a label comes with the time of its step, and a sleeper sleeps for its time at least. -/
def timed {τ : Type*} [DecidableEq τ] (step : σ → ℓ → Option (σ × List ε)) (sleepers : Sleepers σ ℓ τ)
    (s : TimedState σ τ) (l : ℓ × Nat) : Option (TimedState σ τ × List ε) :=
  if s.now ≤ l.2 ∧ (∀ now ∈ sleepers.reading l.1, now = l.2) ∧ ∀ i ∈ sleepers.resumes l.1, s.wake i ≤ l.2 then
    (step s.state l.1).map fun r =>
      (⟨r.1, l.2, (sleepers.sleeps s.state l.1).elim s.wake fun p => Function.update s.wake p.1 (l.2 + p.2)⟩, r.2)
  else
    none

theorem timed_eq_some {τ : Type*} [DecidableEq τ] {sleepers : Sleepers σ ℓ τ} {s t : TimedState σ τ} {l : ℓ × Nat}
    {es : List ε} (h : timed step sleepers s l = some (t, es)) :
    step s.state l.1 = some (t.state, es) ∧ s.now ≤ t.now ∧ t.now = l.2 ∧
      (∀ now ∈ sleepers.reading l.1, now = t.now) ∧ (∀ i ∈ sleepers.resumes l.1, s.wake i ≤ t.now) ∧
      t.wake = (sleepers.sleeps s.state l.1).elim s.wake fun p => Function.update s.wake p.1 (t.now + p.2) := by
  rw [timed] at h
  split at h
  · rename_i htime
    obtain ⟨⟨u, fs⟩, hstep, hpair⟩ := Option.map_eq_some_iff.mp h
    cases hpair
    exact ⟨hstep, htime.1, rfl, htime.2.1, htime.2.2, rfl⟩
  · cases h

/-! ### Sums over threads -/

/-- A sum over threads of which one has changed. -/
theorem sum_update {τ α : Type*} [Fintype τ] [DecidableEq τ] (f : α → Nat) (g : τ → α) (i : τ) (a : α) :
    (∑ j, f (Function.update g i a j)) + f (g i) = (∑ j, f (g j)) + f a := by
  rw [← Finset.add_sum_erase Finset.univ _ (Finset.mem_univ i), ← Finset.add_sum_erase Finset.univ (fun j => f (g j))
    (Finset.mem_univ i), Function.update_self]
  have hrest : ∑ j ∈ Finset.univ.erase i, f (Function.update g i a j) = ∑ j ∈ Finset.univ.erase i, f (g j) := by
    apply Finset.sum_congr rfl
    intro j hj
    rw [Function.update_of_ne (Finset.ne_of_mem_erase hj)]
  rw [hrest]
  omega

/-! ### Histories -/

/-- What the last event of a kind has set: `f` reads the value that an event sets. -/
def lastSet {α : Type*} (f : ε → Option α) (first : α) (events : List ε) : α :=
  events.foldl (fun value event => (f event).getD value) first

theorem lastSet_append {α : Type*} (f : ε → Option α) (first : α) (h es : List ε) :
    lastSet f first (h ++ es) = lastSet f (lastSet f first h) es :=
  List.foldl_append

theorem lastSet_of_silent {α : Type*} {f : ε → Option α} {es : List ε} (h : ∀ e ∈ es, f e = none) (value : α) :
    lastSet f value es = value := by
  induction es with
  | nil => rfl
  | cons e es ih =>
      rw [lastSet, List.foldl_cons, h e List.mem_cons_self]
      exact ih fun e' he' => h e' (List.mem_cons_of_mem e he')

/-- Events that set nothing can be left out. -/
theorem lastSet_filter {α : Type*} {f : ε → Option α} {p : ε → Bool} (h : ∀ e, p e = false → f e = none) (value : α)
    (events : List ε) : lastSet f value (events.filter p) = lastSet f value events := by
  induction events generalizing value with
  | nil => rfl
  | cons e es ih =>
      by_cases hp : p e = true
      · rw [List.filter_cons_of_pos hp]
        exact ih _
      · rw [List.filter_cons_of_neg hp, ih, lastSet, lastSet, List.foldl_cons, h e (by simpa using hp), Option.getD_none]

/-- The number of counted events since the last one that starts the count again. -/
def countSince (starts counted : ε → Bool) (events : List ε) : Nat :=
  events.foldl (fun n event => if starts event then 0 else if counted event then n + 1 else n) 0

theorem countSince_snoc (starts counted : ε → Bool) (h : List ε) (e : ε) :
    countSince starts counted (h ++ [e]) =
      if starts e then 0 else if counted e then countSince starts counted h + 1 else countSince starts counted h := by
  rw [countSince, List.foldl_append]
  rfl

/-- Every event is emitted after a history that allows it. -/
def Throughout (allowed : List ε → ε → Prop) (events : List ε) : Prop :=
  ∀ before event after, events = before ++ event :: after → allowed before event

theorem throughout_nil (allowed : List ε → ε → Prop) : Throughout allowed [] := by
  intro before event after h
  exact absurd h.symm (List.append_ne_nil_of_right_ne_nil before (List.cons_ne_nil event after))

theorem Throughout.append {allowed : List ε → ε → Prop} {h es : List ε} (hh : Throughout allowed h)
    (hes : Throughout (fun before => allowed (h ++ before)) es) : Throughout allowed (h ++ es) := by
  intro before event after heq
  rcases List.append_eq_append_iff.mp heq with ⟨rest, rfl, hrest⟩ | ⟨rest, hbefore, hrest⟩
  · exact hes rest event after hrest
  · cases rest with
    | nil =>
        rw [List.append_nil] at hbefore
        subst hbefore
        have hfirst : allowed (h ++ []) event := hes [] event after hrest.symm
        rwa [List.append_nil] at hfirst
    | cons other rest =>
        obtain ⟨rfl, -⟩ := List.cons.inj hrest
        exact hh before event rest hbefore

/-- When every step of a guarded run emits events that the history allows, so does the run. -/
theorem exec_throughout (I : List ε → σ → Prop) (allowed : List ε → ε → Prop)
    (hstep : ∀ h s l t es, I h s → guard s l → step s l = some (t, es) →
      I (h ++ es) t ∧ Throughout (fun before => allowed (h ++ before)) es)
    {s u : σ} {ls : List ℓ} {gs : List ε} (hI : I [] s) (hguard : Guarded step guard s ls)
    (hrun : exec step s ls = some (u, gs)) : I gs u ∧ Throughout allowed gs := by
  have hkeep : ∀ h s l t es, I h s ∧ Throughout allowed h → guard s l → step s l = some (t, es) →
      I (h ++ es) t ∧ Throughout allowed (h ++ es) := by
    intro h s l t es hinv hg hs
    obtain ⟨hnext, hes⟩ := hstep h s l t es hinv.1 hg hs
    exact ⟨hnext, hinv.2.append hes⟩
  exact exec_invariant_history (fun h s => I h s ∧ Throughout allowed h) hkeep (h := [])
    ⟨hI, throughout_nil allowed⟩ hguard hrun

theorem throughout_singleton {allowed : List ε → ε → Prop} {e : ε} (h : allowed [] e) : Throughout allowed [e] := by
  intro before event after heq
  cases before with
  | nil =>
      cases heq
      exact h
  | cons x before => exact absurd (List.cons.inj heq).2.symm (by simp)

theorem throughout_of_forall {allowed : List ε → ε → Prop} {events : List ε}
    (h : ∀ event ∈ events, ∀ before, allowed before event) : Throughout allowed events := by
  intro before event after heq
  exact h event (heq ▸ List.mem_append_right before List.mem_cons_self) before

end Runs
