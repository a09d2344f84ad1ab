import Trout.Runs

/-! The handles of `adev_create_audio_patch` in `audio_hw.c`. A call increments `last_patch_id` under the
device's lock and reads it again for `*handle` after the release, so other calls can come in between. Calls are
the elements of any type, each made once at most; logging is left out. -/

namespace Trout.Audio
open Runs

/-- `audio_port_type_t` -/
inductive AudioPortType where
  | none
  | device
  | mix
  | session
  deriving DecidableEq

/-- The types of the `num_sources` sources and the `num_sinks` sinks of a call. -/
structure PatchPorts where
  sources : List AudioPortType
  sinks : List AudioPortType

/-- The condition under which a call assigns a handle. -/
def PatchPorts.assigns (ports : PatchPorts) : Bool :=
  decide (ports.sources = [.device] ∧ ports.sinks = [.device])

/-- Before the call, between the release of the lock and the read for `*handle`, or after the call. -/
inductive PatchPc where
  | idle
  | incremented
  | returned
  deriving DecidableEq

structure PatchSystem (τ : Type) where
  lastPatchId : UInt32
  calls : τ → PatchPc

/-- Before any call, with what earlier ones have left in `last_patch_id`. -/
def PatchSystem.init {τ : Type} (lastPatchId : UInt32) : PatchSystem τ := ⟨lastPatchId, fun _ => .idle⟩

inductive PatchLabel (τ : Type) where
  /-- The call up to the release of the lock, or to its end when it assigns no handle. -/
  | enter (i : τ) (ports : PatchPorts)
  /-- `*handle = audio_dev->last_patch_id` -/
  | assign (i : τ)

inductive PatchEvent (τ : Type) where
  | incremented (i : τ)
  | returned (i : τ) (handle : Option UInt32)

variable {τ : Type}

def patchStep [DecidableEq τ] (s : PatchSystem τ) : PatchLabel τ → Option (PatchSystem τ × List (PatchEvent τ))
  | .enter i ports =>
      if s.calls i = .idle then
        if ports.assigns then
          some (⟨s.lastPatchId + 1, Function.update s.calls i .incremented⟩, [.incremented i])
        else
          some (⟨s.lastPatchId, Function.update s.calls i .returned⟩, [.returned i none])
      else
        none
  | .assign i =>
      if s.calls i = .incremented then
        some (⟨s.lastPatchId, Function.update s.calls i .returned⟩, [.returned i (some s.lastPatchId)])
      else
        none

/-! ### What a run hands out -/

/-- The number of increments. -/
def increments (events : List (PatchEvent τ)) : Nat :=
  events.countP fun
    | .incremented _ => true
    | _ => false

/-- The handles in the order in which they are assigned. -/
def handles (events : List (PatchEvent τ)) : List UInt32 :=
  events.filterMap fun
    | .returned _ handle => handle
    | _ => none

/-- The number of increments before each assignment, after `n` of them. -/
def incrementsBefore : Nat → List (PatchEvent τ) → List Nat
  | _, [] => []
  | n, .incremented _ :: events => incrementsBefore (n + 1) events
  | n, .returned _ (some _) :: events => n :: incrementsBefore n events
  | n, .returned _ none :: events => incrementsBefore n events

theorem increments_cons (i : τ) (events : List (PatchEvent τ)) :
    increments (.incremented i :: events) = increments events + 1 := List.countP_cons_of_pos rfl

theorem increments_returned (i : τ) (handle : Option UInt32) (events : List (PatchEvent τ)) :
    increments (.returned i handle :: events) = increments events := List.countP_cons_of_neg Bool.false_ne_true

theorem incrementsBefore_range (n : Nat) (events : List (PatchEvent τ)) :
    ∀ k ∈ incrementsBefore n events, n ≤ k ∧ k ≤ n + increments events := by
  fun_induction incrementsBefore n events with
  | case1 => exact List.forall_mem_nil _
  | case2 n i events ih =>
      intro k hk
      have := ih k hk
      rw [increments_cons]
      omega
  | case3 n i handle events ih =>
      rw [increments_returned]
      exact List.forall_mem_cons.mpr ⟨⟨le_rfl, Nat.le_add_right n _⟩, ih⟩
  | case4 n i events ih =>
      rw [increments_returned]
      exact ih

theorem incrementsBefore_sorted (n : Nat) (events : List (PatchEvent τ)) :
    (incrementsBefore n events).Pairwise (· ≤ ·) := by
  fun_induction incrementsBefore n events with
  | case1 => exact List.Pairwise.nil
  | case2 n i events ih => exact ih
  | case3 n i handle events ih =>
      exact List.pairwise_cons.mpr ⟨fun k hk => (incrementsBefore_range n events k hk).1, ih⟩
  | case4 n i events ih => exact ih

/-- When the last handle is ahead of the number of handles, or two increments are without one, a handle is left
out for good. -/
theorem incrementsBefore_behind {w n : Nat} {events : List (PatchEvent τ)}
    (hsorted : (incrementsBefore n events).Pairwise (· < ·))
    (hahead : (∃ last, w < last ∧ last ≤ n ∧ ∀ k ∈ incrementsBefore n events, last < k) ∨ w + 2 ≤ n) :
    w + (incrementsBefore n events).length < n + increments events := by
  fun_induction incrementsBefore n events generalizing w with
  | case1 n =>
      change w < n + 0
      rcases hahead with ⟨last, hw, hn, -⟩ | htwo <;> omega
  | case2 n i events ih =>
      rw [increments_cons]
      have hnext := ih hsorted (hahead.imp
        (fun ⟨last, hw, hn, hlast⟩ => ⟨last, hw, Nat.le_succ_of_le hn, hlast⟩) Nat.le_succ_of_le)
      omega
  | case3 n i handle events ih =>
      obtain ⟨hfirst, hrest⟩ := List.pairwise_cons.mp hsorted
      have hgap : w + 1 < n := by
        rcases hahead with ⟨last, hw, hn, hlast⟩ | htwo
        · have := hlast n List.mem_cons_self
          omega
        · omega
      have hnext := ih (w := w + 1) hrest (Or.inl ⟨n, hgap, le_rfl, hfirst⟩)
      rw [increments_returned, List.length_cons]
      omega
  | case4 n i events ih =>
      rw [increments_returned]
      exact ih hsorted hahead

/-! ### Runs -/

/-- No other call has incremented and not read yet when a call increments. -/
def Undisturbed (s : PatchSystem τ) : PatchLabel τ → Prop
  | .enter _ ports => ports.assigns = true → ∀ j, s.calls j ≠ .incremented
  | .assign _ => True

/-- The calls that have incremented and not read yet. -/
structure Pending (s : PatchSystem τ) (pending : List τ) : Prop where
  nodup : pending.Nodup
  mem : ∀ i, i ∈ pending ↔ s.calls i = .incremented

theorem pending_init (lastPatchId : UInt32) : Pending (.init lastPatchId : PatchSystem τ) [] :=
  ⟨List.nodup_nil, fun i => iff_of_false (List.not_mem_nil) (by simp [PatchSystem.init])⟩

theorem Pending.congr {s t : PatchSystem τ} {pending : List τ} (h : Pending s pending)
    (hsame : ∀ i, t.calls i = .incremented ↔ s.calls i = .incremented) : Pending t pending :=
  ⟨h.nodup, fun i => (h.mem i).trans (hsame i).symm⟩

variable [DecidableEq τ]

/-- The steps, each with its condition and its result. -/
inductive PatchStepped (s : PatchSystem τ) : PatchLabel τ → PatchSystem τ → List (PatchEvent τ) → Prop where
  | increments (i : τ) (ports : PatchPorts) : s.calls i = .idle → ports.assigns = true →
      PatchStepped s (.enter i ports) ⟨s.lastPatchId + 1, Function.update s.calls i .incremented⟩ [.incremented i]
  | ignores (i : τ) (ports : PatchPorts) : s.calls i = .idle → ports.assigns = false →
      PatchStepped s (.enter i ports) ⟨s.lastPatchId, Function.update s.calls i .returned⟩ [.returned i none]
  | assigns (i : τ) : s.calls i = .incremented →
      PatchStepped s (.assign i) ⟨s.lastPatchId, Function.update s.calls i .returned⟩
        [.returned i (some s.lastPatchId)]

theorem patchStepped {s t : PatchSystem τ} {l : PatchLabel τ} {es : List (PatchEvent τ)}
    (h : patchStep s l = some (t, es)) : PatchStepped s l t es := by
  cases l with
  | enter i ports =>
      obtain ⟨hidle, heq⟩ := Option.ite_none_right_eq_some.mp h
      cases hports : ports.assigns with
      | true =>
          rw [if_pos hports] at heq
          cases heq
          exact .increments i ports hidle hports
      | false =>
          rw [hports, if_neg Bool.false_ne_true] at heq
          cases heq
          exact .ignores i ports hidle hports
  | assign i =>
      obtain ⟨hpc, heq⟩ := Option.ite_none_right_eq_some.mp h
      cases heq
      exact .assigns i hpc

theorem Pending.increments {s : PatchSystem τ} {pending : List τ} (h : Pending s pending) {i : τ}
    (hidle : s.calls i = .idle) (lastPatchId : UInt32) :
    Pending ⟨lastPatchId, Function.update s.calls i .incremented⟩ (i :: pending) := by
  have hnew : i ∉ pending := fun hmem => by
    rw [h.mem, hidle] at hmem
    cases hmem
  refine ⟨List.nodup_cons.mpr ⟨hnew, h.nodup⟩, fun j => ?_⟩
  rw [List.mem_cons, h.mem]
  by_cases hj : j = i
  · subst hj
    simp
  · simp [hj]

theorem Pending.assigns {s : PatchSystem τ} {pending : List τ} (h : Pending s pending) (i : τ) (lastPatchId : UInt32) :
    Pending ⟨lastPatchId, Function.update s.calls i .returned⟩ (pending.erase i) := by
  refine ⟨h.nodup.erase i, fun j => ?_⟩
  rw [h.nodup.mem_erase_iff, h.mem]
  by_cases hj : j = i
  · subst hj
    simp
  · simp [hj]

theorem Pending.update_returned {s : PatchSystem τ} {i : τ} (hidle : s.calls i = .idle) (j : τ) :
    Function.update s.calls i .returned j = .incremented ↔ s.calls j = .incremented := by
  by_cases hj : j = i
  · subst hj
    simp [hidle]
  · simp [hj]

/-- The handles of a run are the values of `last_patch_id` at the assignments. -/
theorem handles_eq {s u : PatchSystem τ} {labels : List (PatchLabel τ)} {events : List (PatchEvent τ)}
    (hrun : exec patchStep s labels = some (u, events)) {first : UInt32} {n : Nat}
    (hlast : s.lastPatchId = first + UInt32.ofNat n) :
    handles events = (incrementsBefore n events).map fun k => first + UInt32.ofNat k := by
  induction labels generalizing s n events with
  | nil =>
      cases hrun
      rfl
  | cons l labels ih =>
      obtain ⟨t, es, fs, hstep, hrest, rfl⟩ := exec_cons_eq_some.mp hrun
      cases patchStepped hstep with
      | increments i ports hidle hports =>
          refine ih hrest ?_
          rw [hlast, UInt32.ofNat_add, UInt32.add_assoc]
          rfl
      | ignores i ports hidle hports => exact ih hrest hlast
      | assigns i hpc =>
          change s.lastPatchId :: handles fs = (n :: incrementsBefore n fs).map _
          rw [ih hrest hlast, hlast, List.map_cons]

/-- Every increment is assigned, or pending at the end. -/
theorem increments_eq {s u : PatchSystem τ} {labels : List (PatchLabel τ)} {events : List (PatchEvent τ)}
    (hrun : exec patchStep s labels = some (u, events)) {pending : List τ} (h : Pending s pending) (n : Nat) :
    ∃ left, Pending u left ∧
      pending.length + increments events = (incrementsBefore n events).length + left.length := by
  induction labels generalizing s n pending events with
  | nil =>
      cases hrun
      exact ⟨pending, h, Nat.add_comm _ _⟩
  | cons l labels ih =>
      obtain ⟨t, es, fs, hstep, hrest, rfl⟩ := exec_cons_eq_some.mp hrun
      cases patchStepped hstep with
      | increments i ports hidle hports =>
          obtain ⟨left, hleft, hcount⟩ := ih hrest (h.increments hidle _) (n + 1)
          refine ⟨left, hleft, ?_⟩
          change pending.length + increments (.incremented i :: fs) = (incrementsBefore (n + 1) fs).length + left.length
          rw [increments_cons]
          rw [List.length_cons] at hcount
          omega
      | ignores i ports hidle hports =>
          obtain ⟨left, hleft, hcount⟩ := ih hrest (h.congr (Pending.update_returned hidle)) n
          refine ⟨left, hleft, ?_⟩
          change pending.length + increments (.returned i none :: fs) = _
          rw [increments_returned]
          exact hcount
      | assigns i hpc =>
          obtain ⟨left, hleft, hcount⟩ := ih hrest (h.assigns i _) n
          refine ⟨left, hleft, ?_⟩
          change pending.length + increments (.returned i (some s.lastPatchId) :: fs) =
            (n :: incrementsBefore n fs).length + left.length
          have hmem : i ∈ pending := (h.mem i).mpr hpc
          rw [List.length_erase_of_mem hmem] at hcount
          have := List.length_pos_of_mem hmem
          rw [increments_returned, List.length_cons]
          omega

/-- Undisturbed calls are assigned one value after the other. -/
theorem sorted_of_guarded {s u : PatchSystem τ} {labels : List (PatchLabel τ)} {events : List (PatchEvent τ)}
    (hrun : exec patchStep s labels = some (u, events)) (hguard : Guarded patchStep Undisturbed s labels) (n : Nat)
    (hone : ∀ i j, s.calls i = .incremented → s.calls j = .incremented → i = j) :
    (incrementsBefore n events).Pairwise (· < ·) ∧
      ((∀ i, s.calls i ≠ .incremented) → ∀ k ∈ incrementsBefore n events, n < k) := by
  induction labels generalizing s n events with
  | nil =>
      cases hrun
      exact ⟨List.Pairwise.nil, fun _ => List.forall_mem_nil _⟩
  | cons l labels ih =>
      obtain ⟨t, es, fs, hstep, hrest, rfl⟩ := exec_cons_eq_some.mp hrun
      have hnext := hguard.2 t es hstep
      cases patchStepped hstep with
      | increments i ports hidle hports =>
          have hnone := hguard.1 hports
          have honly : ∀ j, Function.update s.calls i .incremented j = .incremented → j = i := by
            intro j hj
            by_contra hne
            rw [Function.update_of_ne hne] at hj
            exact hnone j hj
          obtain ⟨hsorted, -⟩ := ih hrest hnext (n + 1) fun j k hj hk => (honly j hj).trans (honly k hk).symm
          exact ⟨hsorted, fun _ k hk => (incrementsBefore_range (n + 1) fs k hk).1⟩
      | ignores i ports hidle hports =>
          have hsame := Pending.update_returned hidle
          obtain ⟨hsorted, hlater⟩ := ih hrest hnext n fun j k hj hk =>
            hone j k ((hsame j).mp hj) ((hsame k).mp hk)
          exact ⟨hsorted, fun hnone => hlater fun j hj => hnone j ((hsame j).mp hj)⟩
      | assigns i hpc =>
          have hnone : ∀ j, Function.update s.calls i .returned j ≠ .incremented := by
            intro j hj
            by_cases hne : j = i
            · subst hne
              rw [Function.update_self] at hj
              cases hj
            · rw [Function.update_of_ne hne] at hj
              exact hne (hone j i hj hpc)
          obtain ⟨hsorted, hlater⟩ := ih hrest hnext n fun j _ hj _ => absurd hj (hnone j)
          exact ⟨List.pairwise_cons.mpr ⟨hlater hnone, hsorted⟩, fun hidle => absurd hpc (hidle i)⟩

/-- When all calls return with values one after the other, none of them was disturbed. -/
theorem guarded_of_sorted {s u : PatchSystem τ} {labels : List (PatchLabel τ)} {events : List (PatchEvent τ)}
    (hrun : exec patchStep s labels = some (u, events)) {pending : List τ} (h : Pending s pending) {w n : Nat}
    (hn : n = w + pending.length)
    (hdone : ∀ i, u.calls i ≠ .incremented) (hsorted : (incrementsBefore n events).Pairwise (· < ·)) :
    Guarded patchStep Undisturbed s labels := by
  induction labels generalizing s w n pending events with
  | nil => trivial
  | cons l labels ih =>
      obtain ⟨t, es, fs, hstep, hrest, rfl⟩ := exec_cons_eq_some.mp hrun
      cases patchStepped hstep with
      | increments i ports hidle hports =>
          have hpending := h.increments hidle (s.lastPatchId + 1)
          have hcons : n + 1 = w + (i :: pending).length := by rw [List.length_cons, hn, Nat.add_assoc]
          refine guarded_cons hstep (fun _ j hj => ?_) (ih hrest hpending hcons hsorted)
          -- one of the two handles would be left out, but every call has returned
          obtain ⟨left, hleft, hcount⟩ := increments_eq hrest hpending (n + 1)
          have hnone : left = [] := List.eq_nil_iff_forall_not_mem.mpr fun k hk => hdone k ((hleft.mem k).mp hk)
          have hpos := List.length_pos_of_mem ((h.mem j).mpr hj)
          have hbehind : w + (incrementsBefore (n + 1) fs).length < n + 1 + increments fs :=
            incrementsBefore_behind hsorted (Or.inr (by omega))
          rw [hnone, List.length_nil, List.length_cons] at hcount
          omega
      | ignores i ports hidle hports =>
          exact guarded_cons hstep (fun hassigns => absurd (hports.symm.trans hassigns) Bool.false_ne_true)
            (ih hrest (h.congr (Pending.update_returned hidle)) hn hsorted)
      | assigns i hpc =>
          obtain ⟨hfirst, hlater⟩ := List.pairwise_cons.mp (hsorted : (n :: incrementsBefore n fs).Pairwise (· < ·))
          have hmem : i ∈ pending := (h.mem i).mpr hpc
          have hpos := List.length_pos_of_mem hmem
          have herase : n = w + 1 + (pending.erase i).length := by
            rw [List.length_erase_of_mem hmem]
            omega
          exact guarded_cons hstep trivial (ih hrest (h.assigns i _) herase hlater)

/-- Fewer than `2 ^ 32` increments give different handles exactly when they give different counts. -/
theorem handles_nodup_iff {s u : PatchSystem τ} {labels : List (PatchLabel τ)} {events : List (PatchEvent τ)}
    (hrun : exec patchStep s labels = some (u, events)) (hfew : increments events < 2 ^ 32) :
    (handles events).Nodup ↔ (incrementsBefore 0 events).Pairwise (· < ·) := by
  have hinjective : ∀ j ∈ incrementsBefore 0 events, ∀ k ∈ incrementsBefore 0 events,
      s.lastPatchId + UInt32.ofNat j = s.lastPatchId + UInt32.ofNat k → j = k := by
    intro j hj k hk heq
    have hj := (incrementsBefore_range 0 events j hj).2
    have hk := (incrementsBefore_range 0 events k hk).2
    have hsame := congrArg UInt32.toNat ((UInt32.add_right_inj _).mp heq)
    rwa [UInt32.toNat_ofNat_of_lt' (by rw [UInt32.size]; omega), UInt32.toNat_ofNat_of_lt' (by rw [UInt32.size]; omega)]
      at hsame
  rw [handles_eq hrun (n := 0) (UInt32.add_zero _).symm]
  constructor
  · intro hnodup
    exact (incrementsBefore_sorted 0 events).imp₂ (fun _ _ hle hne => lt_of_le_of_ne hle hne) hnodup.of_map
  · intro hsorted
    exact List.Nodup.map_on hinjective (hsorted.imp fun hlt => hlt.ne)

/-- No two calls get the same handle when none of them is disturbed between its increment and its read; and once
all calls have returned, only then. -/
theorem handles_unique {lastPatchId : UInt32} {u : PatchSystem τ} {labels : List (PatchLabel τ)}
    {events : List (PatchEvent τ)} (hrun : exec patchStep (.init lastPatchId) labels = some (u, events))
    (hfew : increments events < 2 ^ 32) :
    (Guarded patchStep Undisturbed (.init lastPatchId) labels → (handles events).Nodup) ∧
      ((∀ i, u.calls i ≠ .incremented) →
        ((handles events).Nodup ↔ Guarded patchStep Undisturbed (.init lastPatchId) labels)) := by
  have hfirst : Guarded patchStep Undisturbed (.init lastPatchId) labels → (handles events).Nodup := by
    intro hguard
    refine (handles_nodup_iff hrun hfew).mpr (sorted_of_guarded hrun hguard 0 ?_).1
    intro i j hi
    cases hi
  refine ⟨hfirst, fun hdone => ⟨fun hnodup => ?_, hfirst⟩⟩
  exact guarded_of_sorted (w := 0) hrun (pending_init lastPatchId) rfl hdone ((handles_nodup_iff hrun hfew).mp hnodup)

/-- One device to another. -/
def deviceToDevice : PatchPorts := ⟨[.device], [.device]⟩

/-- Two calls, one after the other. -/
def separateCalls : List (PatchLabel Bool) :=
  [.enter false deviceToDevice, .assign false, .enter true deviceToDevice, .assign true]

theorem handles_unique_separate :
    ∃ u events, exec patchStep (.init 0) separateCalls = some (u, events) ∧ (handles events).length = 2 ∧
      (handles events).Nodup := by
  obtain ⟨u, events, hrun, hfew, hlength⟩ : ∃ u events, exec patchStep (.init 0) separateCalls = some (u, events) ∧
      increments events < 2 ^ 32 ∧ (handles events).length = 2 := ⟨_, _, rfl, by decide, rfl⟩
  refine ⟨u, events, hrun, hlength, (handles_unique hrun hfew).1 ?_⟩
  refine guarded_cons rfl ?_ (guarded_cons rfl trivial (guarded_cons rfl ?_ (guarded_cons rfl trivial trivial)))
  · intro _ j
    cases j <;> decide
  · intro _ j
    cases j <;> decide

/-- The second call increments before the first one reads. -/
def overlappingCalls : List (PatchLabel Bool) :=
  [.enter false deviceToDevice, .enter true deviceToDevice, .assign false, .assign true]

theorem handles_repeated :
    ∃ u events, exec patchStep (.init 0) overlappingCalls = some (u, events) ∧ increments events < 2 ^ 32 ∧
      handles events = [2, 2] ∧ ¬ (handles events).Nodup :=
  ⟨_, _, rfl, by decide, rfl, by decide⟩

end Trout.Audio
