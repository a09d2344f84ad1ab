import Trout.SharedPcmCounting

/-! The playback handles that are open at a time. `ext_pcm_close` takes the object out of `shared_ext_pcm`,
releases the lock for the join and closes the handle afterwards; an open in between creates a new object. -/

namespace Trout.SharedPcm
open Runs

/-- The object that the thread is tearing down. -/
def CallPc.target : CallPc → Option Address
  | .joins p => some p
  | .destroys p => some p
  | _ => none

theorem CallPc.target_of_tearsDown {t : Thread} {p : Address} (h : t.tearsDown p = true) : t.pc.target = some p := by
  rw [Thread.tearsDown, Bool.or_eq_true, beq_iff_eq, beq_iff_eq] at h
  rcases h with h | h
  · rw [h]
    rfl
  · rw [h]
    rfl

variable {κ τ : Type}

/-- The objects on which `pcm_open` has been called and `pcm_close` has not. -/
def PcmSystem.openHandles (s : PcmSystem κ τ) : Finset Address :=
  (Finset.range s.allocated).filter fun p => (s.object p).opened

/-- The threads between the two sections of their last close. -/
def PcmSystem.closing [Fintype τ] (s : PcmSystem κ τ) : Finset τ :=
  Finset.univ.filter fun i => (s.threads i).pc.target.isSome

/-- The handle is closed where the object is freed. -/
def ClosedWhenFreed (s : PcmSystem κ τ) : Prop := ∀ p, (s.object p).opened = !(s.object p).freed

section Step
variable [DecidableEq τ] {strEq : κ → κ → Bool} {s s' : PcmSystem κ τ} {l : PcmLabel κ τ} {es : List (PcmEvent τ)}

omit [DecidableEq τ] in
theorem ClosedWhenFreed.update (h : ClosedWhenFreed s) {p : Address} {e : ExtPcm κ}
    (ho : s'.object = Function.update s.object p e) (he : e.opened = !e.freed) : ClosedWhenFreed s' := by
  intro q
  rw [ho, Function.update_apply]
  split
  · exact he
  · exact h q

theorem ClosedWhenFreed.step (h : ClosedWhenFreed s) (hstep : Stepped strEq s l s' es) : ClosedWhenFreed s' := by
  cases hstep with
  | shares i p _ _ _ => exact h
  | creates i _ _ _ => exact h.update rfl rfl
  | createsMap i p _ _ => exact h.update rfl (h p)
  | setsRun i p _ _ => exact h.update rfl (h p)
  | counts i p _ _ => exact h.update rfl (h p)
  | returns i counted _ => exact h
  | closesLast i p _ _ _ _ => exact h.update rfl (h p)
  | closesMore i p _ _ _ _ => exact h.update rfl (h p)
  | joins i p _ _ => exact h
  | destroys i p _ _ => exact h.update rfl rfl
  | writes i p key keys _ _ _ => exact h.update rfl (h p)
  | mixes p _ _ => exact h.update rfl (h p)
  | tests p _ _ _ => exact h.update rfl (h p)

end Step

section Handles
variable [Fintype τ] {s : PcmSystem κ τ}

/-- An open handle is the shared one, or one thread is about to close it. -/
theorem handle_shared_or_closing (hc : Counted s) (hfreed : ClosedWhenFreed s) {p : Address} (hp : p ∈ s.openHandles) :
    s.sharedExtPcm = some p ∨ s.closers p = 1 := by
  obtain ⟨hlt, hopened⟩ := Finset.mem_filter.mp hp
  by_cases hshared : s.sharedExtPcm = some p
  · exact Or.inl hshared
  · have hsum := hc.retired p (Finset.mem_range.mp hlt) hshared
    have hkept : (s.object p).freed = false := by
      rw [hfreed p, Bool.not_eq_true'] at hopened
      exact hopened
    rw [hkept] at hsum
    exact Or.inr hsum

theorem exists_closing {p : Address} (h : s.closers p = 1) : ∃ i ∈ s.closing, (s.threads i).pc.target = some p := by
  obtain ⟨i, _, hi⟩ := Finset.exists_ne_zero_of_sum_ne_zero (h.trans_ne Nat.one_ne_zero)
  have hdown : (s.threads i).tearsDown p = true := by
    by_contra hnot
    rw [Bool.not_eq_true] at hnot
    exact hi (congrArg Bool.toNat hnot)
  have htarget := CallPc.target_of_tearsDown hdown
  refine ⟨i, Finset.mem_filter.mpr ⟨Finset.mem_univ i, ?_⟩, htarget⟩
  rw [htarget]
  rfl

theorem card_openHandles_le [DecidableEq τ] (hc : Counted s) (hfreed : ClosedWhenFreed s) :
    s.openHandles.card ≤ s.closing.card + 1 := by
  have hsubset : s.openHandles.image some ⊆ insert s.sharedExtPcm (s.closing.image fun i => (s.threads i).pc.target) := by
    intro q hq
    obtain ⟨p, hp, rfl⟩ := Finset.mem_image.mp hq
    rcases handle_shared_or_closing hc hfreed hp with hshared | hclosers
    · exact Finset.mem_insert.mpr (Or.inl hshared.symm)
    · obtain ⟨i, hi, htarget⟩ := exists_closing hclosers
      exact Finset.mem_insert_of_mem (Finset.mem_image.mpr ⟨i, hi, htarget⟩)
  calc s.openHandles.card = (s.openHandles.image some).card :=
        (Finset.card_image_of_injective _ (Option.some_injective _)).symm
    _ ≤ _ := Finset.card_le_card hsubset
    _ ≤ (s.closing.image fun i => (s.threads i).pc.target).card + 1 := Finset.card_insert_le _ _
    _ ≤ s.closing.card + 1 := Nat.add_le_add_right Finset.card_image_le 1

end Handles

/-- Every open handle is the shared one or is about to be closed by exactly one thread, which stands between the
sections of its last close. -/
theorem handles_bounded [Fintype τ] [DecidableEq τ] {strEq : κ → κ → Bool} {ls : List (PcmLabel κ τ)}
    {s : PcmSystem κ τ} {es : List (PcmEvent τ)} (hrun : exec (pcmStep strEq) PcmSystem.init ls = some (s, es))
    (hfew : Guarded (pcmStep strEq) FewReferences PcmSystem.init ls) :
    (∀ p ∈ s.openHandles, s.sharedExtPcm = some p ∨ s.closers p = 1) ∧ s.openHandles.card ≤ s.closing.card + 1 := by
  have hkeep : ∀ (s : PcmSystem κ τ) l t es, Counted s ∧ ClosedWhenFreed s → FewReferences s l →
      pcmStep strEq s l = some (t, es) → Counted t ∧ ClosedWhenFreed t := by
    intro s l t es ⟨hc, hfreed⟩ hguard hstep
    exact ⟨hc.step hguard (stepped hstep), hfreed.step (stepped hstep)⟩
  obtain ⟨hc, hfreed⟩ := exec_invariant (fun s => Counted s ∧ ClosedWhenFreed s) hkeep
    ⟨Counted.init, fun _ => rfl⟩ hfew hrun
  exact ⟨fun p hp => handle_shared_or_closing hc hfreed hp, card_openHandles_le hc hfreed⟩

/-- One thread is between the sections of its last close when another one opens. -/
def overlap : List (PcmLabel Unit Bool) :=
  [.beginOpen false, .proceed false, .proceed false, .proceed false, .endOpen false, .close false 0, .beginOpen true]

theorem handles_bounded_overlap :
    ∃ s es, exec (pcmStep fun _ _ => true) PcmSystem.init overlap = some (s, es) ∧
      s.openHandles.card ≤ s.closing.card + 1 := by
  obtain ⟨⟨s, es⟩, hrun⟩ : ∃ result, exec (pcmStep fun _ _ => true) PcmSystem.init overlap = some result :=
    Option.isSome_iff_exists.mp (by decide +kernel)
  exact ⟨s, es, hrun, (handles_bounded hrun (by decide +kernel)).2⟩

theorem two_handles_open :
    ¬ ∀ (ls : List (PcmLabel Unit Bool)) (s : PcmSystem Unit Bool) (es : List (PcmEvent Bool)),
      exec (pcmStep fun _ _ => true) PcmSystem.init ls = some (s, es) → s.openHandles.card ≤ 1 := by
  intro h
  have htwo : ((exec (pcmStep fun _ _ => true) PcmSystem.init overlap).map fun r => r.1.openHandles.card) = some 2 := by
    decide +kernel
  obtain ⟨⟨s, es⟩, hrun, hcard⟩ := Option.map_eq_some_iff.mp htwo
  have hone := h overlap s es hrun
  dsimp only at hcard
  omega

end Trout.SharedPcm
