import Trout.MixerMix

/-! The order of the visits. The position of the mixed output never depends on it. Its samples do not
exactly when, at every index, the pipelines that reach the index add up without an order-dependent
clip and the stale samples of the shorter pipelines change nothing. -/

namespace Trout.Mixer
open Saturation

/-- No order of the visits changes output sample `i`: no pipeline reaches it, or the samples of those
that do never clip or have one sign, and every other pipeline's sample leaves their sum unchanged. -/
def SampleOrderFree (pipelines : List ExtMixerPipeline) (i : Nat) : Prop :=
  let sample := fun p : ExtMixerPipeline => (p.buffer i).toInt
  let reaching := (pipelines.filter (reaches i)).map sample
  (∀ p ∈ pipelines, p.position ≤ i) ∨
    OrderFree sampleMin sampleMax reaching ∧ ∀ p ∈ pipelines, p.position ≤ i →
      satAdd sampleMin sampleMax (clamp sampleMin sampleMax reaching.sum) (sample p) =
        clamp sampleMin sampleMax reaching.sum

theorem mixAll_zero_sample (ps : List ExtMixerPipeline) (i : Nat) :
    ((mixAll ps .zero).buffer i).toInt =
      gatedSum sampleMin sampleMax (reaches i) (fun p => (p.buffer i).toInt) ps :=
  mixAll_sample (Nat.zero_le i) rfl

/-- The position of the mixed output is the same in every order. -/
theorem mixAll_position_perm {ps qs : List ExtMixerPipeline} (h : ps.Perm qs) (out : ExtMixerPipeline) :
    (mixAll ps out).position = (mixAll qs out).position := by
  rw [mixAll_position, mixAll_position]
  exact (h.map ExtMixerPipeline.position).foldl_eq _

theorem reaches_eq_false {i : Nat} {p : ExtMixerPipeline} : reaches i p = false ↔ p.position ≤ i := by
  rw [reaches, decide_eq_false_iff_not, Nat.not_lt]

theorem sample_perm_iff (pipelines : List ExtMixerPipeline) (i : Nat) :
    (∀ order, order.Perm pipelines →
        (mixAll order .zero).buffer i = (mixAll pipelines .zero).buffer i) ↔ SampleOrderFree pipelines i := by
  have hsum := gatedSum_perm_iff (reaches i) (fun p : ExtMixerPipeline => (p.buffer i).toInt)
    (show sampleMin ≤ 0 by decide) (show 0 ≤ sampleMax by decide) (by decide) pipelines
  simp only [reaches_eq_false] at hsum
  rw [SampleOrderFree, ← hsum]
  simp only [← mixAll_zero_sample, Int16.toInt_inj]

/-- The order of the visits never shows in the output position, and it shows in no output sample
exactly when every sample is order-free. -/
theorem mixAll_order_iff (pipelines : List ExtMixerPipeline) :
    (∀ first second, first.Perm pipelines → second.Perm pipelines →
        (mixAll first .zero).position = (mixAll second .zero).position) ∧
      ((∀ first second, first.Perm pipelines → second.Perm pipelines →
          mixAll first .zero = mixAll second .zero) ↔ ∀ i, SampleOrderFree pipelines i) := by
  constructor
  · intro first second hfirst hsecond
    exact mixAll_position_perm (hfirst.trans hsecond.symm) .zero
  constructor
  · intro hall i
    apply (sample_perm_iff pipelines i).mp
    intro order hperm
    rw [hall order pipelines hperm (List.Perm.refl _)]
  · intro hfree first second hfirst hsecond
    ext i
    · rw [(sample_perm_iff pipelines i).mpr (hfree i) first hfirst,
        (sample_perm_iff pipelines i).mpr (hfree i) second hsecond]
    · exact mixAll_position_perm (hfirst.trans hsecond.symm) .zero

/-- A pipeline with a single sample. -/
def single (x : Int16) : ExtMixerPipeline := ⟨fun i => if i = 0 then x else 0, 1⟩

/-- 32767, 1 and -1 mix to 32766 or to 32767. -/
theorem mixAll_order_dependent :
    ¬ ∀ pipelines first second : List ExtMixerPipeline, first.Perm pipelines → second.Perm pipelines →
      mixAll first .zero = mixAll second .zero := by
  intro hall
  have hsame := hall [single 32767, single 1, single (-1)] [single 32767, single 1, single (-1)]
    [single 32767, single (-1), single 1] (List.Perm.refl _) ((List.Perm.swap _ _ _).cons _)
  have hsample := congrArg (fun p => p.buffer 0) hsame
  revert hsample
  decide

end Trout.Mixer
