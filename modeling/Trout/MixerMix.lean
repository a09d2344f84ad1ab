import Trout.MixerModel
import Trout.Saturation

/-! What one turn of the mixer computes: the position of the output is the largest position, and each
output sample is a gated saturating sum of the pipelines' samples in the order of the visits. -/

namespace Trout.Mixer
open Saturation RingWindow

def sampleMin : Int := -32768

def sampleMax : Int := 32767

/-- The mixer's addition of two samples is saturating addition. -/
theorem mixSample_toInt (out inp : Int16) :
    (mixSample out inp).toInt = satAdd sampleMin sampleMax out.toInt inp.toInt := by
  simp only [mixSample, satAdd, clamp, sampleMin, sampleMax]
  by_cases hover : out.toInt + inp.toInt > 32767
  · rw [if_pos hover, min_eq_left (by omega)]
    rfl
  rw [if_neg hover, min_eq_right (by omega)]
  by_cases hunder : out.toInt + inp.toInt < -32768
  · rw [if_pos hunder, max_eq_left (by omega)]
    rfl
  · rw [if_neg hunder, max_eq_right (by omega), Int16.toInt_ofInt_of_le (by omega) (by omega)]

/-- The output pipeline after the visits of `hashmapForEach`, from the output pipeline before. -/
def mixAll (pipelines : List ExtMixerPipeline) (out : ExtMixerPipeline) : ExtMixerPipeline :=
  pipelines.foldl (fun out inp => (mixerThreadMix inp out).1) out

@[simp] theorem mixAll_nil (out : ExtMixerPipeline) : mixAll [] out = out := rfl

@[simp] theorem mixAll_cons (p : ExtMixerPipeline) (ps : List ExtMixerPipeline) (out : ExtMixerPipeline) :
    mixAll (p :: ps) out = mixAll ps (mixerThreadMix p out).1 := rfl

theorem mixAll_position (ps : List ExtMixerPipeline) (out : ExtMixerPipeline) :
    (mixAll ps out).position = (ps.map ExtMixerPipeline.position).foldl max out.position := by
  induction ps generalizing out with
  | nil => rfl
  | cons p ps ih =>
      rw [mixAll_cons, ih]
      rfl

/-- The output reaches as far as every pipeline. -/
theorem position_le_mixAll {ps : List ExtMixerPipeline} {p : ExtMixerPipeline} (hp : p ∈ ps) (out : ExtMixerPipeline) :
    p.position ≤ (mixAll ps out).position := by
  have hgrows : ∀ (qs : List ExtMixerPipeline) out', out'.position ≤ (mixAll qs out').position := by
    intro qs
    induction qs with
    | nil => exact fun out' => Nat.le_refl _
    | cons q qs ih => exact fun out' => (Nat.le_max_left _ _).trans (ih (mixerThreadMix q out').1)
  induction ps generalizing out with
  | nil => cases hp
  | cons q ps ih =>
      rcases List.mem_cons.mp hp with rfl | hmem
      · exact (Nat.le_max_right _ _).trans (hgrows ps (mixerThreadMix p out).1)
      · exact ih hmem (mixerThreadMix q out).1

theorem mix_buffer_of_lt {p out : ExtMixerPipeline} {i : Nat} (h : i < max out.position p.position) :
    (mixerThreadMix p out).1.buffer i = mixSample (out.buffer i) (p.buffer i) := if_pos h

theorem mix_buffer_of_ge {p out : ExtMixerPipeline} {i : Nat} (h : max out.position p.position ≤ i) :
    (mixerThreadMix p out).1.buffer i = out.buffer i := if_neg (Nat.not_lt.mpr h)

/-- Below the output position every visit adds its sample. -/
theorem mixAll_open {ps : List ExtMixerPipeline} {out : ExtMixerPipeline} {i : Nat} (h : i < out.position) :
    ((mixAll ps out).buffer i).toInt =
      (ps.map fun p => (p.buffer i).toInt).foldl (satAdd sampleMin sampleMax) (out.buffer i).toInt := by
  induction ps generalizing out with
  | nil => rfl
  | cons p ps ih =>
      have hlt : i < max out.position p.position := lt_max_of_lt_left h
      rw [mixAll_cons, ih hlt, mix_buffer_of_lt hlt, mixSample_toInt, List.map_cons, List.foldl_cons]

/-- The pipelines that reach sample `i`. -/
def reaches (i : Nat) (p : ExtMixerPipeline) : Bool := decide (i < p.position)

/-- From a cleared output, sample `i` is the sum from the first pipeline on that reaches it. -/
theorem mixAll_sample {ps : List ExtMixerPipeline} {out : ExtMixerPipeline} {i : Nat} (hpos : out.position ≤ i)
    (hzero : out.buffer i = 0) :
    ((mixAll ps out).buffer i).toInt =
      gatedSum sampleMin sampleMax (reaches i) (fun p => (p.buffer i).toInt) ps := by
  induction ps generalizing out with
  | nil =>
      rw [mixAll_nil, hzero]
      rfl
  | cons p ps ih =>
      rw [mixAll_cons, gatedSum_cons]
      by_cases hreach : i < p.position
      · have hlt : i < max out.position p.position := lt_max_of_lt_right hreach
        rw [if_pos (show reaches i p = true from decide_eq_true hreach), mixAll_open hlt, mix_buffer_of_lt hlt,
          mixSample_toInt, hzero]
        rfl
      · have hge : max out.position p.position ≤ i := max_le hpos (Nat.not_lt.mp hreach)
        rw [if_neg (by simpa [reaches] using hreach)]
        exact ih hge ((mix_buffer_of_ge hge).trans hzero)

section Map

variable {κ : Type} [DecidableEq κ]

/-- A visit of every entry mixes it into the output and clears it. -/
theorem forEachMix_spec {order : List κ} (hnodup : order.Nodup) {map : PipelineMap κ} {out : ExtMixerPipeline}
    (hkeys : ∀ bus ∈ order, (map.lookup bus).isSome) :
    (forEachMix order (map, out)).2 =
        mixAll (order.map fun bus => (map.lookup bus).getD .zero) out ∧
      ∀ bus, (forEachMix order (map, out)).1.lookup bus =
        if bus ∈ order then some .zero else map.lookup bus := by
  induction order generalizing map out with
  | nil =>
      refine ⟨rfl, fun bus => ?_⟩
      rw [if_neg List.not_mem_nil]
      rfl
  | cons k order ih =>
      obtain ⟨p, hp⟩ := Option.isSome_iff_exists.mp (hkeys k List.mem_cons_self)
      obtain ⟨hnot, hrest⟩ := List.nodup_cons.mp hnodup
      have hkeep : ∀ bus ∈ order, (map.insert k .zero).lookup bus = map.lookup bus := by
        intro bus hbus
        exact Finmap.lookup_insert_of_ne map fun heq => hnot (heq ▸ hbus)
      have hstep : forEachMix (k :: order) (map, out) =
          forEachMix order (map.insert k .zero, (mixerThreadMix p out).1) := by
        rw [forEachMix, hp]
        rfl
      obtain ⟨hout, hmap⟩ := @ih hrest (map.insert k .zero) (mixerThreadMix p out).1 (fun bus hbus => by
        rw [hkeep bus hbus]
        exact hkeys bus (List.mem_cons_of_mem k hbus))
      rw [hstep]
      constructor
      · rw [hout, List.map_cons, mixAll_cons, hp, Option.getD_some]
        refine congrArg (fun ps => mixAll ps _) (List.map_congr_left fun bus hbus => ?_)
        rw [hkeep bus hbus]
      · intro bus
        rw [hmap bus]
        by_cases hmem : bus ∈ order
        · rw [if_pos hmem, if_pos (List.mem_cons_of_mem k hmem)]
        rw [if_neg hmem]
        by_cases heq : bus = k
        · rw [heq, if_pos List.mem_cons_self]
          exact Finmap.lookup_insert map
        · rw [if_neg (by simp [heq, hmem])]
          exact Finmap.lookup_insert_of_ne map heq

/-- A turn visits the addresses that have a pipeline. -/
theorem visits_iff {map : PipelineMap κ} {order : List κ} (hkeys : order.toFinset = map.keys) (bus : κ) :
    bus ∈ order ↔ (map.lookup bus).isSome := by
  rw [← List.mem_toFinset, hkeys, Finmap.mem_keys, Finmap.lookup_isSome]

theorem lookup_of_not_visited {map : PipelineMap κ} {order : List κ} (hkeys : order.toFinset = map.keys) {bus : κ}
    (hbus : bus ∉ order) : map.lookup bus = none := by simpa [visits_iff hkeys] using hbus

/-- A turn hands on the mix of all pipelines and leaves every pipeline empty. -/
theorem mixerTurn_spec {e : ExtPcm κ} {order : List κ} (hnodup : order.Nodup)
    (hkeys : order.toFinset = e.mixerPipelineMap.keys) {mixed : ExtMixerPipeline}
    (hmixed : mixed = mixAll (order.map fun bus => (e.mixerPipelineMap.lookup bus).getD .zero)
      { e.mixerPipeline with position := 0 }) :
    (mixerTurn e order).2 = (if mixed.position > 0 then some mixed.content else none) ∧
      ∀ bus, ((mixerTurn e order).1.mixerPipelineMap.lookup bus).getD .zero = .zero := by
  obtain ⟨hout, hmap⟩ := @forEachMix_spec κ _ order hnodup e.mixerPipelineMap
    { e.mixerPipeline with position := 0 } (fun bus hbus => (visits_iff hkeys bus).mp hbus)
  rw [hmixed, ← hout]
  refine ⟨rfl, fun bus => ?_⟩
  have hlookup := hmap bus
  rw [mixerTurn]
  by_cases hbus : bus ∈ order
  · rw [if_pos hbus] at hlookup
    rw [hlookup, Option.getD_some]
  · rw [if_neg hbus, lookup_of_not_visited hkeys hbus] at hlookup
    rw [hlookup, Option.getD_none]

end Map

end Trout.Mixer
