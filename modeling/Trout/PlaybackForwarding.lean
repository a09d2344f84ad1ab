import Trout.MixerConservation
import Trout.PlaybackModel

/-! The mixer with the pipeline of one stream: what its turns hand on is what they consume, unchanged,
and a section of the worker's call only moves samples from what is still to come to what is written. -/

namespace Trout.Playback
open CInt Pcm16 RingWindow Saturation Audio Mixer

theorem sample_in_range (x : Int16) : clamp sampleMin sampleMax x.toInt = x.toInt :=
  clamp_of_mem x.le_toInt (Int.lt_add_one_iff.mp x.toInt_lt)

/-- The mix of a single pipeline is what it held. -/
theorem single_mix {block : Option (List Int16)} {consumed : List (Unit × List Int16)} (h : IsMixOf block consumed)
    (hsingle : consumed.length ≤ 1) : block.getD [] = consumed.flatMap Prod.snd := by
  cases consumed with
  | nil =>
      cases block with
      | none => rfl
      | some samples => exact absurd h.1 (Nat.lt_irrefl 0)
  | cons c rest =>
      have hrest : rest = [] := by
        rw [List.length_cons] at hsingle
        exact List.eq_nil_of_length_eq_zero (by omega)
      subst hrest
      have hlength : mixedLength [c] = c.2.length := Nat.zero_max _
      have hsample : ∀ i, mixedSample [c] i = (c.2.getD i 0).toInt := by
        intro i
        calc mixedSample [c] i = clamp sampleMin sampleMax (0 + (c.2.getD i 0).toInt) := rfl
          _ = (c.2.getD i 0).toInt := by rw [Int.zero_add, sample_in_range]
      rw [List.flatMap_cons, List.flatMap_nil, List.append_nil]
      cases block with
      | none =>
          rw [IsMixOf, hlength] at h
          exact (List.eq_nil_of_length_eq_zero h).symm
      | some samples =>
          obtain ⟨-, hmap⟩ := h
          have hsame : samples.map Int16.toInt = c.2.map Int16.toInt := by
            rw [hmap, hlength]
            apply List.ext_getElem
            · simp
            · intro i hi hi'
              have hlt : i < c.2.length := by simpa using hi'
              rw [List.getElem_map, List.getElem_range, hsample, List.getElem_map, List.getD_eq_getElem _ _ hlt]
          exact List.map_injective_iff.mpr (fun x y hxy => Int16.toInt_inj.mp hxy) hsame

theorem handed_eq_consumed {events : List (MixerEvent Unit)}
    (hmix : ∀ consumed block, MixerEvent.mixed consumed block ∈ events → IsMixOf block consumed)
    (hsingle : ∀ consumed block, MixerEvent.mixed consumed block ∈ events → consumed.length ≤ 1) :
    handedSamples events = consumedFrom () events := by
  induction events with
  | nil => rfl
  | cons e events ih =>
      have hrest := ih (fun c b hmem => hmix c b (List.mem_cons_of_mem e hmem))
        (fun c b hmem => hsingle c b (List.mem_cons_of_mem e hmem))
      cases e with
      | returned bus data count => exact hrest
      | mixed consumed block =>
          have hblock := single_mix (hmix consumed block List.mem_cons_self) (hsingle consumed block List.mem_cons_self)
          have hfilter : (consumed.filter fun c => c.1 = ()) = consumed := List.filter_eq_self.mpr fun c _ => rfl
          calc handedSamples (.mixed consumed block :: events)
              = block.getD [] ++ handedSamples events := rfl
            _ = consumed.flatMap Prod.snd ++ consumedFrom () events := by rw [hblock, hrest]
            _ = (consumed.filter fun c => c.1 = ()).flatMap Prod.snd ++ consumedFrom () events := by rw [hfilter]
            _ = consumedFrom () (.mixed consumed block :: events) := rfl

/-- The samples of the waiting call that are still to come. -/
def restOfCall (m : MixerSystem Unit) : List Int16 :=
  match m.writers () with
  | some call => slice (samplesOf call.data) (call.byteWritten / 2) (call.count / 2 - call.byteWritten / 2)
  | none => []

/-- A chunk keeps what is written together with what is still to come. -/
theorem chunk_accounted {s : MixerSystem Unit} {p : ExtMixerPipeline} {w : PipelineWrite}
    (hnext : (w.advance p).Sound) :
    writtenTo () (s.after () w (pipelineChunk s.extPcm () p w)).2 (s.after () w (pipelineChunk s.extPcm () p w)).1 ++
      restOfCall (s.after () w (pipelineChunk s.extPcm () p w)).1 = slice (samplesOf w.data) 0 (w.count / 2) := by
  have hle := hnext.written_le
  have hle : (w.advance p).byteWritten ≤ w.count := hle
  rw [after_written hle, if_pos rfl, PipelineWrite.written]
  by_cases hmore : (w.advance p).byteWritten < w.count
  · have hwriters : (s.after () w (pipelineChunk s.extPcm () p w)).1.writers () = some (w.advance p) := by
      simp only [MixerSystem.after, Function.update_self, pipelineChunk]
      exact if_pos hmore
    have hsplit : w.count / 2 = (w.advance p).byteWritten / 2 + (w.count / 2 - (w.advance p).byteWritten / 2) := by omega
    rw [restOfCall, hwriters]
    conv_rhs => rw [hsplit, slice_add, Nat.zero_add]
    rfl
  · have hwriters : (s.after () w (pipelineChunk s.extPcm () p w)).1.writers () = none := by
      simp only [MixerSystem.after, Function.update_self, pipelineChunk]
      exact if_neg hmore
    have hdone : (w.advance p).byteWritten = w.count := le_antisymm hle (Nat.not_lt.mp hmore)
    rw [restOfCall, hwriters, hdone, List.append_nil]
    rfl

/-- A section of the worker's call of `mixer_pipeline_write` moves samples from what is still to come to
what is written. -/
theorem forward_accounted {events es : List (MixerEvent Unit)} {m m' : MixerSystem Unit} (h : Conserves events m)
    {l : MixerLabel Unit} (hstereo : l.Stereo) (hstep : mixerStep m l = some (m', es)) :
    match l with
    | .write _ data count => m.writers () = none ∧
        writtenTo () (events ++ es) m' ++ restOfCall m' =
          writtenTo () events m ++ slice (samplesOf data) 0 (count.toNat / 2)
    | .resume _ => writtenTo () (events ++ es) m' ++ restOfCall m' = writtenTo () events m ++ restOfCall m
    | .turn _ => writtenTo () (events ++ es) m' = writtenTo () events m ∧ m'.writers = m.writers := by
  have hsplit : ∀ a : List Int16, writtenTo () (events ++ es) m' ++ a =
      returnedTo () events ++ (writtenTo () es m' ++ a) := by
    intro a
    rw [writtenTo, writtenTo, returnedTo_append, List.append_assoc, List.append_assoc, List.append_assoc]
  cases l with
  | write bus data count =>
      cases hwriter : m.writers () with
      | some w => simp [mixerStep, hwriter] at hstep
      | none =>
          have hw : PipelineWrite.Sound ⟨data, count.toNat, 0⟩ :=
            ⟨count.toNat_lt, hstereo, Nat.dvd_zero 4, Nat.zero_le _⟩
          have hchunk := chunk_accounted (s := m) (advance_sound (h.lookup_sound ()) hw)
          simp only [mixerStep, hwriter, Option.some_inj, mixerPipelineWrite] at hstep
          rw [hstep] at hchunk
          refine ⟨rfl, ?_⟩
          rw [hsplit, hchunk, writtenTo, MixerSystem.pending, hwriter]
          exact (List.append_assoc _ [] _).symm
  | resume bus =>
      cases hwriter : m.writers () with
      | none => simp [mixerStep, hwriter] at hstep
      | some w =>
          cases hlookup : m.extPcm.mixerPipelineMap.lookup () with
          | none => simp [mixerStep, hwriter, hlookup] at hstep
          | some p =>
              have hw := h.writer () w hwriter
              have hle := hw.written_le
              have hchunk := chunk_accounted (s := m) (advance_sound (h.sound () p hlookup) hw)
              simp only [mixerStep, hwriter, hlookup, Option.some_inj] at hstep
              rw [hstep] at hchunk
              have hwhole : slice (samplesOf w.data) 0 (w.count / 2) = w.written ++
                  slice (samplesOf w.data) (w.byteWritten / 2) (w.count / 2 - w.byteWritten / 2) := by
                conv_lhs => rw [show w.count / 2 = w.byteWritten / 2 + (w.count / 2 - w.byteWritten / 2) by omega,
                  slice_add, Nat.zero_add]
                rfl
              dsimp only
              rw [hsplit, hchunk, hwhole, writtenTo, MixerSystem.pending, hwriter, restOfCall, hwriter]
              exact (List.append_assoc _ _ _).symm
  | turn order =>
      rw [mixerStep] at hstep
      split at hstep
      · cases hstep
        refine ⟨?_, rfl⟩
        rw [writtenTo, writtenTo, returnedTo_append]
        exact congrArg (· ++ m.pending ()) (List.append_nil _)
      · cases hstep

end Trout.Playback
