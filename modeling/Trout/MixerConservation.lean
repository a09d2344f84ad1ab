import Trout.MixerMix

/-! What the mixer keeps over whole runs. Every pipeline stays within its buffer, at a frame boundary
and zero beyond its content; for each address, what the turns consumed followed by what the pipeline
holds is what was written, in order; and each turn hands on the saturating sum of what it consumed. -/

namespace Trout.Mixer
open CInt Pcm16 RingWindow Saturation Runs

/-! ### One pipeline and one write -/

structure ExtMixerPipeline.Sound (p : ExtMixerPipeline) : Prop where
  position_le : p.position ≤ mixerBufferSize
  even : Even p.position
  padded : ∀ i, p.position ≤ i → p.buffer i = 0

theorem ExtMixerPipeline.zero_sound : ExtMixerPipeline.zero.Sound :=
  ⟨Nat.zero_le _, ⟨0, rfl⟩, fun _ _ => rfl⟩

/-- The samples of a call that have been copied. -/
def PipelineWrite.written (w : PipelineWrite) : List Int16 := slice (samplesOf w.data) 0 (w.byteWritten / 2)

/-- A call with whole stereo frames that has stopped between frames. -/
structure PipelineWrite.Sound (w : PipelineWrite) : Prop where
  count_lt : w.count < 2 ^ 32
  frames : 4 ∣ w.count
  written_frames : 4 ∣ w.byteWritten
  written_le : w.byteWritten ≤ w.count

theorem byteCount_bounded {p : ExtMixerPipeline} {w : PipelineWrite} (hpos : p.position ≤ mixerBufferSize)
    (hlt : w.count < 2 ^ 32) (hle : w.byteWritten ≤ w.count) :
    w.byteCount p = min (w.count - w.byteWritten) ((mixerBufferSize - p.position) * 2) := by
  have hrest : toUint ((w.count : Int) - w.byteWritten) = w.count - w.byteWritten := by
    simp only [toUint, uintMod]
    omega
  have hspace : toUint ((mixerBufferSize : Int) - p.position) = mixerBufferSize - p.position := by
    simp only [toUint, uintMod, mixerBufferSize] at *
    omega
  have hfree : (mixerBufferSize - p.position) * 2 < 2 ^ 64 := by
    simp only [mixerBufferSize]
    omega
  rw [PipelineWrite.byteCount, hrest, hspace, sizeMul_of_lt hfree]
  simp only [toUint, uintMod]
  omega

theorem byteCount_eq {p : ExtMixerPipeline} {w : PipelineWrite} (hp : p.Sound) (hw : w.Sound) :
    w.byteCount p = min (w.count - w.byteWritten) ((mixerBufferSize - p.position) * 2) :=
  byteCount_bounded hp.position_le hw.count_lt hw.written_le

theorem byteCount_frames {p : ExtMixerPipeline} {w : PipelineWrite} (hp : p.Sound) (hw : w.Sound) :
    4 ∣ w.byteCount p := by
  have heven := hp.even
  obtain ⟨a, ha⟩ := hw.frames
  obtain ⟨b, hb⟩ := hw.written_frames
  rw [byteCount_eq hp hw, mixerBufferSize]
  obtain ⟨c, hc⟩ := heven
  omega

/-- The chunk goes to the end of the pipeline and leaves the padding zero. -/
theorem fill_eq {p : ExtMixerPipeline} {w : PipelineWrite} (hp : p.Sound) (hw : w.Sound) :
    w.fill p =
      ⟨copy p.buffer p.position (samplesOf w.data) (w.byteWritten / 2) (w.byteCount p / 2),
        p.position + w.byteCount p / 2⟩ := by
  have hframes := byteCount_frames hp hw
  have hcount := byteCount_eq hp hw
  have hpos := hp.position_le
  have hwritten := hw.written_frames
  by_cases hnone : w.byteCount p / 2 > 0
  · have hbytes : copy (bytesOf p.buffer) (2 * p.position) w.data w.byteWritten (w.byteCount p) =
        copy (bytesOf p.buffer) (2 * p.position) w.data (2 * (w.byteWritten / 2)) (2 * (w.byteCount p / 2)) := by
      rw [Nat.mul_div_cancel' (by omega), Nat.mul_div_cancel' (by omega)]
    have hfits : (p.position + w.byteCount p / 2) % uintMod = p.position + w.byteCount p / 2 := by
      simp only [mixerBufferSize, uintMod] at *
      omega
    simp only [PipelineWrite.fill, if_pos hnone]
    rw [hbytes, samplesOf_copy, samplesOf_bytesOf, hfits]
  · have hzero : w.byteCount p / 2 = 0 := by omega
    have hcopy : copy p.buffer p.position (samplesOf w.data) (w.byteWritten / 2) 0 = p.buffer := by
      funext i
      exact copy_of_not_mem (by omega)
    simp only [PipelineWrite.fill, if_neg hnone]
    rw [hzero, hcopy, Nat.add_zero]

theorem advance_byteWritten {p : ExtMixerPipeline} {w : PipelineWrite} (hp : p.Sound) (hw : w.Sound) :
    (w.advance p).byteWritten = w.byteWritten + w.byteCount p := by
  have hcount := byteCount_eq hp hw
  have hle := hw.written_le
  have hlt := hw.count_lt
  simp only [PipelineWrite.advance, uintMod]
  omega

theorem advance_sound {p : ExtMixerPipeline} {w : PipelineWrite} (hp : p.Sound) (hw : w.Sound) :
    (w.advance p).Sound := by
  have hcount := byteCount_eq hp hw
  have hle := hw.written_le
  refine ⟨hw.count_lt, hw.frames, ?_, ?_⟩
  · rw [advance_byteWritten hp hw]
    exact Nat.dvd_add hw.written_frames (byteCount_frames hp hw)
  · rw [advance_byteWritten hp hw]
    change _ ≤ w.count
    omega

theorem fill_sound {p : ExtMixerPipeline} {w : PipelineWrite} (hp : p.Sound) (hw : w.Sound) :
    (w.fill p).Sound := by
  have hframes := byteCount_frames hp hw
  have hcount := byteCount_eq hp hw
  have hpos := hp.position_le
  have heven := hp.even
  rw [fill_eq hp hw]
  refine ⟨?_, ?_, fun i hi => ?_⟩
  · change p.position + _ ≤ _
    simp only [mixerBufferSize] at *
    omega
  · refine heven.add ?_
    obtain ⟨k, hk⟩ := hframes
    exact ⟨k, by omega⟩
  · have hi : p.position + w.byteCount p / 2 ≤ i := hi
    change copy _ _ _ _ _ i = 0
    rw [copy_of_not_mem (by omega)]
    exact hp.padded i (by omega)

/-- One chunk moves the next samples of the call to the end of the pipeline. -/
theorem chunk_moves {p : ExtMixerPipeline} {w : PipelineWrite} (hp : p.Sound) (hw : w.Sound) :
    ∃ moved, (w.fill p).content = p.content ++ moved ∧ (w.advance p).written = w.written ++ moved := by
  have hframes := byteCount_frames hp hw
  have hwritten := hw.written_frames
  refine ⟨slice (samplesOf w.data) (w.byteWritten / 2) (w.byteCount p / 2), ?_, ?_⟩
  · rw [fill_eq hp hw]
    simp only [ExtMixerPipeline.content]
    rw [slice_add, slice_copy_outside (by omega), Nat.zero_add, slice_copy_block]
  · rw [PipelineWrite.written, advance_byteWritten hp hw,
      show (w.byteWritten + w.byteCount p) / 2 = w.byteWritten / 2 + w.byteCount p / 2 by omega, slice_add, Nat.zero_add]
    rfl

/-! ### The system -/

section System

variable {κ : Type} [DecidableEq κ]

/-- What an address's pipeline holds; an address without a pipeline holds nothing. -/
def MixerSystem.content (s : MixerSystem κ) (bus : κ) : List Int16 :=
  ((s.extPcm.mixerPipelineMap.lookup bus).getD .zero).content

/-- The copied samples of the call that is still waiting. -/
def MixerSystem.pending (s : MixerSystem κ) (bus : κ) : List Int16 :=
  ((s.writers bus).map PipelineWrite.written).getD []

/-- What the turns have consumed from an address's pipeline. -/
def consumedFrom (bus : κ) (events : List (MixerEvent κ)) : List Int16 :=
  events.flatMap fun
    | .mixed consumed _ => (consumed.filter fun c => c.1 = bus).flatMap Prod.snd
    | .returned _ _ _ => []

/-- The samples of the calls that have returned on an address. -/
def returnedTo (bus : κ) (events : List (MixerEvent κ)) : List Int16 :=
  events.flatMap fun
    | .mixed _ _ => []
    | .returned b data count => if b = bus then slice (samplesOf data) 0 (count / 2) else []

/-- The samples written to an address so far, in order. -/
def writtenTo (bus : κ) (events : List (MixerEvent κ)) (s : MixerSystem κ) : List Int16 :=
  returnedTo bus events ++ s.pending bus

/-- The largest number of samples consumed from one pipeline. -/
def mixedLength (consumed : List (κ × List Int16)) : Nat := (consumed.map fun c => c.2.length).foldl max 0

/-- The left fold of saturating addition over the samples `i`, zero beyond a pipeline's content. -/
def mixedSample (consumed : List (κ × List Int16)) (i : Nat) : Int :=
  satSum sampleMin sampleMax (consumed.map fun c => (c.2.getD i 0).toInt)

/-- The block a turn hands to `pcm_write`; nothing is handed on when nothing was consumed. -/
def IsMixOf (block : Option (List Int16)) (consumed : List (κ × List Int16)) : Prop :=
  match block with
  | none => mixedLength consumed = 0
  | some samples =>
      0 < mixedLength consumed ∧
        samples.map Int16.toInt = (List.range (mixedLength consumed)).map (mixedSample consumed)

/-- A call with whole stereo frames. -/
def MixerLabel.Stereo : MixerLabel κ → Prop
  | .write _ _ count => 4 ∣ count.toNat
  | _ => True

/-- The invariant of the mixer, relative to the events so far. -/
structure Conserves (events : List (MixerEvent κ)) (s : MixerSystem κ) : Prop where
  cleared : s.extPcm.mixerPipeline = .zero
  sound : ∀ bus p, s.extPcm.mixerPipelineMap.lookup bus = some p → p.Sound
  writer : ∀ bus w, s.writers bus = some w → w.Sound
  conserved : ∀ bus, consumedFrom bus events ++ s.content bus = writtenTo bus events s
  mixes : ∀ consumed block, MixerEvent.mixed consumed block ∈ events → IsMixOf block consumed

theorem consumedFrom_append (bus : κ) (h es : List (MixerEvent κ)) :
    consumedFrom bus (h ++ es) = consumedFrom bus h ++ consumedFrom bus es := List.flatMap_append

theorem returnedTo_append (bus : κ) (h es : List (MixerEvent κ)) :
    returnedTo bus (h ++ es) = returnedTo bus h ++ returnedTo bus es := List.flatMap_append

theorem Conserves.init : Conserves [] (MixerSystem.init : MixerSystem κ) where
  cleared := rfl
  sound := by
    intro bus p hp
    cases hp
  writer := by
    intro bus w hw
    cases hw
  conserved := fun _ => rfl
  mixes := fun _ _ hmem => absurd hmem List.not_mem_nil

theorem Conserves.lookup_sound {events : List (MixerEvent κ)} {s : MixerSystem κ} (h : Conserves events s)
    (bus : κ) : ((s.extPcm.mixerPipelineMap.lookup bus).getD .zero).Sound := by
  cases hlookup : s.extPcm.mixerPipelineMap.lookup bus with
  | none => exact ExtMixerPipeline.zero_sound
  | some p => exact h.sound bus p hlookup

theorem after_content {s : MixerSystem κ} {bus : κ} {p : ExtMixerPipeline} {w : PipelineWrite} (b : κ) :
    (s.after bus w (pipelineChunk s.extPcm bus p w)).1.content b =
      if b = bus then (w.fill p).content else s.content b := by
  simp only [MixerSystem.after, pipelineChunk, MixerSystem.content]
  by_cases hb : b = bus
  · rw [if_pos hb, hb, Finmap.lookup_insert, Option.getD_some]
  · rw [if_neg hb, Finmap.lookup_insert_of_ne _ hb]

/-- After a chunk the address's written samples are those of the call so far, whether it waits or returns. -/
theorem after_written {s : MixerSystem κ} {bus : κ} {p : ExtMixerPipeline} {w : PipelineWrite}
    (hle : (w.advance p).byteWritten ≤ w.count) (b : κ) :
    writtenTo b (s.after bus w (pipelineChunk s.extPcm bus p w)).2
        (s.after bus w (pipelineChunk s.extPcm bus p w)).1 =
      if b = bus then (w.advance p).written else s.pending b := by
  by_cases hmore : (w.advance p).byteWritten < w.count
  · have hnext : pipelineChunk s.extPcm bus p w =
        ({ s.extPcm with mixerPipelineMap := s.extPcm.mixerPipelineMap.insert bus (w.fill p) },
          some (w.advance p)) := by
      rw [pipelineChunk]
      exact congrArg _ (if_pos hmore)
    simp only [hnext, MixerSystem.after, writtenTo, MixerSystem.pending, Option.isNone_some, returnedTo]
    by_cases hb : b = bus
    · rw [if_pos hb, hb, Function.update_self]
      rfl
    · rw [if_neg hb, Function.update_of_ne hb]
      rfl
  · have hnext : pipelineChunk s.extPcm bus p w =
        ({ s.extPcm with mixerPipelineMap := s.extPcm.mixerPipelineMap.insert bus (w.fill p) }, none) := by
      rw [pipelineChunk]
      exact congrArg _ (if_neg hmore)
    have hdone : w.count = (w.advance p).byteWritten := le_antisymm (Nat.not_lt.mp hmore) hle
    simp only [hnext, MixerSystem.after, writtenTo, MixerSystem.pending, Option.isNone_none, if_true, returnedTo,
      List.flatMap_cons, List.flatMap_nil, List.append_nil]
    by_cases hb : b = bus
    · rw [if_pos hb, hb, Function.update_self, if_pos rfl, hdone]
      exact List.append_nil _
    · rw [if_neg hb, Function.update_of_ne hb, if_neg (Ne.symm hb), List.nil_append]

/-- A chunk consumes nothing. -/
theorem after_consumed {s : MixerSystem κ} {bus : κ} {w : PipelineWrite} {chunk : ExtPcm κ × Option PipelineWrite}
    (b : κ) : consumedFrom b (s.after bus w chunk).2 = [] := by
  rw [MixerSystem.after]
  cases chunk.2 <;> rfl

/-- A chunk of the call `w` keeps the invariant, when `w` accounts for the address's pending samples. -/
theorem Conserves.chunk {events : List (MixerEvent κ)} {s : MixerSystem κ} (h : Conserves events s) {bus : κ}
    {p : ExtMixerPipeline} {w : PipelineWrite} (hp : p = (s.extPcm.mixerPipelineMap.lookup bus).getD .zero)
    (hw : w.Sound) (hpending : s.pending bus = w.written) :
    Conserves (events ++ (s.after bus w (pipelineChunk s.extPcm bus p w)).2)
      (s.after bus w (pipelineChunk s.extPcm bus p w)).1 := by
  have hsound : p.Sound := by
    rw [hp]
    exact h.lookup_sound bus
  have hnext := advance_sound hsound hw
  obtain ⟨moved, hcontent, hwritten⟩ := chunk_moves hsound hw
  refine ⟨h.cleared, ?_, ?_, ?_, ?_⟩
  · intro b q hq
    simp only [MixerSystem.after, pipelineChunk] at hq
    rcases eq_or_ne b bus with rfl | hb
    · rw [Finmap.lookup_insert] at hq
      cases hq
      exact fill_sound hsound hw
    · rw [Finmap.lookup_insert_of_ne _ hb] at hq
      exact h.sound b q hq
  · intro b v hv
    by_cases hb : b = bus
    · simp only [MixerSystem.after, pipelineChunk, hb, Function.update_self] at hv
      split at hv
      · cases hv
        exact hnext
      · cases hv
    · simp only [MixerSystem.after, Function.update_of_ne hb] at hv
      exact h.writer b v hv
  · intro b
    have hold := h.conserved b
    have hafter := @after_written κ _ s bus p w hnext.written_le b
    rw [writtenTo] at hold hafter
    rw [consumedFrom_append, after_consumed, List.append_nil, after_content, writtenTo, returnedTo_append,
      List.append_assoc, hafter]
    by_cases hb : b = bus
    · have hpipe : s.content bus = p.content := by rw [MixerSystem.content, hp]
      rw [hb, hpipe, hpending] at hold
      rw [if_pos hb, if_pos hb, hb, hcontent, hwritten, ← List.append_assoc, ← List.append_assoc, hold]
    · rw [if_neg hb, if_neg hb, hold]
  · intro consumed block hmem
    rcases List.mem_append.mp hmem with hbefore | hnow
    · exact h.mixes consumed block hbefore
    · rw [MixerSystem.after] at hnow
      split at hnow
      · simp at hnow
      · exact absurd hnow List.not_mem_nil

theorem content_length (p : ExtMixerPipeline) : p.content.length = p.position := slice_length _ _ _

/-- Beyond its content a sound pipeline reads zero, as its buffer does. -/
theorem content_getD {p : ExtMixerPipeline} (hp : p.Sound) (i : Nat) : p.content.getD i 0 = p.buffer i := by
  by_cases hi : i < p.position
  · have hlen : i < p.content.length := by rwa [content_length]
    rw [List.getD_eq_getElem _ _ hlen]
    simp only [ExtMixerPipeline.content, slice, List.getElem_map, List.getElem_range, Nat.zero_add]
  · have hlen : p.content.length ≤ i := by
      rw [content_length]
      exact Nat.not_lt.mp hi
    rw [List.getD_eq_default _ _ hlen, hp.padded i (Nat.not_lt.mp hi)]

theorem filter_visit {order : List κ} (hnodup : order.Nodup) (f : κ → List Int16) (b : κ) :
    ((order.map fun bus => (bus, f bus)).filter fun c => c.1 = b).flatMap Prod.snd =
      if b ∈ order then f b else [] := by
  induction order with
  | nil => rfl
  | cons k order ih =>
      obtain ⟨hnot, hrest⟩ := List.nodup_cons.mp hnodup
      rw [List.map_cons]
      by_cases hb : k = b
      · rw [List.filter_cons_of_pos (by simpa using hb), List.flatMap_cons, ih hrest, if_neg (hb ▸ hnot),
          if_pos (hb ▸ List.mem_cons_self), List.append_nil, hb]
      · rw [List.filter_cons_of_neg (by simpa using hb), ih hrest]
        simp only [List.mem_cons, Ne.symm hb, false_or]

/-- A turn that visits the addresses with a pipeline finds the content of every pipeline. -/
theorem visits_content {map : PipelineMap κ} {order : List κ} (hnodup : order.Nodup) (hkeys : order.toFinset = map.keys)
    (b : κ) : ((order.map fun bus => (bus, ((map.lookup bus).getD .zero).content)).filter fun c => c.1 = b).flatMap
      Prod.snd = ((map.lookup b).getD .zero).content := by
  rw [filter_visit hnodup]
  by_cases hb : b ∈ order
  · rw [if_pos hb]
  · rw [if_neg hb, lookup_of_not_visited hkeys hb]
    rfl

omit [DecidableEq κ] in
/-- The mix of sound pipelines is the saturating sum of their contents. -/
theorem mixAll_isMix {consumed : List (κ × List Int16)} {ps : List ExtMixerPipeline}
    (hsound : ∀ p ∈ ps, p.Sound) (hcontent : consumed.map Prod.snd = ps.map ExtMixerPipeline.content) :
    IsMixOf (if (mixAll ps .zero).position > 0 then some (mixAll ps .zero).content else none) consumed := by
  have hlength : mixedLength consumed = (mixAll ps .zero).position := by
    have hpositions : consumed.map (fun c => c.2.length) = ps.map ExtMixerPipeline.position := by
      calc consumed.map (fun c => c.2.length) = (consumed.map Prod.snd).map List.length := by rw [List.map_map]; rfl
        _ = (ps.map ExtMixerPipeline.content).map List.length := by rw [hcontent]
        _ = ps.map ExtMixerPipeline.position := by
            rw [List.map_map]
            exact List.map_congr_left fun p _ => content_length p
    rw [mixedLength, hpositions, mixAll_position]
    rfl
  have hsample : ∀ i, ((mixAll ps .zero).buffer i).toInt = mixedSample consumed i := by
    intro i
    have hzero : ∀ p ∈ ps, reaches i p = false → (p.buffer i).toInt = 0 := by
      intro p hp hshort
      have hle : p.position ≤ i := by simpa [reaches] using hshort
      rw [(hsound p hp).padded i hle]
      rfl
    rw [mixAll_sample (Nat.zero_le i) rfl, gatedSum_of_zero (by decide) (by decide) hzero, mixedSample]
    refine congrArg (satSum sampleMin sampleMax) ?_
    calc ps.map (fun p => (p.buffer i).toInt)
        = ps.map (fun p => (p.content.getD i 0).toInt) :=
          List.map_congr_left fun p hp => by rw [content_getD (hsound p hp)]
      _ = (ps.map ExtMixerPipeline.content).map (fun c => (c.getD i 0).toInt) := by rw [List.map_map]; rfl
      _ = consumed.map (fun c => (c.2.getD i 0).toInt) := by rw [← hcontent, List.map_map]; rfl
  by_cases hempty : (mixAll ps .zero).position > 0
  · rw [if_pos hempty, IsMixOf, hlength]
    refine ⟨hempty, ?_⟩
    rw [ExtMixerPipeline.content, slice, List.map_map]
    refine List.map_congr_left fun i _ => ?_
    rw [Function.comp_apply, Nat.zero_add, hsample]
  · rw [if_neg hempty, IsMixOf, hlength]
    exact Nat.eq_zero_of_not_pos hempty

/-- A turn consumes every pipeline and hands on their mix. -/
theorem Conserves.turn {events : List (MixerEvent κ)} {s : MixerSystem κ} (h : Conserves events s)
    {order : List κ} (hnodup : order.Nodup) (hkeys : order.toFinset = s.extPcm.mixerPipelineMap.keys) :
    Conserves (events ++ [.mixed (order.map fun bus => (bus, s.content bus)) (mixerTurn s.extPcm order).2])
      ⟨(mixerTurn s.extPcm order).1, s.writers⟩ := by
  have hcleared : ({ s.extPcm.mixerPipeline with position := 0 } : ExtMixerPipeline) = .zero := by rw [h.cleared]; rfl
  obtain ⟨hblock, hempty⟩ := mixerTurn_spec hnodup hkeys rfl
  rw [hcleared] at hblock
  refine ⟨rfl, ?_, h.writer, ?_, ?_⟩
  · intro bus p hp
    have hzero := hempty bus
    rw [hp, Option.getD_some] at hzero
    rw [hzero]
    exact ExtMixerPipeline.zero_sound
  · intro b
    have hold := h.conserved b
    have hafter : MixerSystem.content ⟨(mixerTurn s.extPcm order).1, s.writers⟩ b = [] := by
      rw [MixerSystem.content, hempty]
      rfl
    have hconsumed : consumedFrom b [MixerEvent.mixed (order.map fun bus => (bus, s.content bus))
        (mixerTurn s.extPcm order).2] = s.content b :=
      (List.append_nil _).trans (visits_content hnodup hkeys b)
    rw [consumedFrom_append, hconsumed, hafter, List.append_nil, hold, writtenTo, writtenTo, returnedTo_append]
    simp only [returnedTo, List.flatMap_cons, List.flatMap_nil, List.append_nil]
    rfl
  · intro consumed block hmem
    rcases List.mem_append.mp hmem with hbefore | hnow
    · exact h.mixes consumed block hbefore
    · rw [List.mem_singleton] at hnow
      cases hnow
      rw [hblock]
      apply mixAll_isMix
      · intro p hp
        obtain ⟨bus, _, rfl⟩ := List.mem_map.mp hp
        exact h.lookup_sound bus
      · rw [List.map_map, List.map_map]
        rfl

theorem mixerStep_conserves (events : List (MixerEvent κ)) (s : MixerSystem κ) (l : MixerLabel κ)
    (t : MixerSystem κ) (es : List (MixerEvent κ)) (h : Conserves events s) (hstereo : l.Stereo)
    (hstep : mixerStep s l = some (t, es)) : Conserves (events ++ es) t := by
  cases l with
  | write bus data count =>
      cases hwriter : s.writers bus with
      | some w => simp [mixerStep, hwriter] at hstep
      | none =>
          have hw : PipelineWrite.Sound ⟨data, count.toNat, 0⟩ :=
            ⟨count.toNat_lt, hstereo, Nat.dvd_zero 4, Nat.zero_le _⟩
          have hpending : s.pending bus = PipelineWrite.written ⟨data, count.toNat, 0⟩ := by
            rw [MixerSystem.pending, hwriter, PipelineWrite.written, Nat.zero_div, slice_zero]
            rfl
          have hchunk := h.chunk rfl hw hpending
          simp only [mixerStep, hwriter, Option.some_inj, mixerPipelineWrite] at hstep
          rwa [hstep] at hchunk
  | resume bus =>
      cases hwriter : s.writers bus with
      | none => simp [mixerStep, hwriter] at hstep
      | some w =>
          cases hlookup : s.extPcm.mixerPipelineMap.lookup bus with
          | none => simp [mixerStep, hwriter, hlookup] at hstep
          | some p =>
              have hpending : s.pending bus = w.written := by rw [MixerSystem.pending, hwriter]; rfl
              have hp : p = (s.extPcm.mixerPipelineMap.lookup bus).getD .zero := by rw [hlookup]; rfl
              have hchunk := h.chunk hp (h.writer bus w hwriter) hpending
              simp only [mixerStep, hwriter, hlookup, Option.some_inj] at hstep
              rwa [hstep] at hchunk
  | turn order =>
      rw [mixerStep] at hstep
      split at hstep
      · rename_i horder
        cases hstep
        exact h.turn horder.1 horder.2
      · cases hstep

/-- In every run of whole-frame writes and mixer turns, from the mixer's start, the pipelines stay sound,
each address's audio is conserved in order, and every turn hands on the mix of what it consumed. -/
theorem mixer_conserves {ls : List (MixerLabel κ)} {s : MixerSystem κ} {events : List (MixerEvent κ)}
    (hstereo : ∀ l ∈ ls, l.Stereo) (hrun : exec mixerStep MixerSystem.init ls = some (s, events)) :
    (∀ bus p, s.extPcm.mixerPipelineMap.lookup bus = some p →
        p.position ≤ mixerBufferSize ∧ Even p.position ∧ ∀ i, p.position ≤ i → p.buffer i = 0) ∧
      (∀ bus, consumedFrom bus events ++ s.content bus = writtenTo bus events s) ∧
      ∀ consumed block, MixerEvent.mixed consumed block ∈ events → IsMixOf block consumed := by
  have hinv : Conserves ([] ++ events) s :=
    exec_invariant_history Conserves mixerStep_conserves Conserves.init (guarded_of_labels hstereo _) hrun
  refine ⟨fun bus p hp => ?_, hinv.conserved, hinv.mixes⟩
  obtain ⟨hpos, heven, hpadded⟩ := hinv.sound bus p hp
  exact ⟨hpos, heven, hpadded⟩

/-- Two writers of one and two frames, and a turn that visits the second one first. -/
def twoWriters : List (MixerLabel Bool) :=
  [.write false (fun a => a.toUInt8) 4, .write true (fun a => a.toUInt8) 8, .turn [true, false]]

theorem mixer_conserves_two_writers :
    ∃ s events, exec mixerStep MixerSystem.init twoWriters = some (s, events) ∧ ∀ bus,
      consumedFrom bus events ++ s.content bus = writtenTo bus events s := by
  have hstereo : ∀ l ∈ twoWriters, l.Stereo := by
    intro l hl
    fin_cases hl <;> simp [MixerLabel.Stereo]
  exact ⟨_, _, rfl, (mixer_conserves hstereo rfl).2.1⟩

end System

end Trout.Mixer
