import Trout.MixerConservation
import Trout.SharedPcmCounting

/-! The last close of a shared PCM. Its mixer thread mixes first and tests `run_mixer` afterwards, so what is written
between its last turn and that test is never mixed. The system has the objects of the shared PCM with their
threads, and for each object the pipelines that its mixer thread drains. -/

namespace Trout.SharedPcm
open CInt Pcm16 RingWindow Runs

variable {κ τ : Type}

/-! ### The system -/

/-- An `ext_pcm_write` that waits for the mixer thread. -/
structure WaitingWrite (κ : Type) where
  pcm : Address
  bus : κ
  write : Mixer.PipelineWrite

structure DrainSystem (κ τ : Type) where
  pcm : PcmSystem κ τ
  mixer : Address → Mixer.ExtPcm κ
  waiting : τ → Option (WaitingWrite κ)

def DrainSystem.init : DrainSystem κ τ := ⟨.init, fun _ => .init, fun _ => none⟩

inductive DrainLabel (κ τ : Type) where
  | pcm (l : PcmLabel κ τ)
  /-- `ext_pcm_write` up to its first wait or its return. -/
  | write (i : τ) (p : Address) (bus : κ) (data : Nat → UInt8) (count : UInt32)
  | resume (i : τ)
  /-- The mixer thread of an object under `mixer_lock`, with the order of its visits. -/
  | turn (p : Address) (order : List κ)

inductive DrainEvent (κ τ : Type) where
  | pcm (e : PcmEvent τ)
  /-- A thread has put the samples in a pipeline, and whether its call has returned 0. -/
  | stored (i : τ) (p : Address) (bus : κ) (samples : List Int16) (returned : Bool)
  /-- What a turn consumed, in the order of the visits, and the block it handed to `pcm_write`. -/
  | mixed (p : Address) (consumed : List (κ × List Int16)) (block : Option (List Int16))

/-- A thread that waits in `ext_pcm_write` begins no other call. The writes and the turns have labels of their own. -/
def DrainSystem.allows (s : DrainSystem κ τ) : PcmLabel κ τ → Bool
  | .beginOpen i => (s.waiting i).isNone
  | .close i _ => (s.waiting i).isNone
  | .write _ _ _ => false
  | .mix _ => false
  | _ => true

section Step
variable [DecidableEq κ] [DecidableEq τ]

def DrainSystem.pipeline (s : DrainSystem κ τ) (p : Address) (bus : κ) : Mixer.ExtMixerPipeline :=
  ((s.mixer p).mixerPipelineMap.lookup bus).getD .zero

/-- What an object's pipeline holds. -/
def DrainSystem.content (s : DrainSystem κ τ) (p : Address) (bus : κ) : List Int16 := (s.pipeline p bus).content

/-- The samples of the next chunk of a call. -/
def chunkSamples (w : Mixer.PipelineWrite) (pipeline : Mixer.ExtMixerPipeline) : List Int16 :=
  slice (samplesOf w.data) (w.byteWritten / 2) (w.byteCount pipeline / 2)

/-- One iteration of the loop of `mixer_pipeline_write`. -/
def DrainSystem.chunk (s : DrainSystem κ τ) (i : τ) (p : Address) (bus : κ) (w : Mixer.PipelineWrite) :
    DrainSystem κ τ × List (DrainEvent κ τ) :=
  let r := Mixer.pipelineChunk (s.mixer p) bus (s.pipeline p bus) w
  ({ s with
      mixer := Function.update s.mixer p r.1
      waiting := Function.update s.waiting i (r.2.map fun next => ⟨p, bus, next⟩) },
    [.stored i p bus (chunkSamples w (s.pipeline p bus)) r.2.isNone])

/-- One turn of the mixer thread of an object. -/
def DrainSystem.turn (s : DrainSystem κ τ) (p : Address) (order : List κ) : DrainSystem κ τ × List (DrainEvent κ τ) :=
  let r := Mixer.mixerTurn (s.mixer p) order
  ({ s with mixer := Function.update s.mixer p r.1 },
    [.mixed p (order.map fun bus => (bus, s.content p bus)) r.2])

/-- The keys of the map are compared as `str_eq` does. -/
def keyEq (a b : κ) : Bool := decide (a = b)

def drainStep (s : DrainSystem κ τ) : DrainLabel κ τ → Option (DrainSystem κ τ × List (DrainEvent κ τ))
  | .pcm l =>
      if s.allows l then (pcmStep keyEq s.pcm l).map fun r => ({ s with pcm := r.1 }, r.2.map .pcm) else none
  | .write i p bus data count =>
      if (s.waiting i).isNone then
        (pcmStep keyEq s.pcm (.write i p bus)).map fun r =>
          { s with pcm := r.1 }.chunk i p bus ⟨data, count.toNat, 0⟩
      else
        none
  | .resume i => (s.waiting i).map fun c => s.chunk i c.pcm c.bus c.write
  | .turn p order =>
      if order.Nodup ∧ order.toFinset = (s.mixer p).mixerPipelineMap.keys then
        (pcmStep keyEq s.pcm (.mix p)).map fun r => { s with pcm := r.1 }.turn p order
      else
        none

end Step

/-! ### Drained closes -/

section Events
variable [DecidableEq κ]

/-- The samples put in a pipeline. -/
def storedTo (p : Address) (bus : κ) (events : List (DrainEvent κ τ)) : List Int16 :=
  events.flatMap fun
    | .stored _ q b samples _ => if q = p ∧ b = bus then samples else []
    | _ => []

/-- The samples of a pipeline that have been part of a block handed to `pcm_write`. -/
def handedFrom (p : Address) (bus : κ) (events : List (DrainEvent κ τ)) : List Int16 :=
  events.flatMap fun
    | .mixed q consumed (some _) => if q = p then (consumed.filter fun c => c.1 = bus).flatMap Prod.snd else []
    | _ => []

/-- The call that stored has returned 0, at once or later. -/
def CallReturned (i : τ) (returned : Bool) (later : List (DrainEvent κ τ)) : Prop :=
  returned = true ∨ ∃ p bus samples, .stored i p bus samples true ∈ later

/-- What calls that returned before a last close have stored has been handed on. -/
def DrainedBy (p : Address) (events : List (DrainEvent κ τ)) : Prop :=
  ∀ i before after, events = before ++ .pcm (.closed i p true) :: after →
    ∀ j bus samples returned first later, before = first ++ .stored j p bus samples returned :: later →
      CallReturned j returned later → storedTo p bus first ++ samples <+: handedFrom p bus events

/-- When the `ext_pcm_close` that gave up the last reference is about to return, the object is drained. -/
def Drained (before : List (DrainEvent κ τ)) : DrainEvent κ τ → Prop
  | .pcm (.destroyed p) => DrainedBy p before
  | _ => True

end Events

/-! ### Pipelines -/

/-- A call that has stopped between samples. -/
structure Chunked (w : Mixer.PipelineWrite) : Prop where
  count_lt : w.count < 2 ^ 32
  even : Even w.byteWritten
  written_le : w.byteWritten ≤ w.count

section Pipelines
variable {pipeline : Mixer.ExtMixerPipeline} {w : Mixer.PipelineWrite}

theorem fill_position (hpos : pipeline.position ≤ Mixer.mixerBufferSize) (hw : Chunked w) :
    (w.fill pipeline).position = pipeline.position + w.byteCount pipeline / 2 := by
  have hcount := Mixer.byteCount_bounded hpos hw.count_lt hw.written_le
  rw [Mixer.PipelineWrite.fill]
  split
  · change (pipeline.position + w.byteCount pipeline / 2) % uintMod = _
    apply Nat.mod_eq_of_lt
    simp only [Mixer.mixerBufferSize, uintMod] at *
    omega
  · next hnone => omega

theorem fill_position_le (hpos : pipeline.position ≤ Mixer.mixerBufferSize) (hw : Chunked w) :
    (w.fill pipeline).position ≤ Mixer.mixerBufferSize := by
  have hcount := Mixer.byteCount_bounded hpos hw.count_lt hw.written_le
  rw [fill_position hpos hw]
  omega

/-- A chunk goes to the end of the pipeline, also where a call ends within a sample. -/
theorem fill_content (hpos : pipeline.position ≤ Mixer.mixerBufferSize) (hw : Chunked w) :
    (w.fill pipeline).content = pipeline.content ++ chunkSamples w pipeline := by
  have hposition := fill_position hpos hw
  rw [Mixer.ExtMixerPipeline.content, hposition, chunkSamples, Mixer.PipelineWrite.fill]
  by_cases hsome : w.byteCount pipeline / 2 > 0
  · obtain ⟨start, hstart⟩ := hw.even
    have heven : w.byteWritten = 2 * (w.byteWritten / 2) := by omega
    simp only [if_pos hsome]
    rw [heven, slice_samplesOf_copy, samplesOf_bytesOf, ← heven]
    rfl
  · have hzero : w.byteCount pipeline / 2 = 0 := Nat.eq_zero_of_not_pos hsome
    simp only [if_neg hsome]
    rw [hzero, slice_zero, List.append_nil, Nat.add_zero]
    rfl

/-- A call that goes on has filled the pipeline with whole samples. -/
theorem advance_chunked (hpos : pipeline.position ≤ Mixer.mixerBufferSize) (hw : Chunked w)
    (hmore : (w.advance pipeline).byteWritten < w.count) : Chunked (w.advance pipeline) := by
  have hcount := Mixer.byteCount_bounded hpos hw.count_lt hw.written_le
  have hlt := hw.count_lt
  have hle := hw.written_le
  obtain ⟨k, hk⟩ := hw.even
  have hsum : (w.advance pipeline).byteWritten = w.byteWritten + w.byteCount pipeline := by
    apply Nat.mod_eq_of_lt
    rw [uintMod]
    omega
  have hfull : w.byteCount pipeline = (Mixer.mixerBufferSize - pipeline.position) * 2 := by omega
  refine ⟨hlt, ?_, hmore.le⟩
  rw [hsum, hfull, hk]
  exact ⟨k + (Mixer.mixerBufferSize - pipeline.position), by omega⟩

end Pipelines

section Turn
variable [DecidableEq κ] {s : DrainSystem κ τ} {p : Address} {order : List κ}

/-- A turn that hands on no block has found every pipeline empty. -/
theorem turn_silent (hnodup : order.Nodup) (hkeys : order.toFinset = (s.mixer p).mixerPipelineMap.keys)
    (hsilent : (Mixer.mixerTurn (s.mixer p) order).2 = none) (bus : κ) : s.content p bus = [] := by
  by_cases hbus : bus ∈ order
  · rw [(Mixer.mixerTurn_spec hnodup hkeys rfl).1, ite_eq_right_iff] at hsilent
    have hpos := Nat.not_lt.mp fun hsome => Option.some_ne_none _ (hsilent hsome)
    have hle : (s.pipeline p bus).position ≤ 0 :=
      (Mixer.position_le_mixAll (List.mem_map_of_mem hbus) _).trans hpos
    rw [DrainSystem.content, Mixer.ExtMixerPipeline.content, Nat.le_zero.mp hle, slice_zero]
  · rw [DrainSystem.content, DrainSystem.pipeline, Mixer.lookup_of_not_visited hkeys hbus]
    rfl

/-- A turn hands on all that its object's pipelines hold. -/
theorem turn_hands (hnodup : order.Nodup) (hkeys : order.toFinset = (s.mixer p).mixerPipelineMap.keys) (bus : κ) :
    handedFrom p bus (s.turn p order).2 = s.content p bus := by
  simp only [DrainSystem.turn, handedFrom, List.flatMap_cons, List.flatMap_nil, List.append_nil]
  cases hblock : (Mixer.mixerTurn (s.mixer p) order).2 with
  | some block => exact (if_pos rfl).trans (Mixer.visits_content hnodup hkeys bus)
  | none => exact (turn_silent hnodup hkeys hblock bus).symm

end Turn

/-! ### The mixer threads -/

/-- An object's mixer thread starts with a mix, and has ended when the object is destroyed. -/
structure MixerEnds (s : PcmSystem κ τ) : Prop where
  fresh : ∀ p, s.allocated ≤ p → (s.object p).mixerThread = .mixes
  ended : ∀ i p, (s.threads i).pc = .destroys p → (s.object p).mixerThread = .ended

theorem MixerEnds.init : MixerEnds (PcmSystem.init : PcmSystem κ τ) := ⟨fun _ _ => rfl, nofun⟩

section Threads
variable [DecidableEq κ] [DecidableEq τ] {s s' : PcmSystem κ τ} {l : PcmLabel κ τ} {es : List (PcmEvent τ)}

/-- The mixer thread of an object starts with the object and goes on in its own steps only. -/
theorem mixerThread_step (hstep : Stepped keyEq s l s' es) (q : Address) :
    (s'.object q).mixerThread = (s.object q).mixerThread ∨
      s.allocated ≤ q ∧ (s'.object q).mixerThread = .mixes ∨
      q < s.allocated ∧ ((s.object q).mixerThread = .mixes ∧ l = .mix q ∨ (s.object q).mixerThread = .tests) := by
  have hsame {p : Address} {e : ExtPcm κ} (ho : s'.object = Function.update s.object p e)
      (he : e.mixerThread = (s.object p).mixerThread) : (s'.object q).mixerThread = (s.object q).mixerThread :=
    field_same ExtPcm.mixerThread ho he q
  cases hstep with
  | shares i p _ _ _ => exact Or.inl rfl
  | creates i _ _ _ =>
      by_cases hq : q = s.allocated
      · have hcreated : Function.update s.object s.allocated .create q = .create := by rw [hq, Function.update_self]
        exact Or.inr (Or.inl ⟨hq.ge, congrArg ExtPcm.mixerThread hcreated⟩)
      · exact Or.inl (congrArg ExtPcm.mixerThread (Function.update_of_ne hq _ s.object))
  | createsMap i p _ _ => exact Or.inl (hsame rfl rfl)
  | setsRun i p _ _ => exact Or.inl (hsame rfl rfl)
  | counts i p _ _ => exact Or.inl (hsame rfl rfl)
  | returns i counted _ => exact Or.inl rfl
  | closesLast i p _ _ _ _ => exact Or.inl (hsame rfl rfl)
  | closesMore i p _ _ _ _ => exact Or.inl (hsame rfl rfl)
  | joins i p _ _ => exact Or.inl rfl
  | destroys i p _ _ => exact Or.inl (hsame rfl rfl)
  | writes i p key keys _ _ _ => exact Or.inl (hsame rfl rfl)
  | mixes p hlt hmixes =>
      by_cases hq : q = p
      · subst hq
        exact Or.inr (Or.inr ⟨hlt, Or.inl ⟨hmixes, rfl⟩⟩)
      · exact Or.inl (congrArg ExtPcm.mixerThread (Function.update_of_ne hq _ s.object))
  | tests p hlt htests _ =>
      by_cases hq : q = p
      · subst hq
        exact Or.inr (Or.inr ⟨hlt, Or.inr htests⟩)
      · exact Or.inl (congrArg ExtPcm.mixerThread (Function.update_of_ne hq _ s.object))

/-- A thread comes to destroy an object when its mixer thread has ended. -/
theorem destroys_step (hstep : Stepped keyEq s l s' es) {j : τ} {q : Address} (hpc : (s'.threads j).pc = .destroys q) :
    (s.threads j).pc = .destroys q ∨ (s.object q).mixerThread = .ended := by
  have hchanged {i : τ} {t : Thread} (ht : s'.threads = Function.update s.threads i t) (hnot : t.pc ≠ .destroys q) :
      (s.threads j).pc = .destroys q := by
    rw [ht] at hpc
    by_cases hj : j = i
    · rw [hj, Function.update_self] at hpc
      exact absurd hpc hnot
    · rwa [Function.update_of_ne hj] at hpc
  cases hstep with
  | shares i p _ _ _ => exact Or.inl (hchanged rfl nofun)
  | creates i _ _ _ => exact Or.inl (hchanged rfl nofun)
  | createsMap i p _ _ => exact Or.inl (hchanged rfl nofun)
  | setsRun i p _ _ => exact Or.inl (hchanged rfl nofun)
  | counts i p _ _ => exact Or.inl (hchanged rfl nofun)
  | returns i counted _ => exact Or.inl (hchanged rfl nofun)
  | closesLast i p _ _ _ _ => exact Or.inl (hchanged rfl nofun)
  | closesMore i p _ _ _ _ => exact Or.inl (hchanged rfl nofun)
  | joins i p _ hended =>
      by_cases hq : p = q
      · exact Or.inr (hq ▸ hended)
      · exact Or.inl (hchanged rfl fun heq => hq (CallPc.destroys.inj heq))
  | destroys i p _ _ => exact Or.inl (hchanged rfl nofun)
  | writes i p key keys _ _ _ => exact Or.inl hpc
  | mixes p _ _ => exact Or.inl hpc
  | tests p _ _ _ => exact Or.inl hpc

/-- The event of a step, if any, and what it says about the step. -/
theorem event_of_step (hstep : Stepped keyEq s l s' es) : es = [] ∨ ∃ e, es = [e] ∧
    (∀ i p, e = .closed i p true → l = .close i p ∧ toInt (((s.object p).refCount - 1).toNat : Nat) ≤ 0) ∧
    ∀ p, e = .destroyed p → ∃ i, (s.threads i).pc = .destroys p := by
  have hother {e : PcmEvent τ} (hclosed : ∀ i p, e ≠ .closed i p true) (hdestroyed : ∀ p, e ≠ .destroyed p) :
      (∀ i p, e = .closed i p true → l = .close i p ∧ toInt (((s.object p).refCount - 1).toNat : Nat) ≤ 0) ∧
        ∀ p, e = .destroyed p → ∃ i, (s.threads i).pc = .destroys p :=
    ⟨fun i p heq => absurd heq (hclosed i p), fun p heq => absurd heq (hdestroyed p)⟩
  cases hstep with
  | shares i p _ _ _ => exact Or.inl rfl
  | creates i _ _ _ => exact Or.inl rfl
  | createsMap i p _ _ => exact Or.inl rfl
  | setsRun i p _ _ => exact Or.inl rfl
  | counts i p _ _ => exact Or.inl rfl
  | returns i counted _ => exact Or.inr ⟨_, rfl, hother nofun nofun⟩
  | closesLast i p _ _ _ hlast =>
      refine Or.inr ⟨_, rfl, fun j q heq => ?_, nofun⟩
      cases heq
      exact ⟨rfl, hlast⟩
  | closesMore i p _ _ _ _ => exact Or.inr ⟨_, rfl, hother nofun nofun⟩
  | joins i p _ _ => exact Or.inr ⟨_, rfl, hother nofun nofun⟩
  | destroys i p hpc _ =>
      refine Or.inr ⟨_, rfl, nofun, fun q heq => ?_⟩
      cases heq
      exact ⟨i, hpc⟩
  | writes i p key keys _ _ _ => exact Or.inl rfl
  | mixes p _ _ => exact Or.inr ⟨_, rfl, hother nofun nofun⟩
  | tests p _ _ _ => exact Or.inr ⟨_, rfl, hother nofun nofun⟩

theorem allocated_step (hstep : Stepped keyEq s l s' es) : s.allocated ≤ s'.allocated := by
  cases hstep <;> first | exact Nat.le_refl _ | exact Nat.le_succ _

theorem MixerEnds.step (h : MixerEnds s) (hstep : Stepped keyEq s l s' es) : MixerEnds s' := by
  have hgrows := allocated_step hstep
  refine ⟨fun q hq => ?_, fun j q hpc => ?_⟩
  · rcases mixerThread_step hstep q with hsame | ⟨_, hmixes⟩ | ⟨hlt, _⟩
    · exact hsame.trans (h.fresh q (hgrows.trans hq))
    · exact hmixes
    · exact absurd (hgrows.trans hq) (Nat.not_le.mpr hlt)
  · have hended : (s.object q).mixerThread = .ended := (destroys_step hstep hpc).elim (h.ended j q) id
    rcases mixerThread_step hstep q with hsame | ⟨hle, _⟩ | ⟨_, ⟨hmixes, _⟩ | htests⟩
    · exact hsame.trans hended
    · exact nomatch (h.fresh q hle).symm.trans hended
    · exact nomatch hmixes.symm.trans hended
    · exact nomatch htests.symm.trans hended

end Threads

/-! ### The samples -/

section Flow
variable [DecidableEq κ] {h es : List (DrainEvent κ τ)} {s : DrainSystem κ τ}

/-- What was put in a pipeline has been handed on, in order, or is still there. -/
structure Flow (h : List (DrainEvent κ τ)) (s : DrainSystem κ τ) : Prop where
  bounded : ∀ p bus, (s.pipeline p bus).position ≤ Mixer.mixerBufferSize
  calls : ∀ i c, s.waiting i = some c → Chunked c.write
  conserved : ∀ p bus, storedTo p bus h = handedFrom p bus h ++ s.content p bus

theorem Flow.init : Flow [] (DrainSystem.init : DrainSystem κ τ) :=
  ⟨fun _ _ => Nat.zero_le _, nofun, fun _ _ => rfl⟩

theorem storedTo_append (p : Address) (bus : κ) (h es : List (DrainEvent κ τ)) :
    storedTo p bus (h ++ es) = storedTo p bus h ++ storedTo p bus es := List.flatMap_append

theorem handedFrom_append (p : Address) (bus : κ) (h es : List (DrainEvent κ τ)) :
    handedFrom p bus (h ++ es) = handedFrom p bus h ++ handedFrom p bus es := List.flatMap_append

theorem storedTo_pcm (p : Address) (bus : κ) (es : List (PcmEvent τ)) : storedTo p bus (es.map .pcm) = [] := by
  induction es with
  | nil => rfl
  | cons e es ih => exact ih

theorem handedFrom_pcm (p : Address) (bus : κ) (es : List (PcmEvent τ)) : handedFrom p bus (es.map .pcm) = [] := by
  induction es with
  | nil => rfl
  | cons e es ih => exact ih

/-- The events of a step, and what they leave in the pipelines. -/
theorem Flow.append (hf : Flow h s) {t : DrainSystem κ τ}
    (hbounded : ∀ p bus, (t.pipeline p bus).position ≤ Mixer.mixerBufferSize)
    (hcalls : ∀ i c, t.waiting i = some c → Chunked c.write)
    (hmoved : ∀ p bus, s.content p bus ++ storedTo p bus es = handedFrom p bus es ++ t.content p bus) :
    Flow (h ++ es) t := by
  refine ⟨hbounded, hcalls, fun p bus => ?_⟩
  calc storedTo p bus (h ++ es)
      = storedTo p bus h ++ storedTo p bus es := storedTo_append p bus h es
    _ = handedFrom p bus h ++ (s.content p bus ++ storedTo p bus es) := by rw [hf.conserved, List.append_assoc]
    _ = handedFrom p bus (h ++ es) ++ t.content p bus := by
        rw [hmoved, handedFrom_append, List.append_assoc]

/-- The steps of the shared PCM move no samples. -/
theorem Flow.pcm (hf : Flow h s) (t : PcmSystem κ τ) (es : List (PcmEvent τ)) :
    Flow (h ++ es.map .pcm) { s with pcm := t } := by
  refine hf.append hf.bounded hf.calls fun p bus => ?_
  rw [storedTo_pcm, handedFrom_pcm, List.append_nil, List.nil_append]
  rfl

variable [DecidableEq τ] {i : τ} {p : Address} {bus : κ} {w : Mixer.PipelineWrite}

theorem chunk_pipeline (q : Address) (b : κ) : (s.chunk i p bus w).1.pipeline q b =
    if q = p ∧ b = bus then w.fill (s.pipeline p bus) else s.pipeline q b := by
  simp only [DrainSystem.chunk, DrainSystem.pipeline, Mixer.pipelineChunk]
  by_cases hq : q = p
  · rw [hq, Function.update_self]
    by_cases hb : b = bus
    · rw [if_pos ⟨rfl, hb⟩, hb, Finmap.lookup_insert, Option.getD_some]
    · rw [if_neg fun h => hb h.2, Finmap.lookup_insert_of_ne _ hb]
  · rw [Function.update_of_ne hq, if_neg fun h => hq h.1]

/-- A chunk stores samples of its call. -/
theorem Flow.chunk (hf : Flow h s) (hw : Chunked w) :
    Flow (h ++ (s.chunk i p bus w).2) (s.chunk i p bus w).1 := by
  have hpos := hf.bounded p bus
  refine hf.append (fun q b => ?_) (fun j c hc => ?_) fun q b => ?_
  · rw [chunk_pipeline]
    split
    · exact fill_position_le hpos hw
    · exact hf.bounded q b
  · by_cases hj : j = i
    · simp only [DrainSystem.chunk, Mixer.pipelineChunk, hj, Function.update_self] at hc
      obtain ⟨next, hnext, rfl⟩ := Option.map_eq_some_iff.mp hc
      obtain ⟨hmore, heq⟩ := Option.ite_none_right_eq_some.mp hnext
      cases heq
      exact advance_chunked hpos hw hmore
    · simp only [DrainSystem.chunk, Function.update_of_ne hj] at hc
      exact hf.calls j c hc
  · have hstored : storedTo q b (s.chunk i p bus w).2 =
        if p = q ∧ bus = b then chunkSamples w (s.pipeline p bus) else [] := List.append_nil _
    rw [hstored, DrainSystem.content, DrainSystem.content, chunk_pipeline]
    by_cases hhere : p = q ∧ bus = b
    · obtain ⟨rfl, rfl⟩ := hhere
      rw [if_pos ⟨rfl, rfl⟩, if_pos ⟨rfl, rfl⟩, fill_content hpos hw]
      rfl
    · rw [if_neg hhere, if_neg fun h => hhere ⟨h.1.symm, h.2.symm⟩, List.append_nil]
      rfl

omit [DecidableEq τ] in
/-- A turn hands on what it finds in its object's pipelines. -/
theorem Flow.turn {order : List κ} (hf : Flow h s) (hnodup : order.Nodup)
    (hkeys : order.toFinset = (s.mixer p).mixerPipelineMap.keys) :
    Flow (h ++ (s.turn p order).2) (s.turn p order).1 := by
  have hsame {q : Address} (hq : q ≠ p) (b : κ) : (s.turn p order).1.pipeline q b = s.pipeline q b := by
    simp only [DrainSystem.turn, DrainSystem.pipeline, Function.update_of_ne hq]
  have hzero (b : κ) : (s.turn p order).1.pipeline p b = .zero := by
    simp only [DrainSystem.turn, DrainSystem.pipeline, Function.update_self]
    exact (Mixer.mixerTurn_spec hnodup hkeys rfl).2 b
  refine hf.append (fun q b => ?_) hf.calls fun q b => ?_
  · by_cases hq : q = p
    · rw [hq, hzero]
      exact Nat.zero_le _
    · rw [hsame hq]
      exact hf.bounded q b
  · have hstored : storedTo q b (s.turn p order).2 = [] := rfl
    rw [hstored, List.append_nil]
    by_cases hq : q = p
    · rw [hq, turn_hands hnodup hkeys, DrainSystem.content, DrainSystem.content, hzero]
      exact (List.append_nil _).symm
    · have hnone : handedFrom q b (s.turn p order).2 = [] := by
        simp only [DrainSystem.turn, handedFrom, List.flatMap_cons, List.flatMap_nil, List.append_nil]
        cases (Mixer.mixerTurn (s.mixer p) order).2 with
        | some block => exact if_neg (Ne.symm hq)
        | none => rfl
      rw [hnone, DrainSystem.content, DrainSystem.content, hsame hq]
      rfl

end Flow

/-! ### The last close -/

section Closes
variable [DecidableEq κ]

/-- At a last close the mixer thread is about to mix, or there is nothing left to mix. -/
def AboutToMix (s : DrainSystem κ τ) : DrainLabel κ τ → Prop
  | .pcm (.close _ p) => toInt (((s.pcm.object p).refCount - 1).toNat : Nat) ≤ 0 →
      (s.pcm.object p).mixerThread = .mixes ∨ ∀ bus, s.content p bus = []
  | _ => True

/-- Since a last close the mixer thread is about to mix, or has handed on what was stored before. -/
def ClosedDrains (h : List (DrainEvent κ τ)) (s : DrainSystem κ τ) (before : List (DrainEvent κ τ)) :
    DrainEvent κ τ → Prop
  | .pcm (.closed _ p true) =>
      (s.pcm.object p).mixerThread = .mixes ∨ ∀ bus, storedTo p bus before <+: handedFrom p bus h
  | _ => True

structure Draining (h : List (DrainEvent κ τ)) (s : DrainSystem κ τ) : Prop where
  ends : MixerEnds s.pcm
  flow : Flow h s
  closes : Throughout (ClosedDrains h s) h

theorem Draining.init : Draining [] (DrainSystem.init : DrainSystem κ τ) :=
  ⟨MixerEnds.init, Flow.init, throughout_nil _⟩

variable {h es : List (DrainEvent κ τ)} {s s' : DrainSystem κ τ}

/-- The last closes so far, after more events. -/
theorem Draining.closes_later (hd : Draining h s)
    (hlater : ∀ p, (s.pcm.object p).mixerThread = .mixes → (s'.pcm.object p).mixerThread = .mixes ∨
      ∀ bus, storedTo p bus h = handedFrom p bus (h ++ es)) : Throughout (ClosedDrains (h ++ es) s') h := by
  intro before event after heq
  have hold := hd.closes before event after heq
  unfold ClosedDrains at hold ⊢
  split at hold
  · next _ p =>
      rcases hold with hmixes | hhanded
      · rcases hlater p hmixes with hmixes' | hall
        · exact Or.inl hmixes'
        · refine Or.inr fun bus => ?_
          rw [← hall bus, heq, storedTo_append]
          exact List.prefix_append _ _
      · refine Or.inr fun bus => (hhanded bus).trans ?_
        rw [handedFrom_append]
        exact List.prefix_append _ _
  · trivial

variable [DecidableEq τ] {i : τ} {p : Address} {bus : κ} {w : Mixer.PipelineWrite}

/-- The steps of the shared PCM other than the mixes, under the condition on the last close. -/
theorem Draining.pcm (hd : Draining h s) {l : PcmLabel κ τ} {t : PcmSystem κ τ} {es : List (PcmEvent τ)}
    (hstep : Stepped keyEq s.pcm l t es) (hmix : ∀ p, l ≠ .mix p) (hguard : AboutToMix s (.pcm l)) :
    Draining (h ++ es.map .pcm) { s with pcm := t } := by
  have hkeeps : ∀ q, (s.pcm.object q).mixerThread = .mixes → (t.object q).mixerThread = .mixes := by
    intro q hmixes
    rcases mixerThread_step hstep q with hsame | ⟨_, hcreated⟩ | ⟨_, ⟨_, hl⟩ | htests⟩
    · exact hsame.trans hmixes
    · exact hcreated
    · exact absurd hl (hmix q)
    · exact nomatch hmixes.symm.trans htests
  refine ⟨hd.ends.step hstep, hd.flow.pcm t es, (hd.closes_later fun q hmixes => Or.inl (hkeeps q hmixes)).append ?_⟩
  rcases event_of_step hstep with rfl | ⟨e, rfl, hclosed, -⟩
  · exact throughout_nil _
  apply throughout_singleton
  unfold ClosedDrains
  split
  · next _ i p heq =>
      obtain ⟨rfl, hlast⟩ := hclosed i p (DrainEvent.pcm.inj heq)
      rcases hguard hlast with hmixes | hempty
      · exact Or.inl (hkeeps p hmixes)
      · refine Or.inr fun bus => ?_
        rw [List.append_nil, hd.flow.conserved, hempty, List.append_nil, handedFrom_append]
        exact List.prefix_append _ _
  · trivial

theorem Draining.chunk (hd : Draining h s) (i : τ) (p : Address) (bus : κ) (hw : Chunked w) :
    Draining (h ++ (s.chunk i p bus w).2) (s.chunk i p bus w).1 :=
  ⟨hd.ends, hd.flow.chunk hw, (hd.closes_later fun _ hmixes => Or.inl hmixes).append (throughout_singleton trivial)⟩

/-- After a turn the mixer thread of its object has handed on all that was stored. -/
theorem Draining.turn {order : List κ} {t : PcmSystem κ τ} {es : List (PcmEvent τ)} (hd : Draining h s)
    (hstep : Stepped keyEq s.pcm (.mix p) t es) (hnodup : order.Nodup)
    (hkeys : order.toFinset = (s.mixer p).mixerPipelineMap.keys) :
    Draining (h ++ (({ s with pcm := t } : DrainSystem κ τ).turn p order).2)
      (({ s with pcm := t } : DrainSystem κ τ).turn p order).1 := by
  have hpcm : Flow (h ++ []) { s with pcm := t } := hd.flow.pcm t []
  rw [List.append_nil] at hpcm
  have hflow := hpcm.turn hnodup hkeys
  refine ⟨hd.ends.step hstep, hflow, (hd.closes_later fun q hmixes => ?_).append (throughout_singleton trivial)⟩
  rcases mixerThread_step hstep q with hsame | ⟨_, hcreated⟩ | ⟨_, ⟨_, hl⟩ | htests⟩
  · exact Or.inl (hsame.trans hmixes)
  · exact Or.inl hcreated
  · obtain rfl : p = q := PcmLabel.mix.inj hl
    refine Or.inr fun bus => ?_
    rw [hd.flow.conserved, handedFrom_append]
    exact congrArg _ (turn_hands (s := { s with pcm := t }) hnodup hkeys bus).symm
  · exact nomatch hmixes.symm.trans htests

omit [DecidableEq τ] in
/-- An object whose mixer thread has ended is drained. -/
theorem Draining.drainedBy (hd : Draining h s) (hended : (s.pcm.object p).mixerThread = .ended) : DrainedBy p h := by
  intro i before after hclosed j bus samples returned first later hstored _
  rcases hd.closes before _ after hclosed with hmixes | hhanded
  · exact nomatch hmixes.symm.trans hended
  · refine List.IsPrefix.trans ?_ (hhanded bus)
    rw [hstored, List.append_cons, storedTo_append, storedTo_append]
    have hself : storedTo p bus [DrainEvent.stored j p bus samples returned] = samples :=
      (List.append_nil _).trans (if_pos ⟨rfl, rfl⟩)
    rw [hself]
    exact List.prefix_append _ _

theorem Draining.pcm_drained (hd : Draining h s) {l : PcmLabel κ τ} {t : PcmSystem κ τ} {es : List (PcmEvent τ)}
    (hstep : Stepped keyEq s.pcm l t es) : Throughout (fun before => Drained (h ++ before)) (es.map .pcm) := by
  rcases event_of_step hstep with rfl | ⟨e, rfl, -, hdestroyed⟩
  · exact throughout_nil _
  apply throughout_singleton
  unfold Drained
  split
  · next _ p heq =>
      obtain ⟨i, hpc⟩ := hdestroyed p (DrainEvent.pcm.inj heq)
      rw [List.append_nil]
      exact hd.drainedBy (hd.ends.ended i p hpc)
  · trivial

theorem drainStep_draining (h : List (DrainEvent κ τ)) (s : DrainSystem κ τ) (l : DrainLabel κ τ) (s' : DrainSystem κ τ)
    (es : List (DrainEvent κ τ)) (hd : Draining h s) (hguard : AboutToMix s l) (hstep : drainStep s l = some (s', es)) :
    Draining (h ++ es) s' ∧ Throughout (fun before => Drained (h ++ before)) es := by
  cases l with
  | pcm l =>
      obtain ⟨hallows, heq⟩ := Option.ite_none_right_eq_some.mp hstep
      obtain ⟨⟨t, fs⟩, hpcm, hpair⟩ := Option.map_eq_some_iff.mp heq
      obtain ⟨rfl, rfl⟩ := Prod.mk.inj hpair
      have hmix : ∀ p, l ≠ .mix p := by
        rintro p rfl
        exact Bool.false_ne_true hallows
      exact ⟨hd.pcm (stepped hpcm) hmix hguard, hd.pcm_drained (stepped hpcm)⟩
  | write i p bus data count =>
      obtain ⟨_, heq⟩ := Option.ite_none_right_eq_some.mp hstep
      obtain ⟨⟨t, fs⟩, hpcm, hpair⟩ := Option.map_eq_some_iff.mp heq
      have hw : Chunked ⟨data, count.toNat, 0⟩ := ⟨count.toNat_lt, Even.zero, Nat.zero_le _⟩
      have hlooks : Draining (h ++ []) { s with pcm := t } := by
        obtain ⟨_, _, keys, _, _, _⟩ := stepped hpcm
        exact hd.pcm (stepped hpcm) nofun trivial
      rw [List.append_nil] at hlooks
      cases hpair
      exact ⟨hlooks.chunk i p bus hw, throughout_singleton trivial⟩
  | resume i =>
      obtain ⟨c, hc, hpair⟩ := Option.map_eq_some_iff.mp hstep
      cases hpair
      exact ⟨hd.chunk i c.pcm c.bus (hd.flow.calls i c hc), throughout_singleton trivial⟩
  | turn p order =>
      obtain ⟨⟨hnodup, hkeys⟩, heq⟩ := Option.ite_none_right_eq_some.mp hstep
      obtain ⟨⟨t, fs⟩, hpcm, hpair⟩ := Option.map_eq_some_iff.mp heq
      cases hpair
      exact ⟨hd.turn (stepped hpcm) hnodup hkeys, throughout_singleton trivial⟩

/-- When the mixer thread is about to mix at every last close, or finds nothing to mix, all that was written before has
been mixed when the close returns. -/
theorem closes_drained {ls : List (DrainLabel κ τ)} {s : DrainSystem κ τ} {es : List (DrainEvent κ τ)}
    (hrun : exec drainStep DrainSystem.init ls = some (s, es))
    (hguard : Guarded drainStep AboutToMix DrainSystem.init ls) : Throughout Drained es :=
  (exec_throughout Draining Drained drainStep_draining Draining.init hguard hrun).2

end Closes

/-! ### Two runs -/

/-- One thread opens the shared PCM. -/
def opensFirst : List (DrainLabel Unit Unit) :=
  [.pcm (.beginOpen ()), .pcm (.proceed ()), .pcm (.proceed ()), .pcm (.proceed ()), .pcm (.endOpen ())]

/-- One stereo frame of the octets 1, 2, 3, 4. -/
def writesFrame : DrainLabel Unit Unit := .write () 0 () (fun a => UInt8.ofNat (a + 1)) 4

/-- The mixer thread has not mixed before the last close. -/
def closesBeforeMix : List (DrainLabel Unit Unit) :=
  opensFirst ++ [writesFrame, .pcm (.close () 0), .turn 0 [()], .pcm (.test 0), .pcm (.join ()), .pcm (.destroy ())]

theorem closes_drained_before_mix : ∃ s es, exec drainStep DrainSystem.init closesBeforeMix = some (s, es) ∧
    Throughout Drained es := by
  have hguard : Guarded drainStep AboutToMix DrainSystem.init closesBeforeMix := by
    have hafter : ∀ s, Guarded drainStep AboutToMix s
        [.turn 0 [()], .pcm (.test 0), .pcm (.join ()), .pcm (.destroy ())] := fun _ =>
      ⟨trivial, fun _ _ _ => ⟨trivial, fun _ _ _ => ⟨trivial, fun _ _ _ => ⟨trivial, fun _ _ _ => trivial⟩⟩⟩⟩
    apply guarded_cons rfl trivial
    apply guarded_cons rfl trivial
    apply guarded_cons rfl trivial
    apply guarded_cons rfl trivial
    apply guarded_cons rfl trivial
    apply guarded_cons rfl trivial
    exact guarded_cons rfl (fun _ => Or.inl rfl) (hafter _)
  exact ⟨_, _, rfl, closes_drained rfl hguard⟩

/-- The frame is written after the last mix: the mixer thread then finds that it shall not go on. -/
def closesAfterMix : List (DrainLabel Unit Unit) :=
  opensFirst ++ [.turn 0 [], writesFrame, .pcm (.close () 0), .pcm (.test 0), .pcm (.join ()), .pcm (.destroy ())]

/-- What has happened when the object is destroyed. -/
def lostFrame : List (DrainEvent Unit Unit) :=
  [.pcm (.returned () 0 (some 0)), .mixed 0 [] none, .stored () 0 () [513, 1027] true] ++
    .pcm (.closed () 0 true) :: [.pcm (.tested 0 false), .pcm (.joined 0)]

/-- The frame written before the last close is never mixed. -/
theorem close_loses_frame : ¬ ∀ (ls : List (DrainLabel Unit Unit)) (s : DrainSystem Unit Unit) (es : List (DrainEvent Unit Unit)),
    exec drainStep DrainSystem.init ls = some (s, es) → Throughout Drained es := by
  intro h
  have hdrained : DrainedBy 0 lostFrame := h closesAfterMix _ _ rfl lostFrame (.pcm (.destroyed 0)) [] rfl
  have hlost : [] ++ [513, 1027] <+: handedFrom 0 () lostFrame :=
    hdrained () _ _ rfl () () [513, 1027] true [.pcm (.returned () 0 (some 0)), .mixed 0 [] none] [] rfl (Or.inl rfl)
  exact absurd hlost (by decide)

end Trout.SharedPcm
