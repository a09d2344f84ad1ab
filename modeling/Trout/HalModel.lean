import Trout.OutputThreads
import Trout.SharedPcmModel

/-! The audio HAL: any number of output streams, each with its client threads and its worker, over the shared
PCM. A worker calls `ext_pcm_open` and `ext_pcm_close` inside a section under `out->lock`; the steps of the
call come first, with the lock held, and then the rest of the section. `ext_pcm_write` runs outside the lock;
of it the lookup of the pipeline is a step. A stream that is opened has an identity of its own. -/

namespace Trout.Hal
open CInt RingWindow Audio SharedPcm

/-- A key of `mixer_pipeline_map`: the stream that the pointer belongs to and the text it points to. -/
abbrev PipelineKey (ι : Type) := ι × String

/-- `str_eq` -/
def strEq {ι : Type} (keyA keyB : PipelineKey ι) : Bool := keyA.2 == keyB.2

structure HalStream (n : Nat) where
  output : OutputSystem n
  busAddress : String
  /-- The worker has begun the call of its section and holds `out->lock`. -/
  calling : Bool
  /-- The worker has handed on the block it has read. -/
  forwarded : Bool

/-- The state of the device. The worker of a stream is the thread of the same name. -/
structure HalSystem (ι : Type) (n : Nat) where
  streams : ι → Option (HalStream n)
  pcm : PcmSystem (PipelineKey ι) ι

def HalSystem.init {ι : Type} {n : Nat} : HalSystem ι n := ⟨fun _ => none, .init⟩

inductive HalLabel (ι : Type) (n : Nat) where
  | openOutputStream (i : ι) (allocated : Bool) (calloc : Nat → Bool) (p : PeriodProperties) (config : AudioConfig)
      (address : String)
  | output (i : ι) (l : OutputLabel n)
  | pcm (l : PcmLabel (PipelineKey ι) ι)

/-! ### The calls of the worker -/

inductive PcmCall where
  | opens
  | closes
  deriving DecidableEq

/-- The worker past its waits opens the PCM when it has none. -/
def fetchCall (out : GenericStreamOut) (w : WorkerLocals) : Option PcmCall :=
  if audioVbufferLive out.buffer = 0 then none else if w.extPcm.isSome then none else some .opens

def standbyCall (out : GenericStreamOut) (w : WorkerLocals) : Option PcmCall :=
  if out.workerStandby || w.restart then (if w.extPcm.isSome then some .closes else none)
  else if out.workerExit then none
  else fetchCall out w

/-- The call that the next section of the worker makes. -/
def pcmCall (out : GenericStreamOut) : WorkerPc → Option PcmCall
  | .top w => standbyCall out w
  | .standbyWait w true => standbyCall out w
  | .emptyWait w true => fetchCall out w
  | _ => none

/-- The block is being played. -/
def WorkerPc.plays : WorkerPc → Bool
  | .playing _ _ => true
  | _ => false

/-! ### Steps -/

/-- A section of the worker ends when its call has returned. A PCM that is ready is not NULL, and a block is
handed on when the zone is selected. -/
def workerReady {n : Nat} (st : HalStream n) (worker : Thread) (env : WorkerEnv) : Bool :=
  match pcmCall st.output.out st.output.worker with
  | some .opens => st.calling && worker.pc == .idle && (!env.ready || !worker.held.isEmpty)
  | some .closes => st.calling && worker.pc == .idle
  | none => !WorkerPc.plays st.output.worker || env.selected == st.forwarded

/-- Whether a section may run: `out->lock` is held during a call. -/
def sectionReady {n : Nat} (st : HalStream n) (worker : Thread) : OutputLabel n → Bool
  | .worker env _ => workerReady st worker env
  | _ => !st.calling

def HalStream.after {n : Nat} (st : HalStream n) (l : OutputLabel n) (output : OutputSystem n) : HalStream n :=
  match l with
  | .worker _ _ => { st with output := output, calling := false, forwarded := false }
  | _ => { st with output := output }

/-- The stream when its worker takes a step on the shared PCM, none when the worker is elsewhere. -/
def HalStream.serves {ι : Type} {n : Nat} [DecidableEq ι] (st : HalStream n) : PcmLabel (PipelineKey ι) ι → Option (HalStream n)
  | .beginOpen _ =>
      if !st.calling ∧ pcmCall st.output.out st.output.worker = some .opens then some { st with calling := true } else none
  | .close _ _ =>
      if !st.calling ∧ pcmCall st.output.out st.output.worker = some .closes then some { st with calling := true } else none
  | .write i _ key =>
      if WorkerPc.plays st.output.worker ∧ !st.forwarded ∧ key = (i, st.busAddress) then
        some { st with forwarded := true }
      else
        none
  | _ => some st

/-- The worker that takes a step on the shared PCM, none for the mixer threads. -/
def worker? {ι : Type} : PcmLabel (PipelineKey ι) ι → Option ι
  | .beginOpen i => some i
  | .proceed i => some i
  | .endOpen i => some i
  | .close i _ => some i
  | .join i => some i
  | .destroy i => some i
  | .write i _ _ => some i
  | .mix _ => none
  | .test _ => none

section Step
variable {ι : Type} [DecidableEq ι] {n : Nat}

def HalSystem.setStream (s : HalSystem ι n) (i : ι) (st : HalStream n) : HalSystem ι n :=
  { s with streams := Function.update s.streams i (some st) }

/-- `adev_open_output_stream` -/
def openStep (s : HalSystem ι n) (i : ι) (opened : Except Errno GenericStreamOut) (address : String) : Option (HalSystem ι n) :=
  match s.streams i, opened with
  | none, .ok out => some (s.setStream i ⟨.init n out, address, false, false⟩)
  | none, .error _ => some s
  | some _, _ => none

def outputLabelStep (s : HalSystem ι n) (i : ι) (l : OutputLabel n) : Option (HalSystem ι n) :=
  match s.streams i with
  | none => none
  | some st =>
      if sectionReady st (s.pcm.threads i) l then
        (outputStep st.output l).map fun r => s.setStream i (st.after l r.1)
      else
        none

def pcmLabelStep (s : HalSystem ι n) (l : PcmLabel (PipelineKey ι) ι) : Option (HalSystem ι n × List (PcmEvent ι)) :=
  match worker? l with
  | none => (pcmStep strEq s.pcm l).map fun r => ({ s with pcm := r.1 }, r.2)
  | some i =>
      match s.streams i with
      | none => none
      | some st =>
          (if st.output.freed then none else st.serves l).bind fun st' =>
            (pcmStep strEq s.pcm l).map fun r => ({ s.setStream i st' with pcm := r.1 }, r.2)

def halStep (s : HalSystem ι n) : HalLabel ι n → Option (HalSystem ι n × List (PcmEvent ι))
  | .openOutputStream i allocated calloc p config address =>
      (openStep s i (adevOpenOutputStream allocated calloc p config) address).map fun t => (t, [])
  | .output i l => (outputLabelStep s i l).map fun t => (t, [])
  | .pcm l => pcmLabelStep s l

/-- The steps of the device by the part that moves. -/
inductive HalStepped (s : HalSystem ι n) : HalLabel ι n → HalSystem ι n → List (PcmEvent ι) → Prop where
  | opened (i : ι) (allocated : Bool) (calloc : Nat → Bool) (p : PeriodProperties) (config : AudioConfig)
      (address : String) (out : GenericStreamOut) : s.streams i = none →
      adevOpenOutputStream allocated calloc p config = .ok out →
      HalStepped s (.openOutputStream i allocated calloc p config address)
        (s.setStream i ⟨.init n out, address, false, false⟩) []
  | refused (i : ι) (allocated : Bool) (calloc : Nat → Bool) (p : PeriodProperties) (config : AudioConfig)
      (address : String) : HalStepped s (.openOutputStream i allocated calloc p config address) s []
  | output (i : ι) (l : OutputLabel n) (st : HalStream n) (output : OutputSystem n) (events : List OutputEvent) :
      s.streams i = some st → sectionReady st (s.pcm.threads i) l = true → outputStep st.output l = some (output, events) →
      HalStepped s (.output i l) (s.setStream i (st.after l output)) []
  | mixer (l : PcmLabel (PipelineKey ι) ι) (pcm : PcmSystem (PipelineKey ι) ι) (es : List (PcmEvent ι)) :
      worker? l = none → Stepped strEq s.pcm l pcm es → HalStepped s (.pcm l) { s with pcm := pcm } es
  | worker (i : ι) (l : PcmLabel (PipelineKey ι) ι) (st st' : HalStream n) (pcm : PcmSystem (PipelineKey ι) ι)
      (es : List (PcmEvent ι)) : worker? l = some i → s.streams i = some st → st.output.freed = false →
      st.serves l = some st' → Stepped strEq s.pcm l pcm es →
      HalStepped s (.pcm l) { s.setStream i st' with pcm := pcm } es

theorem halStepped {s s' : HalSystem ι n} {l : HalLabel ι n} {es : List (PcmEvent ι)} (h : halStep s l = some (s', es)) :
    HalStepped s l s' es := by
  cases l with
  | openOutputStream i allocated calloc p config address =>
      obtain ⟨t, ht, heq⟩ := Option.map_eq_some_iff.mp h
      cases heq
      unfold openStep at ht
      split at ht
      · next out hstream hopen =>
          cases ht
          exact .opened i allocated calloc p config address out hstream hopen
      · cases ht
        exact .refused i allocated calloc p config address
      · cases ht
  | output i l =>
      obtain ⟨t, ht, heq⟩ := Option.map_eq_some_iff.mp h
      cases heq
      rw [outputLabelStep] at ht
      split at ht
      · cases ht
      · next st hstream =>
          obtain ⟨hready, hmap⟩ := Option.ite_none_right_eq_some.mp ht
          obtain ⟨⟨output, events⟩, hstep, heq⟩ := Option.map_eq_some_iff.mp hmap
          cases heq
          exact .output i l st output events hstream hready hstep
  | pcm l =>
      rw [halStep, pcmLabelStep] at h
      split at h
      · next hworker =>
          obtain ⟨⟨pcm, fs⟩, hstep, heq⟩ := Option.map_eq_some_iff.mp h
          cases heq
          exact .mixer l pcm fs hworker (stepped hstep)
      · next i hworker =>
          split at h
          · cases h
          · next st hstream =>
              obtain ⟨st', hserves, hmap⟩ := Option.bind_eq_some_iff.mp h
              obtain ⟨⟨pcm, fs⟩, hstep, heq⟩ := Option.map_eq_some_iff.mp hmap
              cases heq
              by_cases hfreed : st.output.freed = true
              · rw [if_pos hfreed] at hserves
                cases hserves
              · rw [if_neg hfreed] at hserves
                exact .worker i l st st' pcm fs hworker hstream (Bool.eq_false_of_not_eq_true hfreed) hserves (stepped hstep)

end Step

end Trout.Hal
