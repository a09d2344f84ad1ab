import Trout.CInt
import Trout.Pcm16
import Trout.Runs

/-! The mixer of `ext_pcm.c`: one pipeline for each bus address, filled by `mixer_pipeline_write` and
drained by the mixer thread. A step of the system is one section under `mixer_lock`: the part of
`mixer_pipeline_write` up to its next wait or its return, or one turn of the mixer loop. A writer may
wake at any time, so spurious wake-ups are included, and the order in which `hashmapForEach` visits
the entries is chosen anew at every turn. -/

namespace Trout.Mixer
open CInt Pcm16 RingWindow

/-- `MIXER_BUFFER_SIZE` -/
def mixerBufferSize : Nat := 1024 * 4

/-- `struct ext_mixer_pipeline` -/
@[ext] structure ExtMixerPipeline where
  buffer : Nat → Int16
  position : Nat

/-- The pipeline after `calloc` or `memset`. -/
def ExtMixerPipeline.zero : ExtMixerPipeline := ⟨fun _ => 0, 0⟩

/-- The samples a pipeline holds. -/
def ExtMixerPipeline.content (p : ExtMixerPipeline) : List Int16 := slice p.buffer 0 p.position

/-- The loop body of `mixer_thread_mix`; the `float` holds every sum of two samples exactly. -/
def mixSample (out inp : Int16) : Int16 :=
  let mixed := out.toInt + inp.toInt
  if mixed > 32767 then Int16.maxValue
  else if mixed < -32768 then Int16.minValue
  else Int16.ofInt mixed

/-- The callback of `hashmapForEach`: the output pipeline and the cleared input pipeline. -/
def mixerThreadMix (pipelineIn pipelineOut : ExtMixerPipeline) : ExtMixerPipeline × ExtMixerPipeline :=
  let position := max pipelineOut.position pipelineIn.position
  let buffer := fun i =>
    if i < position then mixSample (pipelineOut.buffer i) (pipelineIn.buffer i) else pipelineOut.buffer i
  (⟨buffer, position⟩, .zero)

variable {κ : Type} [DecidableEq κ]

/-- `Hashmap *mixer_pipeline_map` -/
abbrev PipelineMap (κ : Type) := Finmap fun _ : κ => ExtMixerPipeline

/-- `hashmapForEach` with the mixing callback, for the entries in the given order. -/
def forEachMix : List κ → PipelineMap κ × ExtMixerPipeline → PipelineMap κ × ExtMixerPipeline
  | [], acc => acc
  | bus :: order, (map, out) =>
      match map.lookup bus with
      | none => forEachMix order (map, out)
      | some pipelineIn =>
          let mixed := mixerThreadMix pipelineIn out
          forEachMix order (map.insert bus mixed.2, mixed.1)

/-- The fields of `struct ext_pcm` that the mixer uses under `mixer_lock`. -/
structure ExtPcm (κ : Type) where
  mixerPipeline : ExtMixerPipeline
  mixerPipelineMap : PipelineMap κ

def ExtPcm.init : ExtPcm κ := ⟨.zero, ∅⟩

/-- One turn of `mixer_thread_loop`, with the samples handed to `pcm_write` if it is called. -/
def mixerTurn (e : ExtPcm κ) (order : List κ) : ExtPcm κ × Option (List Int16) :=
  let mixed := forEachMix order (e.mixerPipelineMap, { e.mixerPipeline with position := 0 })
  (⟨.zero, mixed.1⟩, if mixed.2.position > 0 then some mixed.2.content else none)

/-- The arguments and locals of a `mixer_pipeline_write` between two waits. -/
structure PipelineWrite where
  data : Nat → UInt8
  count : Nat
  byteWritten : Nat

/-- `byteCount` of the next chunk: the rest of the call or the free bytes of the pipeline. -/
def PipelineWrite.byteCount (w : PipelineWrite) (p : ExtMixerPipeline) : Nat :=
  toUint ((min (toUint ((w.count : Int) - w.byteWritten))
    (sizeMul (toUint ((mixerBufferSize : Int) - p.position)) 2) : Nat) : Int)

/-- The copy of one chunk into the pipeline. -/
def PipelineWrite.fill (w : PipelineWrite) (p : ExtMixerPipeline) : ExtMixerPipeline :=
  let int16Count := w.byteCount p / 2
  if int16Count > 0 then
    ⟨samplesOf (copy (bytesOf p.buffer) (2 * p.position) w.data w.byteWritten (w.byteCount p)),
      (p.position + int16Count) % uintMod⟩
  else
    p

def PipelineWrite.advance (w : PipelineWrite) (p : ExtMixerPipeline) : PipelineWrite :=
  { w with byteWritten := (w.byteWritten + w.byteCount p) % uintMod }

/-- One iteration of the loop of `mixer_pipeline_write`; without a write left to wait for it returns. -/
def pipelineChunk (e : ExtPcm κ) (bus : κ) (p : ExtMixerPipeline) (w : PipelineWrite) :
    ExtPcm κ × Option PipelineWrite :=
  let next := w.advance p
  ({ e with mixerPipelineMap := e.mixerPipelineMap.insert bus (w.fill p) },
    if next.byteWritten < next.count then some next else none)

/-- `mixer_pipeline_write` up to its first wait or its return. -/
def mixerPipelineWrite (e : ExtPcm κ) (bus : κ) (data : Nat → UInt8) (count : Nat) :
    ExtPcm κ × Option PipelineWrite :=
  pipelineChunk e bus ((e.mixerPipelineMap.lookup bus).getD .zero) ⟨data, count, 0⟩

/-! ### The system of writers and mixer thread -/

structure MixerSystem (κ : Type) where
  extPcm : ExtPcm κ
  /-- The call each address's writer is waiting in. -/
  writers : κ → Option PipelineWrite

def MixerSystem.init : MixerSystem κ := ⟨.init, fun _ => none⟩

inductive MixerLabel (κ : Type) where
  | write (bus : κ) (data : Nat → UInt8) (count : UInt32)
  | resume (bus : κ)
  | turn (order : List κ)

inductive MixerEvent (κ : Type) where
  /-- A call of `mixer_pipeline_write` has returned. -/
  | returned (bus : κ) (data : Nat → UInt8) (count : Nat)
  /-- What a turn consumed, in the order of the visits, and the block it handed to `pcm_write`. -/
  | mixed (consumed : List (κ × List Int16)) (block : Option (List Int16))

/-- The state and the events after a chunk of the call `w` on `bus`. -/
def MixerSystem.after (s : MixerSystem κ) (bus : κ) (w : PipelineWrite)
    (chunk : ExtPcm κ × Option PipelineWrite) : MixerSystem κ × List (MixerEvent κ) :=
  (⟨chunk.1, Function.update s.writers bus chunk.2⟩,
    if chunk.2.isNone then [.returned bus w.data w.count] else [])

def mixerStep (s : MixerSystem κ) : MixerLabel κ → Option (MixerSystem κ × List (MixerEvent κ))
  | .write bus data count =>
      match s.writers bus with
      | some _ => none
      | none => some (s.after bus ⟨data, count.toNat, 0⟩ (mixerPipelineWrite s.extPcm bus data count.toNat))
  | .resume bus =>
      match s.writers bus, s.extPcm.mixerPipelineMap.lookup bus with
      | some w, some p => some (s.after bus w (pipelineChunk s.extPcm bus p w))
      | _, _ => none
  | .turn order =>
      if order.Nodup ∧ order.toFinset = s.extPcm.mixerPipelineMap.keys then
        let content := fun bus => ((s.extPcm.mixerPipelineMap.lookup bus).getD .zero).content
        let turn := mixerTurn s.extPcm order
        some (⟨turn.1, s.writers⟩, [.mixed (order.map fun bus => (bus, content bus)) turn.2])
      else
        none

end Trout.Mixer
