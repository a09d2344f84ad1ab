import Trout.MixerModel
import Trout.OutputThreads

/-! Playback from client to device: an output stream with one client thread and the mixer that its
worker feeds. The worker's `ext_pcm_write` is the mixer's `mixer_pipeline_write` on the period it has
read, so its sections run under `mixer_lock`, interleaved with those of the mixer thread and, under
`out->lock`, of the client. When the worker closes its PCM, the last reference goes and with it the
mixer; a turn of a mixer without pipelines does nothing. -/

namespace Trout.Playback
open CInt Pcm16 RingWindow Audio Mixer

structure PlaybackSystem where
  output : OutputSystem 1
  mixer : MixerSystem Unit

def PlaybackSystem.init (out : GenericStreamOut) : PlaybackSystem := ⟨.init 1 out, .init⟩

inductive PlaybackLabel where
  /-- A section under `out->lock`. -/
  | output (l : OutputLabel 1)
  /-- The worker after its read: the test of the zone and `ext_pcm_write` up to its first wait. -/
  | play (selected : Bool)
  /-- The worker wakes in `mixer_pipeline_write`. -/
  | resume
  | turn (order : List Unit)

inductive PlaybackEvent where
  | output (e : OutputEvent)
  | mixer (e : MixerEvent Unit)

/-- The open PCM of the worker. -/
def extPcmOf : WorkerPc → Option OpenPcm
  | .top w => w.extPcm
  | .standbyWait w _ => w.extPcm
  | .emptyWait w _ => w.extPcm
  | .playing w _ => w.extPcm
  | .terminated => none

/-- The section blocks the worker in standby, where it has closed its PCM. -/
def closesPcm (before after : WorkerPc) : Bool :=
  match before, after with
  | .standbyWait _ _, _ => false
  | _, .standbyWait _ _ => (extPcmOf before).isSome
  | _, _ => false

theorem closesPcm_self (pc : WorkerPc) : closesPcm pc pc = false := by cases pc <;> rfl

theorem closesPcm_signal (pc : WorkerPc) : closesPcm pc pc.signal = false := by cases pc <;> rfl

/-- The end of the worker's turn, after `ext_pcm_write` has returned 0 or the zone was not selected. -/
def workerPlayed (s : PlaybackSystem) (mixer : MixerSystem Unit) (selected : Bool) (es : List PlaybackEvent) :
    Option (PlaybackSystem × List PlaybackEvent) :=
  (outputStep s.output (.worker ⟨true, fun _ => none, selected, false⟩ none)).map fun r =>
    (⟨r.1, mixer⟩, es ++ r.2.map .output)

/-- The worker after a section of its `mixer_pipeline_write`, which waits or returns. -/
def afterForward (s : PlaybackSystem) (r : MixerSystem Unit × List (MixerEvent Unit)) :
    Option (PlaybackSystem × List PlaybackEvent) :=
  if (r.1.writers ()).isSome then some (⟨s.output, r.1⟩, r.2.map .mixer)
  else workerPlayed s r.1 true (r.2.map .mixer)

/-- `ext_pcm_write(ext_pcm, out->bus_address, buffer, ext_pcm_frames_to_bytes(ext_pcm, frames))` -/
def forwardLabel (out : GenericStreamOut) (pcm : OpenPcm) (frames : Int) : MixerLabel Unit :=
  .write () pcm.memory (UInt32.ofNat (out.pcmConfig.framesToBytes (toUint frames)))

def playbackStep (s : PlaybackSystem) : PlaybackLabel → Option (PlaybackSystem × List PlaybackEvent)
  | .output l =>
      match l, s.output.worker with
      | .worker _ _, .playing _ _ => none
      | _, before =>
          (outputStep s.output l).map fun r =>
            (⟨r.1, if closesPcm before r.1.worker then .init else s.mixer⟩, r.2.map .output)
  | .play selected =>
      match s.output.worker with
      | .playing w frames =>
          if selected then
            match w.extPcm with
            | none => none
            | some pcm => (mixerStep s.mixer (forwardLabel s.output.out pcm frames)).bind (afterForward s)
          else if (s.mixer.writers ()).isSome then none
          else workerPlayed s s.mixer false []
      | _ => none
  | .resume =>
      match s.output.worker with
      | .playing _ _ => (mixerStep s.mixer (.resume ())).bind (afterForward s)
      | _ => none
  | .turn order => (mixerStep s.mixer (.turn order)).map fun r => (⟨s.output, r.1⟩, r.2.map .mixer)

/-! ### What has been stored, handed on and kept -/

def outputEvents (events : List PlaybackEvent) : List OutputEvent :=
  events.filterMap fun
    | .output e => some e
    | .mixer _ => none

def mixerEvents (events : List PlaybackEvent) : List (MixerEvent Unit) :=
  events.filterMap fun
    | .output _ => none
    | .mixer e => some e

/-- The frames that `out_write` has stored. -/
def storedFrames (events : List OutputEvent) : List (List UInt8) :=
  events.flatMap fun
    | .stored frames => frames
    | _ => []

/-- All frames of the calls of `out_write` that have returned. -/
def returnedFrames (events : List OutputEvent) : List (List UInt8) :=
  events.flatMap fun
    | .returned c => records c.buffer 4 0 (c.bytes / 4)
    | _ => []

/-- The frames that the waiting call of `out_write` has stored. -/
def PlaybackSystem.waitingFrames (s : PlaybackSystem) : List (List UInt8) :=
  match s.output.clients 0 with
  | .writeWaiting c _ => records c.buffer 4 0 c.framesWritten
  | _ => []

/-- The samples handed to `pcm_write`. -/
def handedSamples (events : List (MixerEvent Unit)) : List Int16 :=
  events.flatMap fun
    | .mixed _ block => block.getD []
    | _ => []

/-- The part of the worker's period that is not in the pipeline yet. -/
def PlaybackSystem.restOfPeriod (s : PlaybackSystem) : List Int16 :=
  match s.output.worker with
  | .playing w frames =>
      match s.mixer.writers (), w.extPcm with
      | some call, _ => slice (samplesOf call.data) (call.byteWritten / 2) (call.count / 2 - call.byteWritten / 2)
      | none, some pcm => slice (samplesOf pcm.memory) 0 (2 * frames.toNat)
      | none, none => []
  | _ => []

end Trout.Playback
