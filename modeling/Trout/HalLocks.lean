import Trout.LockOrder

/-! The locks of the audio HAL. For each function of `audio_hw.c`, `audio_vbuffer.c` and `ext_pcm.c` that has to do with
a mutex, or with a variable that more than one thread can have and that is written then, what it does to the mutexes,
the condition variables, the threads and these variables, in the order of the source; other statements are left out and
every test is left open. What an `open` writes before another thread can have the object (from the map of the device, or
from `pthread_create`) is left out, and so is what a `close` frees after its join. -/

namespace Trout.Locks
open LockOrder Runs

/-- The ring buffers, of the output and of the input streams. -/
inductive RingBuffer where
  | out (stream : Nat)
  | input (stream : Nat)
  deriving DecidableEq

/-- The mutexes. Streams and objects of the shared PCM are numbered. -/
inductive HalMutex where
  /-- `lock` -/
  | moduleLock
  /-- `adev->lock` -/
  | deviceLock
  /-- `out->lock` -/
  | outLock (stream : Nat)
  /-- `in->lock` -/
  | inLock (stream : Nat)
  /-- `audio_vbuffer->lock` -/
  | vbufferLock (buffer : RingBuffer)
  | extPcmInitLock
  /-- `ext_pcm->mixer_lock` -/
  | mixerLock (pcm : Nat)
  deriving DecidableEq

inductive HalThread where
  /-- A thread of the framework. -/
  | client (n : Nat)
  | outWriteWorker (stream : Nat)
  | inReadWorker (stream : Nat)
  | mixerThreadLoop (pcm : Nat)
  deriving DecidableEq

/-- The static variables, those of functions included. -/
inductive StaticField where
  | audioDeviceRefCount
  | deviceHandle
  | adev
  | pcmConfigOut
  | pcmConfigIn
  | propValue
  | outPeriodMs
  | outPeriodCount
  | inPeriodMs
  | inPeriodCount
  | sharedExtPcm

/-- Of `struct generic_audio_device`, with the contents of its two maps and the controls of its mixer. -/
inductive DeviceField where
  | lastPatchId
  | masterMute
  | micMute
  | mixer
  | outBusStreamMap
  | inBusToneFrequencyMap
  | nextToneFrequencyToAssign
  | lastZoneSelectedToPlay
  | hfpRunning

/-- Of `struct generic_stream_out`. -/
inductive OutField where
  | device
  | gainStage
  | amplitudeRatio
  | enabledChannels
  | isDucked
  | isMuted
  | standby
  | underrunPosition
  | underrunTime
  | framesTotalBuffered
  | framesWritten
  | framesRendered
  | workerThread
  | workerStandby
  | workerExit

/-- Of `struct generic_stream_in`. -/
inductive InField where
  | device
  | stereoToMonoBuf
  | stereoToMonoBufSize
  | busAddress
  | standby
  | standbyPosition
  | standbyExitTime
  | standbyFramesRead
  | workerThread
  | workerStandby
  | workerExit
  | oscillator

/-- Of `struct ext_pcm`; the pipelines are the contents of its map. -/
inductive PcmField where
  | mixerPipelineMap
  | pipelines
  | mixerPipeline
  | mixerThread
  | refCount
  | runMixer

/-- A ring buffer is one variable. -/
inductive HalField where
  | static (field : StaticField)
  | vbuffer (buffer : RingBuffer)
  | device (field : DeviceField)
  | out (stream : Nat) (field : OutField)
  | input (stream : Nat) (field : InField)
  | extPcm (pcm : Nat) (field : PcmField)

abbrev HalCode := Code HalMutex HalThread Nat HalField

/-- Something with one mutex held. -/
def under (m : HalMutex) (p : HalCode) : HalCode := .lock m ++ p ++ .unlock m

/-- Something that may be left out. -/
def maybe (p : HalCode) : HalCode := .either p .skip

def staticAccess (reads writes : List StaticField) : HalCode := .access (reads.map .static) (writes.map .static)

def vbufferAccess (reads writes : List RingBuffer) : HalCode := .access (reads.map .vbuffer) (writes.map .vbuffer)

def deviceAccess (reads writes : List DeviceField) : HalCode := .access (reads.map .device) (writes.map .device)

def outAccess (stream : Nat) (reads writes : List OutField) : HalCode :=
  .access (reads.map (.out stream)) (writes.map (.out stream))

def inAccess (stream : Nat) (reads writes : List InField) : HalCode :=
  .access (reads.map (.input stream)) (writes.map (.input stream))

def pcmAccess (pcm : Nat) (reads writes : List PcmField) : HalCode :=
  .access (reads.map (.extPcm pcm)) (writes.map (.extPcm pcm))

/-! ### `audio_vbuffer.c` -/

def audioVbufferLive (buffer : RingBuffer) : HalCode := under (.vbufferLock buffer) (vbufferAccess [buffer] [])

def audioVbufferDead (buffer : RingBuffer) : HalCode := under (.vbufferLock buffer) (vbufferAccess [buffer] [])

def audioVbufferWrite (buffer : RingBuffer) : HalCode := under (.vbufferLock buffer) (vbufferAccess [buffer] [buffer])

def audioVbufferRead (buffer : RingBuffer) : HalCode := under (.vbufferLock buffer) (vbufferAccess [buffer] [buffer])

/-! ### `ext_pcm.c` -/

def mixerThreadLoop (pcm : Nat) : HalCode :=
  .loop (
    under (.mixerLock pcm)
      (pcmAccess pcm [.mixerPipelineMap, .pipelines, .mixerPipeline] [.pipelines, .mixerPipeline]) ++
    under .extPcmInitLock (pcmAccess pcm [.runMixer] []) ++
    maybe .leave)

/-- The turns of the loop that are not the last one end with a wait for the mixer thread. -/
def mixerPipelineWrite (pcm : Nat) : HalCode :=
  .lock (.mixerLock pcm) ++
  pcmAccess pcm [.mixerPipelineMap, .pipelines] [.pipelines] ++
  .loop (pcmAccess pcm [.pipelines] [.pipelines] ++ .either (.wait (.mixerLock pcm)) .leave) ++
  .unlock (.mixerLock pcm)

/-- The first open starts the mixer thread before it writes the map and `run_mixer`. The result is read from the
static variable once more, after the mutex has been released. -/
def extPcmOpen (pcm : Nat) : HalCode :=
  under .extPcmInitLock (
    staticAccess [.sharedExtPcm] [] ++
    maybe (
      staticAccess [.sharedExtPcm] [.sharedExtPcm] ++
      pcmAccess pcm [] [.mixerThread] ++
      pcmAccess pcm [] [.mixerPipelineMap, .runMixer]) ++
    staticAccess [.sharedExtPcm] [] ++
    pcmAccess pcm [.refCount] [.refCount]) ++
  staticAccess [.sharedExtPcm] []

/-- The last close joins the mixer thread between its two sections. -/
def extPcmClose (pcm : Nat) : HalCode :=
  maybe (.lock .extPcmInitLock ++
    pcmAccess pcm [.refCount] [.refCount] ++
    maybe (
      pcmAccess pcm [] [.runMixer] ++ staticAccess [] [.sharedExtPcm] ++ .unlock .extPcmInitLock ++
      pcmAccess pcm [.mixerThread] [] ++ .join (.mixerThreadLoop pcm) ++
      maybe (pcmAccess pcm [.mixerThread] []) ++
      .lock .extPcmInitLock) ++
    .unlock .extPcmInitLock)

def extPcmWrite (pcm : Nat) : HalCode := maybe (mixerPipelineWrite pcm)

/-! ### The module and the device -/

/-- The loop over the two keys. -/
def audioGetProperty : HalCode := staticAccess [] [.propValue] ++ maybe (staticAccess [] [.propValue])

/-- A static variable that keeps what the properties have said once. -/
def periodProperty (kept : StaticField) : HalCode :=
  staticAccess [kept] [] ++ maybe (audioGetProperty ++ staticAccess [] [kept]) ++ staticAccess [kept] []

def getOutPeriodMs : HalCode := periodProperty .outPeriodMs

def getOutPeriodCount : HalCode := periodProperty .outPeriodCount

def getInPeriodMs : HalCode := periodProperty .inPeriodMs

def getInPeriodCount : HalCode := periodProperty .inPeriodCount

/-- Without a device handle the mutex is released before the return, otherwise after the lookup. -/
def getAudioDevice : HalCode :=
  .lock .moduleLock ++
  staticAccess [.deviceHandle] [] ++
  .either (.unlock .moduleLock) (deviceAccess [.outBusStreamMap] [] ++ .unlock .moduleLock)

def setDeviceAddressIsDucked (stream : Nat) : HalCode :=
  getAudioDevice ++ maybe (under (.outLock stream) (outAccess stream [] [.isDucked]))

def setDeviceAddressIsMuted (stream : Nat) : HalCode :=
  getAudioDevice ++ maybe (under (.outLock stream) (outAccess stream [] [.isMuted]))

def isZoneSelectedToPlay : HalCode := maybe (under .deviceLock (deviceAccess [.lastZoneSelectedToPlay] []))

/-- With the setters of `hfp.c`. -/
def adevSetParameters : HalCode :=
  under .deviceLock (deviceAccess [.mixer, .hfpRunning] [.mixer, .lastZoneSelectedToPlay, .hfpRunning])

def adevSetMasterMute : HalCode := under .deviceLock (deviceAccess [] [.masterMute])

def adevGetMasterMute : HalCode := under .deviceLock (deviceAccess [.masterMute] [])

def adevSetMicMute : HalCode := under .deviceLock (deviceAccess [] [.micMute])

def adevGetMicMute : HalCode := under .deviceLock (deviceAccess [.micMute] [])

/-- The text of the log has the amplitude once more. -/
def adevSetAudioPortConfig (stream : Nat) : HalCode :=
  deviceAccess [.outBusStreamMap] [] ++
  maybe (
    under (.outLock stream) (outAccess stream [.gainStage] [] ++ outAccess stream [] [.amplitudeRatio]) ++
    outAccess stream [.amplitudeRatio] [])

/-- The handle is read after the mutex has been released. -/
def adevCreateAudioPatch : HalCode :=
  maybe (under .deviceLock (deviceAccess [.lastPatchId] [.lastPatchId]) ++ deviceAccess [.lastPatchId] [])

def adevClose : HalCode :=
  maybe (under .moduleLock (
    staticAccess [.audioDeviceRefCount] [] ++
    maybe (
      staticAccess [.audioDeviceRefCount] [.audioDeviceRefCount] ++
      maybe (staticAccess [] [.deviceHandle]))))

/-- A further handle, or the device. -/
def adevOpen : HalCode :=
  maybe (under .moduleLock (
    staticAccess [.audioDeviceRefCount] [] ++
    .either (staticAccess [.adev] []) (
      getInPeriodCount ++ staticAccess [] [.pcmConfigIn] ++
      getOutPeriodCount ++ staticAccess [] [.pcmConfigOut] ++
      staticAccess [] [.adev] ++
      staticAccess [.adev] [.deviceHandle]) ++
    staticAccess [.audioDeviceRefCount] [.audioDeviceRefCount]))

/-! ### Output streams -/

/-- With `out->lock` held. -/
def getCurrentOutputPosition (stream : Nat) : HalCode :=
  outAccess stream [.standby, .underrunTime, .underrunPosition, .framesWritten]
    [.underrunPosition, .underrunTime, .framesTotalBuffered]

/-- With `out->lock` held: it is released for each sleep. -/
def doOutStandby (stream : Nat) : HalCode :=
  outAccess stream [.standby] [] ++
  maybe (
    .loop (
      getCurrentOutputPosition stream ++
      outAccess stream [.framesWritten, .underrunPosition] [.underrunPosition] ++
      .either .leave (.unlock (.outLock stream) ++ .lock (.outLock stream))) ++
    outAccess stream [] [.workerStandby, .standby])

def outStandby (stream : Nat) : HalCode := under (.outLock stream) (doOutStandby stream)

def outApplyGain (stream : Nat) : HalCode := outAccess stream [.enabledChannels, .amplitudeRatio, .isDucked] []

/-- The master mute is read with `out->lock` alone. -/
def outWrite (stream : Nat) : HalCode :=
  .lock (.outLock stream) ++
    outAccess stream [.workerStandby] [.workerStandby] ++
    getCurrentOutputPosition stream ++
    outAccess stream [.standby] [.standby, .underrunTime, .framesRendered, .framesTotalBuffered] ++
    audioVbufferDead (.out stream) ++
    maybe (.unlock (.outLock stream) ++ .lock (.outLock stream)) ++
    deviceAccess [.masterMute] [] ++
    outAccess stream [.isMuted] [] ++
    maybe (
      outApplyGain stream ++
      .loop (audioVbufferWrite (.out stream) ++ .either (.wait (.outLock stream)) .leave)) ++
    outAccess stream [.framesWritten, .framesRendered, .framesTotalBuffered]
      [.framesWritten, .framesRendered, .framesTotalBuffered] ++
    .unlock (.outLock stream)

def outDump (stream : Nat) : HalCode :=
  under (.outLock stream) (
    outAccess stream [.device, .amplitudeRatio, .enabledChannels, .isDucked, .isMuted] [])

def outSetParameters (stream : Nat) : HalCode := under (.outLock stream) (outAccess stream [.standby] [.device])

def outGetParameters (stream : Nat) : HalCode := maybe (under (.outLock stream) (outAccess stream [.device] []))

def outGetPresentationPosition (stream : Nat) : HalCode :=
  maybe (under (.outLock stream) (getCurrentOutputPosition stream))

def outGetRenderPosition (stream : Nat) : HalCode :=
  maybe (under (.outLock stream) (outAccess stream [.framesRendered] []))

/-- The stream is in the map before its gain and its channels are set. -/
def adevOpenOutputStream (stream : Nat) : HalCode :=
  maybe (
    staticAccess [.pcmConfigOut] [] ++
    getOutPeriodMs ++
    -- the ring buffer has its memory
    maybe (
      maybe (
        deviceAccess [.outBusStreamMap] [.outBusStreamMap] ++
        outAccess stream [] [.gainStage, .amplitudeRatio] ++
        maybe (outAccess stream [] [.enabledChannels] ++ outAccess stream [.enabledChannels] [])) ++
      outAccess stream [] [.workerThread] ++
      outAccess stream [.workerThread] []))

def adevCloseOutputStream (stream : Nat) : HalCode :=
  under (.outLock stream) (doOutStandby stream ++ outAccess stream [] [.workerExit]) ++
  outAccess stream [.workerThread] [] ++
  .join (.outWriteWorker stream) ++
  maybe (deviceAccess [.outBusStreamMap] [.outBusStreamMap])

/-- The worker with the object of the shared PCM that it has opened, if it has. -/
def outWriteWorker (stream : Nat) : HalCode :=
  .loop (
    .lock (.outLock stream) ++
    -- while (worker_standby || restart)
    .loop (
      outAccess stream [.workerStandby] [] ++
      .either .leave (
        maybe (.pick extPcmClose) ++
        outAccess stream [.workerExit] [] ++
        maybe .leave ++
        .wait (.outLock stream))) ++
    outAccess stream [.workerExit, .workerStandby] [] ++
    -- while (!shutdown && audio_vbuffer_live(..) == 0)
    .loop (audioVbufferLive (.out stream) ++ .either .leave (.wait (.outLock stream))) ++
    -- shutdown
    maybe (.unlock (.outLock stream) ++ .leave) ++
    maybe (
      .pick extPcmOpen ++
      -- the PCM is not ready, or there is no memory
      maybe (.unlock (.outLock stream) ++ .leave) ++
      maybe (.unlock (.outLock stream) ++ .leave)) ++
    audioVbufferRead (.out stream) ++
    .unlock (.outLock stream) ++
    isZoneSelectedToPlay ++
    maybe (.pick extPcmWrite))

/-! ### Input streams -/

/-- With `in->lock` held. -/
def getCurrentInputPosition (stream : Nat) : HalCode :=
  inAccess stream [.standby, .standbyExitTime, .standbyPosition] []

/-- With `in->lock` held. -/
def doInStandby (stream : Nat) : HalCode :=
  inAccess stream [.standby] [] ++
  maybe (
    inAccess stream [] [.workerStandby] ++
    getCurrentInputPosition stream ++
    inAccess stream [] [.standbyPosition, .standby])

def inStandby (stream : Nat) : HalCode := under (.inLock stream) (doInStandby stream)

def inRead (stream : Nat) : HalCode :=
  adevGetMicMute ++
  under (.inLock stream) (
    inAccess stream [.workerStandby, .device, .busAddress] [.workerStandby] ++
    getCurrentInputPosition stream ++
    inAccess stream [.standby, .standbyPosition, .standbyFramesRead] [.standby, .standbyExitTime, .standbyFramesRead]) ++
  under (.inLock stream) (
    inAccess stream [.standby] [] ++
    maybe (
      inAccess stream [.standbyFramesRead] [.standbyFramesRead] ++
      .either (inAccess stream [.oscillator] [.oscillator]) (
        maybe (inAccess stream [.stereoToMonoBufSize] [] ++
          maybe (inAccess stream [.stereoToMonoBuf] [.stereoToMonoBuf])) ++
        maybe (
          audioVbufferRead (.input stream) ++
          maybe (inAccess stream [.stereoToMonoBuf] [.stereoToMonoBuf])))))

/-- The size is 0 without the property for parameters that need to be refined. -/
def getInputBufferSize : HalCode := maybe getInPeriodMs

def inGetBufferSize : HalCode := getInputBufferSize

def adevGetInputBufferSize : HalCode := getInputBufferSize

def inDump (stream : Nat) : HalCode := under (.inLock stream) (inGetBufferSize ++ inAccess stream [.device] [])

def inSetParameters (stream : Nat) : HalCode := under (.inLock stream) (inAccess stream [.standby] [.device])

/-- Without `in->lock`. -/
def inGetParameters (stream : Nat) : HalCode := maybe (inAccess stream [.device] [])

def inGetCapturePosition (stream : Nat) : HalCode := under (.inLock stream) (getCurrentInputPosition stream)

def increaseNextToneFrequency : HalCode :=
  deviceAccess [.nextToneFrequencyToAssign] [.nextToneFrequencyToAssign] ++
  maybe (deviceAccess [] [.nextToneFrequencyToAssign])

def createOrFetchToneFrequency : HalCode :=
  deviceAccess [.inBusToneFrequencyMap] [] ++
  maybe (deviceAccess [.inBusToneFrequencyMap] [.inBusToneFrequencyMap])

/-- The worker runs before the address is set. A tone generator takes the frequency of its address. -/
def adevOpenInputStream (stream : Nat) : HalCode :=
  maybe (
    staticAccess [.pcmConfigIn] [] ++
    getInPeriodMs ++
    -- the ring buffer has its memory
    maybe (inAccess stream [] [.workerThread] ++ inAccess stream [.workerThread] []) ++
    maybe (
      inAccess stream [] [.busAddress] ++
      inAccess stream [.device, .busAddress] [] ++
      maybe (
        deviceAccess [.nextToneFrequencyToAssign] [] ++
        createOrFetchToneFrequency ++
        maybe increaseNextToneFrequency ++
        inAccess stream [] [.oscillator])))

def adevCloseInputStream (stream : Nat) : HalCode :=
  under (.inLock stream) (doInStandby stream ++ inAccess stream [] [.workerExit]) ++
  inAccess stream [.workerThread] [] ++
  .join (.inReadWorker stream)

def inReadWorker (stream : Nat) : HalCode :=
  .loop (
    .lock (.inLock stream) ++
    -- while (worker_standby || restart)
    .loop (
      inAccess stream [.workerStandby] [] ++
      .either .leave (
        inAccess stream [.workerExit] [] ++
        maybe .leave ++
        .wait (.inLock stream))) ++
    inAccess stream [.workerExit, .workerStandby] [] ++
    -- shutdown
    maybe (.unlock (.inLock stream) ++ .leave) ++
    maybe (
      -- the PCM is not ready, or there is no memory
      maybe (.unlock (.inLock stream) ++ .leave) ++
      maybe (.unlock (.inLock stream) ++ .leave)) ++
    .unlock (.inLock stream) ++
    under (.inLock stream) (audioVbufferWrite (.input stream)))

/-! ### Threads -/

/-- The functions that the framework calls, for a stream. -/
def halCalls (stream : Nat) : List HalCode :=
  [adevOpen, adevClose, adevSetParameters, adevSetMasterMute, adevGetMasterMute, adevSetMicMute, adevGetMicMute,
    adevSetAudioPortConfig stream, adevCreateAudioPatch, setDeviceAddressIsDucked stream,
    setDeviceAddressIsMuted stream, adevOpenOutputStream stream, outStandby stream, outWrite stream, outDump stream,
    outSetParameters stream, outGetParameters stream, outGetPresentationPosition stream, outGetRenderPosition stream,
    adevCloseOutputStream stream, adevOpenInputStream stream, inStandby stream, inRead stream, inDump stream,
    inSetParameters stream, inGetParameters stream, inGetCapturePosition stream, adevCloseInputStream stream,
    inGetBufferSize, adevGetInputBufferSize]

/-- Any of the calls, or none. -/
def anyOf : List HalCode → HalCode
  | [] => .skip
  | p :: ps => .either p (anyOf ps)

/-- A thread of the framework makes any calls on any streams. -/
def client : HalCode := .loop (maybe .leave ++ .pick fun stream => anyOf (halCalls stream))

def halProgram : HalThread → HalCode
  | .client _ => client
  | .outWriteWorker stream => outWriteWorker stream
  | .inReadWorker stream => inReadWorker stream
  | .mixerThreadLoop pcm => mixerThreadLoop pcm

/-! ### The order of the locks -/

/-- The module, the device and the streams come before the ring buffers, `ext_pcm_init_lock` and the mixers. -/
@[simp] def HalMutex.place : HalMutex → Nat
  | .moduleLock => 2
  | .deviceLock => 2
  | .outLock _ => 2
  | .inLock _ => 2
  | .vbufferLock _ => 4
  | .extPcmInitLock => 4
  | .mixerLock _ => 4

/-- A worker comes before its stream's mutex, and a mixer thread between the streams and the mutexes that it takes. -/
@[simp] def HalThread.place : HalThread → Nat
  | .client _ => 0
  | .outWriteWorker _ => 1
  | .inReadWorker _ => 1
  | .mixerThreadLoop _ => 3

/-- A mixer thread waits for no condition. -/
@[simp] def HalThread.MayWait : HalThread → Prop
  | .mixerThreadLoop _ => False
  | _ => True

/-- The mutex of the structure, or of the file, that has the variable. What `ext_pcm_open` sets is under
`ext_pcm_init_lock`, what the mixer thread works with under the mutex of the mixer. -/
@[simp] def HalField.lock : HalField → HalMutex
  | .static .sharedExtPcm => .extPcmInitLock
  | .static _ => .moduleLock
  | .vbuffer buffer => .vbufferLock buffer
  | .device _ => .deviceLock
  | .out stream _ => .outLock stream
  | .input stream _ => .inLock stream
  | .extPcm _ .mixerThread => .extPcmInitLock
  | .extPcm _ .refCount => .extPcmInitLock
  | .extPcm _ .runMixer => .extPcmInitLock
  | .extPcm pcm _ => .mixerLock pcm

/-- One of the functions goes without the mutex. -/
def HalField.unprotected : HalField → Bool
  | .static .pcmConfigOut => true
  | .static .pcmConfigIn => true
  | .static .propValue => true
  | .static .outPeriodMs => true
  | .static .inPeriodMs => true
  | .static .sharedExtPcm => true
  | .device .lastPatchId => true
  | .device .masterMute => true
  | .device .outBusStreamMap => true
  | .device .inBusToneFrequencyMap => true
  | .device .nextToneFrequencyToAssign => true
  | .out _ .gainStage => true
  | .out _ .amplitudeRatio => true
  | .out _ .enabledChannels => true
  | .out _ .workerThread => true
  | .input _ .device => true
  | .input _ .busAddress => true
  | .input _ .workerThread => true
  | .input _ .oscillator => true
  | .extPcm _ .mixerPipelineMap => true
  | .extPcm _ .mixerThread => true
  | _ => false

def HalField.guard (f : HalField) : Option HalMutex := if f.unprotected then none else some f.lock

def halOrder : Order HalMutex HalThread HalField where
  mutex := HalMutex.place
  thread := HalThread.place
  mayWait := HalThread.MayWait
  guard := HalField.guard
  top := 5
  mutex_lt m := by cases m <;> simp
  thread_lt t := by cases t <;> simp

@[simp] theorem halOrder_mutex (m : HalMutex) : halOrder.mutex m = m.place := rfl

@[simp] theorem halOrder_thread (t : HalThread) : halOrder.thread t = t.place := rfl

@[simp] theorem halOrder_mayWait (t : HalThread) : halOrder.mayWait t ↔ t.MayWait := Iff.rfl

/-! ### Each program keeps to the order -/

variable {t : HalThread} {Q E : List HalMutex → Prop} {h : List HalMutex}

/-- Statements keep to the order when they have the mutexes of the protected fields. -/
theorem access_orderly (reads writes : List HalField) :
    (Code.access reads writes : HalCode).Orderly halOrder t Q E h ↔
      (∀ f ∈ reads ++ writes, f.unprotected ∨ f.lock ∈ h) ∧ Q h := by
  have hguard : ∀ f : HalField, (∀ m ∈ halOrder.guard f, m ∈ h) ↔ f.unprotected ∨ f.lock ∈ h := by
    intro f
    change (∀ m ∈ f.guard, m ∈ h) ↔ _
    by_cases hf : f.unprotected
    · simp [HalField.guard, hf]
    · simp [HalField.guard, hf]
  simp only [Code.Orderly, hguard]

@[simp] theorem staticAccess_orderly (reads writes : List StaticField) :
    (staticAccess reads writes).Orderly halOrder t Q E h ↔
      (∀ f ∈ reads ++ writes, (HalField.static f).unprotected ∨ (HalField.static f).lock ∈ h) ∧ Q h := by
  rw [staticAccess, access_orderly, ← List.map_append, List.forall_mem_map]

@[simp] theorem vbufferAccess_orderly (reads writes : List RingBuffer) :
    (vbufferAccess reads writes).Orderly halOrder t Q E h ↔ (∀ b ∈ reads ++ writes, .vbufferLock b ∈ h) ∧ Q h := by
  rw [vbufferAccess, access_orderly, ← List.map_append, List.forall_mem_map]
  simp only [HalField.unprotected, Bool.false_eq_true, false_or, HalField.lock]

@[simp] theorem deviceAccess_orderly (reads writes : List DeviceField) :
    (deviceAccess reads writes).Orderly halOrder t Q E h ↔
      (∀ f ∈ reads ++ writes, (HalField.device f).unprotected ∨ .deviceLock ∈ h) ∧ Q h := by
  rw [deviceAccess, access_orderly, ← List.map_append, List.forall_mem_map]
  rfl

@[simp] theorem outAccess_orderly (stream : Nat) (reads writes : List OutField) :
    (outAccess stream reads writes).Orderly halOrder t Q E h ↔
      (∀ f ∈ reads ++ writes, (HalField.out stream f).unprotected ∨ .outLock stream ∈ h) ∧ Q h := by
  rw [outAccess, access_orderly, ← List.map_append, List.forall_mem_map]
  rfl

@[simp] theorem inAccess_orderly (stream : Nat) (reads writes : List InField) :
    (inAccess stream reads writes).Orderly halOrder t Q E h ↔
      (∀ f ∈ reads ++ writes, (HalField.input stream f).unprotected ∨ .inLock stream ∈ h) ∧ Q h := by
  rw [inAccess, access_orderly, ← List.map_append, List.forall_mem_map]
  rfl

@[simp] theorem pcmAccess_orderly (pcm : Nat) (reads writes : List PcmField) :
    (pcmAccess pcm reads writes).Orderly halOrder t Q E h ↔
      (∀ f ∈ reads ++ writes, (HalField.extPcm pcm f).unprotected ∨ (HalField.extPcm pcm f).lock ∈ h) ∧ Q h := by
  rw [pcmAccess, access_orderly, ← List.map_append, List.forall_mem_map]

@[simp] theorem under_orderly (m : HalMutex) (p : HalCode) :
    (under m p).Orderly halOrder t Q E h ↔
      t.place < m.place ∧ (∀ m' ∈ h, m'.place < m.place) ∧
        p.Orderly halOrder t (fun h' => ∃ rest, h' = m :: rest ∧ Q rest) E (m :: h) := Iff.rfl

@[simp] theorem maybe_orderly (p : HalCode) :
    (maybe p).Orderly halOrder t Q E h ↔ p.Orderly halOrder t Q E h ∧ Q h := Iff.rfl

theorem anyOf_orderly {ps : List HalCode} (hps : ∀ p ∈ ps, p.Orderly halOrder t Q E h) (hQ : Q h) :
    (anyOf ps).Orderly halOrder t Q E h := by
  induction ps with
  | nil => exact hQ
  | cons p ps ih =>
      exact ⟨hps p List.mem_cons_self, ih fun q hq => hps q (List.mem_cons_of_mem p hq)⟩

-- Below, the fields are those that the functions name, so it evaluates.
attribute [simp] HalField.unprotected

/-- A worker opens and closes its PCM with its stream's mutex held, which comes before everything that the close waits
for. -/
theorem extPcmClose_orderly (stream pcm : Nat) :
    (extPcmClose pcm).Orderly halOrder (.outWriteWorker stream) Q E [.outLock stream] ↔ Q [.outLock stream] := by
  simp [extPcmClose]

theorem extPcmOpen_orderly (stream pcm : Nat) :
    (extPcmOpen pcm).Orderly halOrder (.outWriteWorker stream) Q E [.outLock stream] ↔ Q [.outLock stream] := by
  simp [extPcmOpen]

/-- It writes without its stream's mutex, so it waits for the mixer with the mixer's mutex alone. -/
theorem extPcmWrite_orderly (stream pcm : Nat) :
    (extPcmWrite pcm).Orderly halOrder (.outWriteWorker stream) Q E [] ↔ Q [] := by
  simp [extPcmWrite, mixerPipelineWrite]

theorem outWriteWorker_keeps (stream : Nat) : (outWriteWorker stream).Keeps halOrder (.outWriteWorker stream) := by
  simp [outWriteWorker, Code.Keeps, audioVbufferLive, audioVbufferRead, isZoneSelectedToPlay, extPcmOpen_orderly,
    extPcmClose_orderly, extPcmWrite_orderly]

theorem inReadWorker_keeps (stream : Nat) : (inReadWorker stream).Keeps halOrder (.inReadWorker stream) := by
  simp [inReadWorker, Code.Keeps, audioVbufferWrite]

theorem mixerThreadLoop_keeps (pcm : Nat) : (mixerThreadLoop pcm).Keeps halOrder (.mixerThreadLoop pcm) := by
  simp [mixerThreadLoop, Code.Keeps]

/-- A call starts and ends without mutexes. -/
theorem halCalls_keep (n stream : Nat) : ∀ p ∈ halCalls stream, p.Keeps halOrder (.client n) := by
  simp [halCalls, Code.Keeps, periodProperty, audioGetProperty, getOutPeriodMs, getOutPeriodCount, getInPeriodMs,
    getInPeriodCount, getInputBufferSize, inGetBufferSize, adevGetInputBufferSize, audioVbufferDead,
    audioVbufferWrite, audioVbufferRead, adevOpen, adevClose, adevSetParameters, adevSetMasterMute,
    adevGetMasterMute, adevSetMicMute, adevGetMicMute, adevSetAudioPortConfig, adevCreateAudioPatch,
    setDeviceAddressIsDucked, setDeviceAddressIsMuted, getAudioDevice, adevOpenOutputStream,
    getCurrentOutputPosition, outStandby, doOutStandby, outApplyGain, outWrite, outDump, outSetParameters,
    outGetParameters, outGetPresentationPosition, outGetRenderPosition, adevCloseOutputStream,
    increaseNextToneFrequency, createOrFetchToneFrequency, adevOpenInputStream, getCurrentInputPosition, inStandby,
    doInStandby, inRead, inDump, inSetParameters, inGetParameters, inGetCapturePosition, adevCloseInputStream]

theorem client_keeps (n : Nat) : client.Keeps halOrder (.client n) := by
  refine ⟨rfl, fun stream => anyOf_orderly (fun p hp => ?_) rfl⟩
  exact (halCalls_keep n stream p hp).mono (fun _ => id) (fun _ => False.elim)

theorem halProgram_keeps (t : HalThread) : (halProgram t).Keeps halOrder t := by
  cases t with
  | client n => exact client_keeps n
  | outWriteWorker stream => exact outWriteWorker_keeps stream
  | inReadWorker stream => exact inReadWorker_keeps stream
  | mixerThreadLoop pcm => exact mixerThreadLoop_keeps pcm

/-! ### Circles -/

/-- However the calls of any number of threads interleave with the workers and the mixers, no threads wait for each
other in a circle, and behind every thread that is blocked on a mutex there is one that can take its next step. Threads
that sleep may do so for ever, and so may those that join them. -/
theorem no_circular_wait {s : Machine HalMutex HalThread Nat HalField} (hs : Reachable lockStep (.start halProgram) s) :
    (∀ t, ¬ Relation.TransGen (WaitsFor s) t t) ∧
      ∀ t m k u, s.threads t = .run (.lock m) k → s.owner m = some u →
        ∃ v, Relation.TransGen (WaitsFor s) t v ∧ Ready s v ∧ ∃ l s', l.thread = v ∧ lockStep s l = some (s', []) := by
  obtain ⟨held, horderly⟩ := reachable_orderly halProgram_keeps hs
  refine ⟨fun t => horderly.no_cycle, fun t m k u hat howner => ?_⟩
  obtain ⟨v, hchain, hready⟩ := horderly.lock_progress hat howner
  exact ⟨v, hchain, hready, hready.steps⟩

/-- A thread on its way into `adev_open`, up to its mutex. -/
def entersOpen (n : Nat) : List (Label HalThread Nat) :=
  [⟨.client n, true, 0⟩, ⟨.client n, true, 0⟩, ⟨.client n, false, 0⟩, ⟨.client n, true, 0⟩, ⟨.client n, true, 0⟩,
    ⟨.client n, true, 0⟩, ⟨.client n, true, 0⟩, ⟨.client n, true, 0⟩, ⟨.client n, true, 0⟩]

/-- Two threads call `adev_open`, and one is blocked on the other. -/
theorem no_circular_wait_open : ∃ s k, Reachable lockStep (.start halProgram) s ∧
    s.threads (.client 1) = .run (.lock .moduleLock) k ∧ s.owner .moduleLock = some (.client 0) ∧
      ∃ v, Relation.TransGen (WaitsFor s) (.client 1) v ∧ Ready s v := by
  obtain ⟨s, k, hrun, hat, howner⟩ : ∃ s k, exec lockStep (.start halProgram)
      (entersOpen 0 ++ [⟨.client 0, true, 0⟩] ++ entersOpen 1) = some (s, []) ∧
        s.threads (.client 1) = .run (.lock .moduleLock) k ∧ s.owner .moduleLock = some (.client 0) :=
    ⟨_, _, rfl, rfl, rfl⟩
  have hs : Reachable lockStep (.start halProgram) s := ⟨_, _, hrun⟩
  obtain ⟨v, hchain, hready, -⟩ := (no_circular_wait hs).2 (.client 1) .moduleLock k (.client 0) hat howner
  exact ⟨s, k, hs, hat, howner, v, hchain, hready⟩

/-- No function releases, or waits with, a mutex that it does not hold, takes one twice, sleeps with another one, or
ends a thread with one. -/
theorem locks_disciplined {s : Machine HalMutex HalThread Nat HalField}
    (hs : Reachable lockStep (.start halProgram) s) : Disciplined s := by
  obtain ⟨held, horderly⟩ := reachable_orderly halProgram_keeps hs
  exact horderly.disciplined

theorem locks_disciplined_open : ∃ s k, Reachable lockStep (.start halProgram) s ∧
    s.threads (.client 0) = .run (.unlock .moduleLock) k ∧ s.owner .moduleLock = some (.client 0) := by
  obtain ⟨s, k, hrun, hat⟩ : ∃ s k, exec lockStep (.start halProgram)
      (entersOpen 0 ++ List.replicate 7 ⟨.client 0, true, 0⟩) = some (s, []) ∧
        s.threads (.client 0) = .run (.unlock .moduleLock) k := ⟨_, _, rfl, rfl⟩
  have hs : Reachable lockStep (.start halProgram) s := ⟨_, _, hrun⟩
  exact ⟨s, k, hs, hat, (locks_disciplined hs).unlocks _ _ k hat⟩

end Trout.Locks
