import Trout.OutputStream
import Trout.StreamBuffer

/-! The input stream of `audio_hw.c` and the bodies of the sections that its functions run under
`in->lock`. Times are nanoseconds of the monotonic clock. The tone of `pseudo_pcm_read` is floating
point, so it enters as an arbitrary function of the sample's index. -/

namespace Trout.Audio
open CInt Pcm16 RingWindow

/-- `audio_devices_t`: the input devices that a stream tells apart. -/
inductive AudioDevice where
  | fmTuner
  | bus
  | backMic
  | builtinMic
  | other
  deriving DecidableEq

/-- `struct generic_stream_in`: the fields its functions and the worker use under the lock. -/
structure GenericStreamIn where
  device : AudioDevice
  busAddress : Option String
  reqConfig : AudioConfig
  pcmConfig : PcmConfig
  stereoToMonoBuf : Option (Nat → UInt8)
  stereoToMonoBufSize : Nat
  buffer : AudioVbuffer
  standby : Bool
  standbyPosition : Int
  standbyExitTime : Nat
  standbyFramesRead : Int
  workerStandby : Bool
  workerExit : Bool

/-- `adev_open_input_stream`, up to the start of the worker, with the address that it copies afterwards. -/
def adevOpenInputStream (allocated : Bool) (calloc : Nat → Bool) (p : PeriodProperties) (device : AudioDevice)
    (address : Option String) (config : AudioConfig) : Except Errno GenericStreamIn :=
  let refined := refineInputParameters config
  if refined.2 then
    .error .einval
  else if ¬ allocated then
    .error .enomem
  else
    let pcmConfig := pcmConfigFor refined.1.sampleRate p
    match audioVbufferInit calloc pcmConfig.capacity pcmConfig.frameSize with
    | .error e => .error e
    | .ok buffer =>
        .ok
          { device := device, busAddress := address, reqConfig := refined.1, pcmConfig := pcmConfig
            stereoToMonoBuf := none, stereoToMonoBufSize := 0, buffer := buffer
            standby := true, standbyPosition := 0, standbyExitTime := 0, standbyFramesRead := 0
            workerStandby := true, workerExit := false }

def inGetSampleRate (inp : GenericStreamIn) : Nat := inp.reqConfig.sampleRate.toNat

def audioStreamInFrameSize (inp : GenericStreamIn) : Nat := inp.reqConfig.frameSize

/-- `strstr(address, TONE_ADDRESS_KEYWORD) != NULL` -/
def addressHasToneKeyword (address : String) : Bool := decide ("_tone_".toList <:+: address.toList)

/-- Without a result for a bus device without an address, where `strstr` reads a null pointer. -/
def isToneGeneratorDevice (inp : GenericStreamIn) : Option Bool :=
  match inp.device with
  | .fmTuner => some true
  | .bus => inp.busAddress.map addressHasToneKeyword
  | _ => some false

def isMicrophoneDevice (inp : GenericStreamIn) : Bool :=
  inp.device = .backMic ∨ inp.device = .builtinMic

/-! ### Time and position -/

/-- `get_current_input_position` at time `now` -/
def getCurrentInputPosition (inp : GenericStreamIn) (now : Nat) : Int :=
  inp.standbyPosition + if inp.standby then 0 else framesSince (inGetSampleRate inp) now inp.standbyExitTime

def doInStandby (inp : GenericStreamIn) (now : Nat) : GenericStreamIn :=
  if inp.standby then inp
  else
    let resting := { inp with workerStandby := true }
    { resting with standbyPosition := getCurrentInputPosition resting now, standby := true }

/-! ### `in_read` -/

/-- The arguments and locals of an `in_read` during its sleep. -/
structure ReadCall where
  buffer : Nat → UInt8
  bytes : Nat
  readMute : Bool
  isToneGenerator : Bool

/-- The part of `in_read` before its sleep: the stream and `frames_available`. -/
def inReadEnter (inp : GenericStreamIn) (now : Nat) : GenericStreamIn × Int :=
  let awake := { inp with workerStandby := false }
  let currentPosition := getCurrentInputPosition awake now
  let started :=
    if awake.standby then { awake with standby := false, standbyExitTime := now, standbyFramesRead := 0 } else awake
  (started, currentPosition - started.standbyPosition - started.standbyFramesRead)

/-- `sleep_time_us` of `in_read`; the product and the quotient are unsigned. -/
def inReadSleepTimeUs (inp : GenericStreamIn) (framesAvailable : Int) (frames : Nat) : Int :=
  let framesWait := if toSize framesAvailable > frames then 0 else sizeSub frames (toSize framesAvailable)
  toLong (sizeMul framesWait 1000000 / inGetSampleRate inp : Nat)

/-- `pseudo_pcm_read`: the caller's buffer and the number of bytes. -/
def pseudoPcmRead (tone : Nat → Int16) (data : Nat → UInt8) (count : Nat) : (Nat → UInt8) × Int :=
  (fun a => if a / 2 < count / 2 then bytesOf tone a else data a, toInt (count : Nat))

/-- The loop that keeps the first of each pair of samples. -/
def stereoToMono (src dst : Nat → UInt8) (frames : Nat) : Nat → UInt8 :=
  fun a => if a / 2 < frames then bytesOf (fun i => samplesOf src (2 * i)) a else dst a

/-- What fills the caller's buffer after the sleep: the stream, the buffer and `read_frames`. `tone` and
`realloc` are the environment's. -/
def inReadFill (inp : GenericStreamIn) (c : ReadCall) (tone : Nat → Int16) (realloc : Nat → Option (Nat → UInt8)) :
    Option (GenericStreamIn × (Nat → UInt8) × Int) :=
  let frames := c.bytes / audioStreamInFrameSize inp
  if inp.standby then
    some (inp, c.buffer, 0)
  else
    let counted := { inp with standbyFramesRead := toLong (inp.standbyFramesRead + frames) }
    if c.isToneGenerator then
      let read := pseudoPcmRead tone c.buffer (toUint c.bytes)
      some (counted, read.1, toInt (toSize read.2 / audioStreamInFrameSize inp : Nat))
    else if popcount inp.reqConfig.channelMask = 1 ∧ inp.pcmConfig.channels = 2 then
      let sized :=
        if inp.stereoToMonoBufSize < sizeMul c.bytes 2 then
          { counted with stereoToMonoBuf := realloc (sizeMul c.bytes 2) }
        else
          counted
      match sized.stereoToMonoBuf with
      | none => if inp.stereoToMonoBufSize < sizeMul c.bytes 2 ∨ frames = 0 then some (sized, c.buffer, 0) else none
      | some memory =>
          (audioVbufferRead inp.buffer memory frames).map fun r =>
            ({ sized with buffer := r.1, stereoToMonoBuf := some r.2.1 }, stereoToMono r.2.1 c.buffer frames,
              toInt (r.2.2 : Nat))
    else
      (audioVbufferRead inp.buffer c.buffer frames).map fun r =>
        ({ counted with buffer := r.1 }, r.2.1, toInt (r.2.2 : Nat))

/-- `read_bytes` at the end of `in_read`. -/
def inReadBytes (inp : GenericStreamIn) (c : ReadCall) (readFrames : Int) : Nat :=
  if c.readMute then 0 else sizeMul (toSize readFrames) (audioStreamInFrameSize inp)

/-- The `memset` of the rest of the caller's buffer. -/
def inReadZero (c : ReadCall) (buffer : Nat → UInt8) (readBytes : Nat) : Nat → UInt8 :=
  fun a => if readBytes ≤ a ∧ a < c.bytes then 0 else buffer a

end Trout.Audio
