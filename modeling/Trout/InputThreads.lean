import Trout.InputStream
import Trout.Runs

/-! The threads of an input stream: client threads in `in_read`, `in_standby`, `in_get_capture_position`
and `adev_close_input_stream`, and the worker thread. A step is one section under `in->lock`, or the
worker's `pcm_read`, which runs without the lock. What the environment decides (times, the mute,
allocations, the device's results) is in the labels. Waits can end without a signal. -/

namespace Trout.Audio
open CInt RingWindow

/-- Where a client thread stands between its sections. -/
inductive ReaderPc where
  | idle
  | readSleeping (c : ReadCall)
  | joining

/-- `pcm` with the worker's `buffer` and `buffer_frames`. -/
structure CapturePcm where
  memory : Nat → UInt8
  bufferFrames : Nat

/-- Where `in_read_worker` stands: before its loop body, in its wait, before and after `pcm_read`, or ended;
with its `pcm` and its `restart`. -/
inductive CapturePc where
  | top (pcm : Option CapturePcm) (restart : Bool)
  | standbyWait (pcm : Option CapturePcm) (restart woken : Bool)
  | reading (pcm : CapturePcm) (restart : Bool)
  | storing (pcm : CapturePcm) (restart : Bool)
  | terminated

/-- `pthread_cond_signal(&in->worker_wake)` -/
def CapturePc.signal : CapturePc → CapturePc
  | .standbyWait pcm restart _ => .standbyWait pcm restart true
  | pc => pc

inductive InputEvent where
  /-- The frames of a `pcm_read` that returned 0. -/
  | captured (frames : List (List UInt8))
  /-- Frames appended to the ring buffer. -/
  | stored (frames : List (List UInt8))
  /-- An `in_read` has returned, its buffer starting with this many frames. -/
  | returned (c : ReadCall) (buffer : Nat → UInt8) (frames : Nat)
  | position (frames : Int) (now : Nat)

structure InputSection (π : Type) where
  inp : GenericStreamIn
  pc : π
  signals : Bool
  events : List InputEvent

/-! ### Sections of the clients -/

inductive ReaderLabel where
  | read (buffer : Nat → UInt8) (bytes : UInt64) (now : Nat) (micMute : Bool)
  | readSlept (tone : Nat → Int16) (realloc : Nat → Option (Nat → UInt8))
  | standby (now : Nat)
  | close (now : Nat)
  | capturePosition (now : Nat)

/-- `in_read` up to its sleep; there is no result when its assertion fails. -/
def readSection (inp : GenericStreamIn) (buffer : Nat → UInt8) (bytes now : Nat) (micMute : Bool) :
    Option (InputSection ReaderPc) :=
  match isToneGeneratorDevice inp with
  | none => none
  | some isToneGenerator =>
      let entered := inReadEnter inp now
      if 0 ≤ entered.2 then
        some ⟨entered.1, .readSleeping ⟨buffer, bytes, micMute && isMicrophoneDevice inp, isToneGenerator⟩,
          !isToneGenerator, []⟩
      else
        none

/-- `in_read` after its sleep. -/
def fillSection (inp : GenericStreamIn) (c : ReadCall) (tone : Nat → Int16) (realloc : Nat → Option (Nat → UInt8)) :
    Option (InputSection ReaderPc) :=
  (inReadFill inp c tone realloc).map fun r =>
    ⟨r.1, .idle, false,
      [.returned c (inReadZero c r.2.1 (inReadBytes inp c r.2.2)) (if c.readMute then 0 else toUint r.2.2)]⟩

def readerSection (inp : GenericStreamIn) : ReaderPc → ReaderLabel → Option (InputSection ReaderPc)
  | .idle, .read buffer bytes now micMute => readSection inp buffer bytes.toNat now micMute
  | .readSleeping c, .readSlept tone realloc => fillSection inp c tone realloc
  | .idle, .standby now => some ⟨doInStandby inp now, .idle, false, []⟩
  | .idle, .close now => some ⟨{ doInStandby inp now with workerExit := true }, .joining, true, []⟩
  | .idle, .capturePosition now => some ⟨inp, .idle, false, [.position (getCurrentInputPosition inp now) now]⟩
  | _, _ => none

/-! ### Sections of the worker -/

/-- Whether the opened PCM is ready, and what `malloc` returns. -/
structure CaptureEnv where
  ready : Bool
  malloc : Nat → Option (Nat → UInt8)

/-- The open PCM for the next `pcm_read`, none when the worker gives up. -/
def openCapture (inp : GenericStreamIn) (pcm : Option CapturePcm) (env : CaptureEnv) : Option CapturePcm :=
  match pcm with
  | some pcm => some pcm
  | none =>
      if env.ready then
        let bufferFrames := inp.pcmConfig.periodSize.toNat
        let bufferSize := toInt (inp.pcmConfig.framesToBytes (toUint bufferFrames) : Nat)
        (env.malloc (toSize bufferSize)).map fun memory => ⟨memory, bufferFrames⟩
      else
        none

/-- The loop that waits in standby and closes the PCM, the test for the exit request and the opening. -/
def captureCheck (inp : GenericStreamIn) (pcm : Option CapturePcm) (restart : Bool) (env : CaptureEnv) :
    InputSection CapturePc :=
  if inp.workerStandby || restart then
    if inp.workerExit then ⟨inp, .terminated, false, []⟩
    else ⟨inp, .standbyWait none false false, false, []⟩
  else if inp.workerExit then
    ⟨inp, .terminated, false, []⟩
  else
    match openCapture inp pcm env with
    | none => ⟨inp, .terminated, false, []⟩
    | some opened => ⟨inp, .reading opened restart, false, []⟩

def captureSection (inp : GenericStreamIn) (env : CaptureEnv) : CapturePc → Option (InputSection CapturePc)
  | .top pcm restart => some (captureCheck inp pcm restart env)
  | .standbyWait pcm restart true => some (captureCheck inp pcm restart env)
  | _ => none

/-- `pcm_read(pcm, buffer, pcm_frames_to_bytes(pcm, buffer_frames))`, which returns `ret` and leaves `data`. -/
def pcmReadSection (inp : GenericStreamIn) (ret : Int32) (data : Nat → UInt8) : CapturePc → Option (InputSection CapturePc)
  | .reading pcm restart =>
      let count := inp.pcmConfig.framesToBytes (toUint pcm.bufferFrames)
      some ⟨inp, .storing { pcm with memory := copy pcm.memory 0 data 0 count } (restart || ret != 0), false,
        if ret = 0 then [.captured (records data inp.pcmConfig.frameSize 0 (count / inp.pcmConfig.frameSize))] else []⟩
  | _ => none

/-- The section that stores the worker's buffer. -/
def storeSectionIn (inp : GenericStreamIn) : CapturePc → Option (InputSection CapturePc)
  | .storing pcm restart =>
      (audioVbufferWrite inp.buffer pcm.memory pcm.bufferFrames).map fun r =>
        ⟨{ inp with buffer := r.1 }, .top (some pcm) restart, false,
          [.stored (records pcm.memory inp.pcmConfig.frameSize 0 r.2)]⟩
  | _ => none

/-! ### The system -/

structure InputSystem (n : Nat) where
  inp : GenericStreamIn
  readers : Fin n → ReaderPc
  worker : CapturePc
  /-- The stream has been closed and freed. -/
  freed : Bool

/-- A stream just opened. -/
def InputSystem.init (n : Nat) (inp : GenericStreamIn) : InputSystem n :=
  ⟨inp, fun _ => .idle, .top none false, false⟩

inductive InputLabel (n : Nat) where
  | reader (i : Fin n) (l : ReaderLabel)
  | join (i : Fin n)
  | capture (env : CaptureEnv)
  | pcmRead (ret : Int32) (data : Nat → UInt8)
  | store
  | captureSpurious

def readerStep {n : Nat} (s : InputSystem n) (i : Fin n) (l : ReaderLabel) :
    Option (InputSystem n × List InputEvent) :=
  (readerSection s.inp (s.readers i) l).map fun r =>
    ({ s with
       inp := r.inp
       readers := Function.update s.readers i r.pc
       worker := if r.signals then s.worker.signal else s.worker }, r.events)

/-- The worker's side after one of its sections. -/
def InputSystem.captured {n : Nat} (s : InputSystem n) (r : InputSection CapturePc) : InputSystem n × List InputEvent :=
  ({ s with inp := r.inp, worker := r.pc }, r.events)

def inputStep {n : Nat} (s : InputSystem n) (l : InputLabel n) : Option (InputSystem n × List InputEvent) :=
  if s.freed then none
  else
    match l with
    | .reader i l => readerStep s i l
    | .join i =>
        match s.readers i, s.worker with
        | .joining, .terminated => some ({ s with freed := true }, [])
        | _, _ => none
    | .capture env => (captureSection s.inp env s.worker).map s.captured
    | .pcmRead ret data => (pcmReadSection s.inp ret data s.worker).map s.captured
    | .store => (storeSectionIn s.inp s.worker).map s.captured
    | .captureSpurious =>
        match s.worker with
        | .standbyWait pcm restart false => some ({ s with worker := .standbyWait pcm restart true }, [])
        | _ => none

end Trout.Audio
