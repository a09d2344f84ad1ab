import Trout.OutputStream
import Trout.Runs

/-! The threads of an output stream: client threads in `out_write`, `out_standby`,
`out_get_presentation_position` and `adev_close_output_stream`, and the worker thread. A step is one
section under `out->lock`, from the acquisition of the lock to its release, a sleep or a wait. What the
environment decides (times, mutes, gains, allocations, the zone, which waiter a signal wakes) is in the
labels. Waits can end without a signal. -/

namespace Trout.Audio
open CInt RingWindow

/-- Where a client thread stands between its sections. -/
inductive ClientPc where
  | idle
  | writeSleeping (buffer : Nat → UInt8) (bytes : Nat)
  | writeWaiting (c : WriteCall) (woken : Bool)
  | standbySleeping (closing : Bool)
  | joining

/-- Blocked on `write_wake`. -/
def ClientPc.blocked : ClientPc → Bool
  | .writeWaiting _ woken => !woken
  | _ => false

/-- `ext_pcm` with the worker's `buffer` and `buffer_frames`. -/
structure OpenPcm where
  memory : Nat → UInt8
  bufferFrames : Int

/-- The locals of `out_write_worker`. -/
structure WorkerLocals where
  extPcm : Option OpenPcm
  restart : Bool

/-- Where the worker stands: before its loop body, in one of its two waits, after the read or ended. -/
inductive WorkerPc where
  | top (w : WorkerLocals)
  | standbyWait (w : WorkerLocals) (woken : Bool)
  | emptyWait (w : WorkerLocals) (woken : Bool)
  | playing (w : WorkerLocals) (frames : Int)
  | terminated

/-- `pthread_cond_signal(&out->worker_wake)` -/
def WorkerPc.signal : WorkerPc → WorkerPc
  | .standbyWait w _ => .standbyWait w true
  | .emptyWait w _ => .emptyWait w true
  | pc => pc

inductive OutputEvent where
  /-- Frames appended to the ring buffer. -/
  | stored (frames : List (List UInt8))
  /-- An `out_write` that stored its frames has returned. -/
  | returned (c : WriteCall)
  /-- A muted `out_write` has returned. -/
  | muted (frames : Nat)
  | position (frames : Nat) (now : Nat)

/-- The outcome of a section: the stream, where the thread stands, whether the other side's condition
variable was signalled, and the events. -/
structure Section (π : Type) where
  out : GenericStreamOut
  pc : π
  signals : Bool
  events : List OutputEvent

/-! ### Sections of the clients -/

/-- What the environment decides about a store: the mutes and the gain. -/
structure WriteEnv where
  muted : Bool
  gain : Nat → Int16 → Int16

inductive ClientLabel where
  | write (buffer : Nat → UInt8) (bytes : UInt64) (now : Nat) (env : WriteEnv)
  | writeSlept (env : WriteEnv)
  | writeResume
  | writeSpurious
  | standby (closing : Bool) (now : Nat)
  | standbySlept (now : Nat)
  | presentationPosition (now : Nat)

/-- One turn of the store loop, up to the wait or the return of `out_write`. -/
def storeLoop (out : GenericStreamOut) (c : WriteCall) : Option (Section ClientPc) :=
  match c.store out with
  | none => none
  | some (out', c') =>
      let stored := OutputEvent.stored (records c.buffer (audioStreamOutFrameSize out) c.framesWritten
        (c'.framesWritten - c.framesWritten))
      if c'.framesWritten < c'.frames then
        some ⟨out', .writeWaiting c' false, true, [stored]⟩
      else
        some ⟨outWriteDone out' c'.frames, .idle, true, [stored, .returned c']⟩

/-- The call that `out_write` starts to store, none when it is muted. -/
def startStore (out : GenericStreamOut) (buffer : Nat → UInt8) (bytes : Nat) (env : WriteEnv) :
    Option WriteCall :=
  if env.muted then none
  else (outApplyGain env.gain buffer bytes).map fun adjusted =>
    ⟨adjusted, bytes, bytes / audioStreamOutFrameSize out, 0⟩

/-- `out_write` after its sleep. -/
def storeSection (out : GenericStreamOut) (buffer : Nat → UInt8) (bytes : Nat) (env : WriteEnv) :
    Option (Section ClientPc) :=
  if env.muted then
    let frames := bytes / audioStreamOutFrameSize out
    some ⟨outWriteDone out frames, .idle, false, [.muted frames]⟩
  else
    match startStore out buffer bytes env with
    | none => none
    | some c => storeLoop out c

/-- What follows `do_out_standby`: the return of `out_standby`, or the exit request of a close. -/
def standbyEnd (out : GenericStreamOut) (closing : Bool) : Section ClientPc :=
  if closing then ⟨{ out with workerExit := true }, .joining, true, []⟩ else ⟨out, .idle, false, []⟩

def standbyLoop (out : GenericStreamOut) (closing : Bool) (now : Nat) : Section ClientPc :=
  let turn := doOutStandbyTurn out now
  if turn.2 = 0 then standbyEnd (doOutStandbyDone turn.1) closing
  else ⟨turn.1, .standbySleeping closing, false, []⟩

/-- `out_write` up to its sleep, or through its first store when it does not sleep. -/
def writeSection (out : GenericStreamOut) (buffer : Nat → UInt8) (bytes now : Nat) (env : WriteEnv) :
    Option (Section ClientPc) :=
  let entered := outWriteEnter out now (bytes / audioStreamOutFrameSize out)
  if entered.2 > 0 then some ⟨entered.1, .writeSleeping buffer bytes, false, []⟩
  else storeSection entered.1 buffer bytes env

def clientSection (out : GenericStreamOut) : ClientPc → ClientLabel → Option (Section ClientPc)
  | .idle, .write buffer bytes now env => writeSection out buffer bytes.toNat now env
  | .writeSleeping buffer bytes, .writeSlept env => storeSection out buffer bytes env
  | .writeWaiting c true, .writeResume => storeLoop out c
  | .writeWaiting c false, .writeSpurious => some ⟨out, .writeWaiting c true, false, []⟩
  | .idle, .standby closing now =>
      some (if out.standby then standbyEnd out closing else standbyLoop out closing now)
  | .standbySleeping closing, .standbySlept now => some (standbyLoop out closing now)
  | .idle, .presentationPosition now =>
      let current := getCurrentOutputPosition out now
      some ⟨current.1, .idle, false, [.position current.2 now]⟩
  | _, _ => none

/-- The stream and the call at the `audio_vbuffer_write` of a client's next section, if it reaches one. -/
def storeCall (out : GenericStreamOut) : ClientPc → ClientLabel → Option (GenericStreamOut × WriteCall)
  | .idle, .write buffer bytes now env =>
      let entered := outWriteEnter out now (bytes.toNat / audioStreamOutFrameSize out)
      if entered.2 > 0 then none
      else (startStore entered.1 buffer bytes.toNat env).map fun c => (entered.1, c)
  | .writeSleeping buffer bytes, .writeSlept env => (startStore out buffer bytes env).map fun c => (out, c)
  | .writeWaiting c true, .writeResume => some (out, c)
  | _, _ => none

/-! ### Sections of the worker -/

/-- What the environment decides about a section of the worker: whether the opened PCM is ready, what
`malloc` returns, whether the stream's zone is selected and whether `ext_pcm_write` fails. -/
structure WorkerEnv where
  ready : Bool
  malloc : Nat → Option (Nat → UInt8)
  selected : Bool
  writeError : Bool

/-- The open PCM for the next read, none when the worker gives up. -/
def openPcm (out : GenericStreamOut) (w : WorkerLocals) (env : WorkerEnv) : Option OpenPcm :=
  match w.extPcm with
  | some pcm => some pcm
  | none =>
      if env.ready then
        let bufferFrames := toInt out.pcmConfig.periodSize.toNat
        let bufferSize := toInt (out.pcmConfig.framesToBytes (toUint bufferFrames) : Nat)
        (env.malloc (toSize bufferSize)).map fun memory => ⟨memory, bufferFrames⟩
      else
        none

/-- The worker from the end of its waits to the release of the lock. -/
def fetchSection (out : GenericStreamOut) (w : WorkerLocals) (env : WorkerEnv) : Option (Section WorkerPc) :=
  match openPcm out w env with
  | none => some ⟨out, .terminated, false, []⟩
  | some pcm =>
      match audioVbufferRead out.buffer pcm.memory (toSize pcm.bufferFrames) with
      | none => none
      | some (buffer, memory, count) =>
          some ⟨{ out with buffer := buffer },
            .playing { w with extPcm := some { pcm with memory := memory } } (toInt (count : Nat)), true, []⟩

/-- The wait for data. -/
def emptyLoop (out : GenericStreamOut) (w : WorkerLocals) (env : WorkerEnv) : Option (Section WorkerPc) :=
  if audioVbufferLive out.buffer = 0 then some ⟨out, .emptyWait w false, false, []⟩
  else fetchSection out w env

/-- The wait in standby, which closes the PCM, and the test for the exit request. -/
def standbyCheck (out : GenericStreamOut) (w : WorkerLocals) (env : WorkerEnv) : Option (Section WorkerPc) :=
  if out.workerStandby || w.restart then
    if out.workerExit then some ⟨out, .terminated, false, []⟩
    else some ⟨out, .standbyWait ⟨none, false⟩ false, false, []⟩
  else if out.workerExit then
    some ⟨out, .terminated, false, []⟩
  else
    emptyLoop out w env

def workerSection (out : GenericStreamOut) (env : WorkerEnv) : WorkerPc → Option (Section WorkerPc)
  | .top w => standbyCheck out w env
  | .standbyWait w true => standbyCheck out w env
  | .emptyWait w true => emptyLoop out w env
  | .playing w _ => some ⟨out, .top { w with restart := w.restart || (env.selected && env.writeError) }, false, []⟩
  | _ => none

/-! ### The system -/

structure OutputSystem (n : Nat) where
  out : GenericStreamOut
  clients : Fin n → ClientPc
  worker : WorkerPc
  /-- The stream has been closed and freed. -/
  freed : Bool

/-- A stream just opened. -/
def OutputSystem.init (n : Nat) (out : GenericStreamOut) : OutputSystem n :=
  ⟨out, fun _ => .idle, .top ⟨none, false⟩, false⟩

inductive OutputLabel (n : Nat) where
  | client (i : Fin n) (l : ClientLabel)
  | join (i : Fin n)
  | worker (env : WorkerEnv) (wake : Option (Fin n))
  | workerSpurious

/-- `pthread_cond_signal(&out->write_wake)`: it wakes a blocked writer when there is one. -/
def signalWriter {n : Nat} (clients : Fin n → ClientPc) : Option (Fin n) → Option (Fin n → ClientPc)
  | none => if ∃ i, (clients i).blocked then none else some clients
  | some i =>
      match clients i with
      | .writeWaiting c false => some (Function.update clients i (.writeWaiting c true))
      | _ => none

def clientStep {n : Nat} (s : OutputSystem n) (i : Fin n) (l : ClientLabel) :
    Option (OutputSystem n × List OutputEvent) :=
  (clientSection s.out (s.clients i) l).map fun r =>
    ({ s with
       out := r.out
       clients := Function.update s.clients i r.pc
       worker := if r.signals then s.worker.signal else s.worker }, r.events)

def workerStep {n : Nat} (s : OutputSystem n) (env : WorkerEnv) (wake : Option (Fin n)) :
    Option (OutputSystem n × List OutputEvent) :=
  match workerSection s.out env s.worker with
  | none => none
  | some r =>
      if r.signals then
        (signalWriter s.clients wake).map fun clients =>
          ({ s with out := r.out, clients := clients, worker := r.pc }, r.events)
      else
        some ({ s with out := r.out, worker := r.pc }, r.events)

def outputStep {n : Nat} (s : OutputSystem n) (l : OutputLabel n) :
    Option (OutputSystem n × List OutputEvent) :=
  if s.freed then none
  else
    match l with
    | .client i l => clientStep s i l
    | .join i =>
        match s.clients i, s.worker with
        | .joining, .terminated => some ({ s with freed := true }, [])
        | _, _ => none
    | .worker env wake => workerStep s env wake
    | .workerSpurious =>
        match s.worker with
        | .standbyWait w false => some ({ s with worker := .standbyWait w true }, [])
        | .emptyWait w false => some ({ s with worker := .emptyWait w true }, [])
        | _ => none

end Trout.Audio
