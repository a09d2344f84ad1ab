import Trout.CInt
import Trout.RingWindow

/-! The audio ring buffer of `audio_vbuffer.c`: one block of bytes, two frame indices and a count of
live frames. Lengths and offsets are `size_t`, the length of one transfer is an `int`. An operation
that leaves the allocation, divides by zero or never ends has no result (`none`). The argument
checks for a null buffer are left out, since every caller passes the address of a member. -/

namespace Trout.Audio
open CInt RingWindow

/-- The negative results of the HAL functions. -/
inductive Errno where
  | einval
  | enomem
  | enosys
  | enoent
  deriving DecidableEq

/-- `audio_vbuffer_t`, with the number of bytes that `data` points to. -/
structure AudioVbuffer where
  data : Nat → UInt8
  dataSize : Nat
  frameSize : Nat
  frameCount : Nat
  head : Nat
  tail : Nat
  live : Nat

/-- `calloc` says whether an allocation of that many bytes succeeds. -/
def audioVbufferInit (calloc : Nat → Bool) (frameCount frameSize : Nat) : Except Errno AudioVbuffer :=
  let bytes := sizeMul frameCount frameSize
  if calloc bytes then
    .ok { data := fun _ => 0, dataSize := bytes, frameSize := frameSize, frameCount := frameCount,
          head := 0, tail := 0, live := 0 }
  else
    .error .enomem

def audioVbufferLive (b : AudioVbuffer) : Int := toInt b.live

def audioVbufferDead (b : AudioVbuffer) : Int := toInt (sizeSub b.frameCount b.live : Nat)

/-- The byte offsets and the length of one `memcpy`. -/
structure Memcpy where
  dst : Nat
  src : Nat
  len : Nat
  deriving DecidableEq

/-! ### `audio_vbuffer_write` -/

/-- The variables of the write loop. -/
structure WriteLoop where
  vbuffer : AudioVbuffer
  framesWritten : Nat
  frameCount : Nat

/-- The `frames` of the next iteration, `none` when the loop breaks on a full buffer. -/
def WriteLoop.frames (w : WriteLoop) : Option Int :=
  let b := w.vbuffer
  if b.live = 0 ∨ b.head > b.tail then
    some (toInt (min w.frameCount (sizeSub b.frameCount b.head) : Nat))
  else if b.head < b.tail then
    some (toInt (min w.frameCount (sizeSub b.tail b.head) : Nat))
  else
    none

def WriteLoop.memcpy (w : WriteLoop) (frames : Int) : Memcpy where
  dst := sizeMul w.vbuffer.head w.vbuffer.frameSize
  src := sizeMul w.framesWritten w.vbuffer.frameSize
  len := sizeMul (toSize frames) w.vbuffer.frameSize

/-- The body of one iteration. -/
def WriteLoop.advance (buffer : Nat → UInt8) (w : WriteLoop) (frames : Int) : Option WriteLoop :=
  let b := w.vbuffer
  let c := w.memcpy frames
  if c.dst + c.len ≤ b.dataSize ∧ b.frameCount ≠ 0 then
    some
      { vbuffer :=
          { b with
            data := copy b.data c.dst buffer c.src c.len
            live := (b.live + toSize frames) % sizeMod
            head := (b.head + toSize frames) % sizeMod % b.frameCount }
        framesWritten := (w.framesWritten + toSize frames) % sizeMod
        frameCount := sizeSub w.frameCount (toSize frames) }
  else
    none

/-- The write loop, with the copies it attempts. -/
def writeLoop (buffer : Nat → UInt8) : Nat → WriteLoop → List Memcpy × Option WriteLoop
  | 0, _ => ([], none)
  | fuel + 1, w =>
      if w.frameCount = 0 then
        ([], some w)
      else
        match w.frames with
        | none => ([], some w)
        | some frames =>
            match w.advance buffer frames with
            | none => ([w.memcpy frames], none)
            | some next =>
                let rest := writeLoop buffer fuel next
                (w.memcpy frames :: rest.1, rest.2)

/-- Every iteration moves at least one frame, so `frameCount` of them and a last test are enough. -/
def audioVbufferWrite (b : AudioVbuffer) (buffer : Nat → UInt8) (frameCount : Nat) :
    Option (AudioVbuffer × Nat) :=
  (writeLoop buffer (frameCount + 1) ⟨b, 0, frameCount⟩).2.map fun w => (w.vbuffer, w.framesWritten)

/-- The copies `audio_vbuffer_write` makes from the caller's buffer. -/
def audioVbufferWriteCopies (b : AudioVbuffer) (buffer : Nat → UInt8) (frameCount : Nat) : List Memcpy :=
  (writeLoop buffer (frameCount + 1) ⟨b, 0, frameCount⟩).1

/-! ### `audio_vbuffer_read` -/

/-- The variables of the read loop; `buffer` is the caller's memory. -/
structure ReadLoop where
  vbuffer : AudioVbuffer
  buffer : Nat → UInt8
  framesRead : Nat
  frameCount : Nat

/-- The `frames` of the next iteration, `none` when the loop breaks on an empty buffer. -/
def ReadLoop.frames (r : ReadLoop) : Option Int :=
  let b := r.vbuffer
  if b.live = b.frameCount ∨ b.tail > b.head then
    some (toInt (min r.frameCount (sizeSub b.frameCount b.tail) : Nat))
  else if b.tail < b.head then
    some (toInt (min r.frameCount (sizeSub b.head b.tail) : Nat))
  else
    none

def ReadLoop.memcpy (r : ReadLoop) (frames : Int) : Memcpy where
  dst := sizeMul r.framesRead r.vbuffer.frameSize
  src := sizeMul r.vbuffer.tail r.vbuffer.frameSize
  len := sizeMul (toSize frames) r.vbuffer.frameSize

/-- The body of one iteration. -/
def ReadLoop.advance (r : ReadLoop) (frames : Int) : Option ReadLoop :=
  let b := r.vbuffer
  let c := r.memcpy frames
  if c.src + c.len ≤ b.dataSize ∧ b.frameCount ≠ 0 then
    some
      { vbuffer :=
          { b with
            live := sizeSub b.live (toSize frames)
            tail := (b.tail + toSize frames) % sizeMod % b.frameCount }
        buffer := copy r.buffer c.dst b.data c.src c.len
        framesRead := (r.framesRead + toSize frames) % sizeMod
        frameCount := sizeSub r.frameCount (toSize frames) }
  else
    none

def readLoop : Nat → ReadLoop → List Memcpy × Option ReadLoop
  | 0, _ => ([], none)
  | fuel + 1, r =>
      if r.frameCount = 0 then
        ([], some r)
      else
        match r.frames with
        | none => ([], some r)
        | some frames =>
            match r.advance frames with
            | none => ([r.memcpy frames], none)
            | some next =>
                let rest := readLoop fuel next
                (r.memcpy frames :: rest.1, rest.2)

/-- The new buffer, the caller's memory after the call and the number of frames returned. -/
def audioVbufferRead (b : AudioVbuffer) (buffer : Nat → UInt8) (frameCount : Nat) :
    Option (AudioVbuffer × (Nat → UInt8) × Nat) :=
  (readLoop (frameCount + 1) ⟨b, buffer, 0, frameCount⟩).2.map fun r =>
    (r.vbuffer, r.buffer, r.framesRead)

/-! ### Sequences of calls -/

/-- A call under the buffer's lock. -/
inductive VbufferCall where
  | write (buffer : Nat → UInt8) (frameCount : UInt64)
  | read (buffer : Nat → UInt8) (frameCount : UInt64)

/-- What a call gives back: the number of frames, and for a read the memory it filled. -/
inductive VbufferReturn where
  | written (frames : Nat)
  | read (frames : Nat) (buffer : Nat → UInt8)

def vbufferStep (b : AudioVbuffer) : VbufferCall → Option (AudioVbuffer × List VbufferReturn)
  | .write buffer frameCount =>
      (audioVbufferWrite b buffer frameCount.toNat).map fun r => (r.1, [.written r.2])
  | .read buffer frameCount =>
      (audioVbufferRead b buffer frameCount.toNat).map fun r => (r.1, [.read r.2.2 r.2.1])

end Trout.Audio
