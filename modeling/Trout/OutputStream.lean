import Trout.AudioConfig
import Trout.Pcm16

/-! The output stream of `audio_hw.c` and the bodies of the sections that its functions run under
`out->lock`. Counters are `uint64_t`, times are nanoseconds of the monotonic clock. The gain of
`out_apply_gain` is floating point, so it enters as an arbitrary function of a sample and its index. -/

namespace Trout.Audio
open CInt Pcm16 RingWindow

/-- `struct generic_stream_out`: the fields its functions and the worker use under the lock. -/
structure GenericStreamOut where
  reqConfig : AudioConfig
  pcmConfig : PcmConfig
  buffer : AudioVbuffer
  standby : Bool
  underrunPosition : Nat
  underrunTime : Nat
  framesTotalBuffered : Nat
  framesWritten : Nat
  framesRendered : Nat
  workerStandby : Bool
  workerExit : Bool

/-- `adev_open_output_stream`, up to the start of the worker. `allocated` says whether the stream
itself can be allocated. -/
def adevOpenOutputStream (allocated : Bool) (calloc : Nat → Bool) (p : PeriodProperties) (config : AudioConfig) :
    Except Errno GenericStreamOut :=
  let refined := refineOutputParameters config
  if refined.2 then
    .error .einval
  else if ¬ allocated then
    .error .enomem
  else
    let pcmConfig := pcmConfigFor refined.1.sampleRate p
    match audioVbufferInit calloc pcmConfig.capacity pcmConfig.frameSize with
    | .error e => .error e
    | .ok buffer =>
        .ok
          { reqConfig := refined.1, pcmConfig := pcmConfig, buffer := buffer
            standby := true, underrunPosition := 0, underrunTime := 0, framesTotalBuffered := 0
            framesWritten := 0, framesRendered := 0, workerStandby := true, workerExit := false }

def outGetSampleRate (out : GenericStreamOut) : Nat := out.reqConfig.sampleRate.toNat

def audioStreamOutFrameSize (out : GenericStreamOut) : Nat := out.reqConfig.frameSize

/-! ### Time and position -/

/-- The frames that play between `first` and `now`, none before `first`. -/
def framesSince (rate now first : Nat) : Int :=
  max 0 ((((now / 1000 : Nat) : Int) - (first / 1000 : Nat)) * rate |>.tdiv 1000000)

theorem framesSince_eq (rate now first : Nat) :
    framesSince rate now first = (((now / 1000 - first / 1000) * rate / 1000000 : Nat) : Int) := by
  rw [framesSince]
  rcases le_total (first / 1000) (now / 1000) with hle | hle
  · have hsub : ((now / 1000 : Nat) : Int) - (first / 1000 : Nat) = ((now / 1000 - first / 1000 : Nat) : Int) := by omega
    rw [hsub, ← Int.natCast_mul]
    show max 0 (((now / 1000 - first / 1000) * rate / 1000000 : Nat) : Int) = _
    exact max_eq_right (Int.natCast_nonneg _)
  · have hneg : ((now / 1000 : Nat) : Int) - (first / 1000 : Nat) ≤ 0 := by omega
    have hproduct : (((now / 1000 : Nat) : Int) - (first / 1000 : Nat)) * rate ≤ 0 :=
      Int.mul_nonpos_of_nonpos_of_nonneg hneg (Int.natCast_nonneg rate)
    have hquotient : ((((now / 1000 : Nat) : Int) - (first / 1000 : Nat)) * rate).tdiv 1000000 ≤ 0 := by
      have hpositive := Int.tdiv_nonneg (Int.neg_nonneg_of_nonpos hproduct) (show (0 : Int) ≤ 1000000 by decide)
      rw [Int.neg_tdiv] at hpositive
      exact Int.nonpos_of_neg_nonneg hpositive
    rw [Nat.sub_eq_zero_of_le hle, Nat.zero_mul, Nat.zero_div]
    exact max_eq_left hquotient

/-- `get_current_output_position`: the position at time `now`, and the stream after an underrun. -/
def getCurrentOutputPosition (out : GenericStreamOut) (now : Nat) : GenericStreamOut × Nat :=
  let positionSinceUnderrun : Int :=
    if out.standby then 0 else framesSince (outGetSampleRate out) now out.underrunTime
  let position := toSize (out.underrunPosition + positionSinceUnderrun)
  if position > out.framesWritten then
    ({ out with underrunPosition := out.framesWritten, underrunTime := now, framesTotalBuffered := 0 },
      out.framesWritten)
  else
    (out, position)

/-- `sleep_time_us` for a number of frames -/
def sleepTimeUs (out : GenericStreamOut) (framesSleep : Int) : Nat :=
  toSize ((framesSleep * 1000000).tdiv (outGetSampleRate out))

/-! ### `out_write` -/

/-- `out_apply_gain`, sample by sample; the index of its loop is an `int`. -/
def outApplyGain (gain : Nat → Int16 → Int16) (buffer : Nat → UInt8) (bytes : Nat) : Option (Nat → UInt8) :=
  if bytes / 2 ≤ intMax then
    some fun a => if a / 2 < bytes / 2 then bytesOf (fun i => gain i (samplesOf buffer i)) a else buffer a
  else
    none

/-- `frames_sleep` of `out_write`; the comparison is between an `int` and a `size_t`. -/
def outWriteFramesSleep (out : GenericStreamOut) (frames : Nat) : Int :=
  let availableFramesInBuffer := toSize (audioVbufferDead out.buffer)
  if availableFramesInBuffer > frames then 0 else toInt (sizeSub frames availableFramesInBuffer : Nat)

/-- The part of `out_write` before its sleep: the stream and `sleep_time_us`. -/
def outWriteEnter (out : GenericStreamOut) (now frames : Nat) : GenericStreamOut × Nat :=
  let awake := { out with workerStandby := false }
  let current := (getCurrentOutputPosition awake now).1
  let started :=
    if current.standby then
      { current with standby := false, underrunTime := now, framesRendered := 0, framesTotalBuffered := 0 }
    else
      current
  (started, sleepTimeUs started (outWriteFramesSleep started frames))

/-- The arguments and locals of an `out_write` in its store loop. The gain has been applied to `buffer`. -/
structure WriteCall where
  buffer : Nat → UInt8
  bytes : Nat
  frames : Nat
  framesWritten : Nat

/-- The caller's buffer as one call of `audio_vbuffer_write` sees it. -/
def WriteCall.rest (c : WriteCall) (frameSize : Nat) : Nat → UInt8 :=
  fun a => c.buffer (sizeMul c.framesWritten frameSize + a)

/-- One call of `audio_vbuffer_write` in the store loop. -/
def WriteCall.store (c : WriteCall) (out : GenericStreamOut) : Option (GenericStreamOut × WriteCall) :=
  (audioVbufferWrite out.buffer (c.rest (audioStreamOutFrameSize out)) (sizeSub c.frames c.framesWritten)).map
    fun r => ({ out with buffer := r.1 }, { c with framesWritten := (c.framesWritten + r.2) % sizeMod })

/-- The copies that call makes from the caller's buffer, as byte offsets into it. -/
def WriteCall.copies (c : WriteCall) (out : GenericStreamOut) : List Memcpy :=
  let frameSize := audioStreamOutFrameSize out
  (audioVbufferWriteCopies out.buffer (c.rest frameSize) (sizeSub c.frames c.framesWritten)).map
    fun m => { m with src := sizeMul c.framesWritten frameSize + m.src }

/-- The counters at the end of `out_write`. -/
def outWriteDone (out : GenericStreamOut) (frames : Nat) : GenericStreamOut :=
  { out with
    framesWritten := (out.framesWritten + frames) % sizeMod
    framesRendered := (out.framesRendered + frames) % sizeMod
    framesTotalBuffered := (out.framesTotalBuffered + frames) % sizeMod }

/-! ### `do_out_standby` -/

/-- One turn of the loop of `do_out_standby`: the stream and `frames_sleep`. The position is written
to `underrun_position` itself. -/
def doOutStandbyTurn (out : GenericStreamOut) (now : Nat) : GenericStreamOut × Int :=
  let current := getCurrentOutputPosition out now
  let moved := { current.1 with underrunPosition := current.2 }
  (moved, toInt (sizeSub moved.framesWritten moved.underrunPosition : Nat))

/-- The end of `do_out_standby`. -/
def doOutStandbyDone (out : GenericStreamOut) : GenericStreamOut :=
  { out with workerStandby := true, standby := true }

/-! ### What the sections leave alone -/

/-- The fields that time keeping does not touch. -/
structure SameWorkerView (out out' : GenericStreamOut) : Prop where
  reqConfig : out'.reqConfig = out.reqConfig
  pcmConfig : out'.pcmConfig = out.pcmConfig
  buffer : out'.buffer = out.buffer
  workerExit : out'.workerExit = out.workerExit

theorem SameWorkerView.refl (out : GenericStreamOut) : SameWorkerView out out := ⟨rfl, rfl, rfl, rfl⟩

theorem getCurrentOutputPosition_view (out : GenericStreamOut) (now : Nat) :
    SameWorkerView out (getCurrentOutputPosition out now).1 ∧
      (getCurrentOutputPosition out now).1.workerStandby = out.workerStandby := by
  simp only [getCurrentOutputPosition]
  by_cases hunder : toSize (out.underrunPosition + if out.standby then 0 else
      framesSince (outGetSampleRate out) now out.underrunTime) > out.framesWritten
  · rw [if_pos hunder]
    exact ⟨⟨rfl, rfl, rfl, rfl⟩, rfl⟩
  · rw [if_neg hunder]
    exact ⟨SameWorkerView.refl out, rfl⟩

theorem outWriteEnter_view (out : GenericStreamOut) (now frames : Nat) :
    SameWorkerView out (outWriteEnter out now frames).1 ∧ (outWriteEnter out now frames).1.workerStandby = false := by
  obtain ⟨⟨hreq, hpcm, hbuffer, hexit⟩, hstandby⟩ :=
    getCurrentOutputPosition_view { out with workerStandby := false } now
  simp only [outWriteEnter]
  split
  · exact ⟨⟨hreq, hpcm, hbuffer, hexit⟩, hstandby⟩
  · exact ⟨⟨hreq, hpcm, hbuffer, hexit⟩, hstandby⟩

theorem outWriteEnter_sleep (out : GenericStreamOut) (now frames : Nat) :
    (outWriteEnter out now frames).2 =
      sleepTimeUs (outWriteEnter out now frames).1 (outWriteFramesSleep (outWriteEnter out now frames).1 frames) := by
  simp only [outWriteEnter]

theorem doOutStandbyTurn_view (out : GenericStreamOut) (now : Nat) :
    SameWorkerView out (doOutStandbyTurn out now).1 ∧
      (doOutStandbyTurn out now).1.workerStandby = out.workerStandby := by
  obtain ⟨⟨hreq, hpcm, hbuffer, hexit⟩, hstandby⟩ := getCurrentOutputPosition_view out now
  exact ⟨⟨hreq, hpcm, hbuffer, hexit⟩, hstandby⟩

/-- A store changes the ring buffer only. -/
theorem WriteCall.store_view {c c' : WriteCall} {out out' : GenericStreamOut} (h : c.store out = some (out', c')) :
    out' = { out with buffer := out'.buffer } ∧ c' = { c with framesWritten := c'.framesWritten } := by
  simp only [WriteCall.store, Option.map_eq_some_iff] at h
  obtain ⟨r, -, hpair⟩ := h
  cases hpair
  exact ⟨rfl, rfl⟩

end Trout.Audio
