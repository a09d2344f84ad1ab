import Trout.InputStream

/-! The device of `audio_hw.c`: the maps that its streams are registered in, and the functions that open and
close streams with what they do to these. Streams are the elements of any type, pointers that can come back
after they have been freed. An allocation that fails and is not checked is dereferenced, and the call has no
result; the maps allocate what they need. -/

namespace Trout.Audio
open CInt

/-- The fields of `struct generic_audio_device` that the functions below use. -/
structure GenericAudioDevice (ι : Type) where
  outBusStreamMap : Finmap fun _ : String => ι
  inBusToneFrequencyMap : Finmap fun _ : String => Int32
  nextToneFrequencyToAssign : Int32

def defaultFrequency : Int32 := 150
def toneFrequencyIncrease : Int32 := 20
def maxToneFrequency : Int32 := 500

/-- The device after `adev_open`. -/
def GenericAudioDevice.init {ι : Type} : GenericAudioDevice ι := ⟨∅, ∅, defaultFrequency⟩

/-- Which allocations of a call succeed: of the stream, of the ring buffer's bytes, of the copy of the address
and of a frequency. -/
structure OpenAllocations where
  stream : Bool
  vbuffer : Nat → Bool
  busAddress : Bool
  frequency : Bool

/-- What a call that opens a stream has done when it returns: its result, 0 or an error, what it has assigned to
`*stream_out` or `*stream_in`, and the device it leaves. -/
structure OpenReturn (σ ι : Type) where
  ret : Option Errno
  stream : Option σ
  device : GenericAudioDevice ι

variable {ι : Type}

namespace GenericAudioDevice

/-! ### Output streams -/

/-- `adev_open_output_stream`. The name of the worker thread is copied from the address, NULL or not. -/
def openOutputStream (adev : GenericAudioDevice ι) (i : ι) (allocations : OpenAllocations) (p : PeriodProperties)
    (config : AudioConfig) (address : Option String) : Option (OpenReturn GenericStreamOut ι) :=
  match adevOpenOutputStream allocations.stream allocations.vbuffer p config with
  | .error e => some ⟨some e, none, adev⟩
  | .ok out =>
      match address with
      | none => none
      | some address =>
          if allocations.busAddress then
            some ⟨none, some out, { adev with outBusStreamMap := adev.outBusStreamMap.insert address i }⟩
          else
            none

/-- What `adev_close_output_stream` does to the device. -/
def closeOutputStream (adev : GenericAudioDevice ι) (busAddress : String) : GenericAudioDevice ι :=
  { adev with outBusStreamMap := adev.outBusStreamMap.erase busAddress }

end GenericAudioDevice

/-- `get_audio_device`, with `device_handle`. -/
def getAudioDevice (deviceHandle : Option (GenericAudioDevice ι)) (address : String) : Option ι :=
  deviceHandle.bind fun adev => adev.outBusStreamMap.lookup address

namespace GenericAudioDevice

/-! ### Input streams -/

def increaseNextToneFrequency (adev : GenericAudioDevice ι) : GenericAudioDevice ι :=
  let increased := adev.nextToneFrequencyToAssign + toneFrequencyIncrease
  { adev with nextToneFrequencyToAssign := if increased > maxToneFrequency then defaultFrequency else increased }

/-- The device and the frequency; there is none when the new one cannot be allocated. -/
def createOrFetchToneFrequency (adev : GenericAudioDevice ι) (allocated : Bool) (address : String)
    (updateFrequency : Int32) : Option (GenericAudioDevice ι × Int32) :=
  match adev.inBusToneFrequencyMap.lookup address with
  | some frequency => some (adev, frequency)
  | none =>
      if allocated then
        some ({ adev with inBusToneFrequencyMap := adev.inBusToneFrequencyMap.insert address updateFrequency },
          updateFrequency)
      else
        none

/-- The frequency of a tone generator, as `adev_open_input_stream` gives it out. -/
def assignToneFrequency (adev : GenericAudioDevice ι) (allocated : Bool) (address : String) :
    Option (GenericAudioDevice ι × Int32) :=
  let updateFrequency := adev.nextToneFrequencyToAssign
  (adev.createOrFetchToneFrequency allocated address updateFrequency).map fun r =>
    (if updateFrequency = r.2 then r.1.increaseNextToneFrequency else r.1, r.2)

/-- The end of `adev_open_input_stream`: the address, and the frequency of a tone generator. -/
def registerInput (adev : GenericAudioDevice ι) (allocations : OpenAllocations) (inp : GenericStreamIn)
    (address : Option String) (ret : Option Errno) : Option (OpenReturn GenericStreamIn ι) :=
  match address with
  | none => some ⟨ret, some inp, adev⟩
  | some address =>
      let named := { inp with busAddress := if allocations.busAddress then some address else none }
      match isToneGeneratorDevice named with
      | none => none
      | some false => some ⟨ret, some named, adev⟩
      | some true =>
          (adev.assignToneFrequency allocations.frequency address).map fun r => ⟨ret, some named, r.1⟩

end GenericAudioDevice

/-- A stream as `adev_open_input_stream` sets it up around its ring buffer. -/
def newStreamIn (p : PeriodProperties) (device : AudioDevice) (config : AudioConfig) (buffer : AudioVbuffer)
    (workerStandby : Bool) : GenericStreamIn where
  device := device
  busAddress := none
  reqConfig := config
  pcmConfig := pcmConfigFor config.sampleRate p
  stereoToMonoBuf := none
  stereoToMonoBufSize := 0
  buffer := buffer
  standby := true
  standbyPosition := 0
  standbyExitTime := 0
  standbyFramesRead := 0
  workerStandby := workerStandby
  workerExit := false

/-- A ring buffer without its bytes, as a failed `audio_vbuffer_init` leaves it. -/
def AudioVbuffer.unallocated (frameCount frameSize : Nat) : AudioVbuffer :=
  ⟨fun _ => 0, 0, frameSize, frameCount, 0, 0, 0⟩

/-- `adev_open_input_stream`. Without the bytes of the ring buffer it starts no worker and goes on. -/
def GenericAudioDevice.openInputStream (adev : GenericAudioDevice ι) (allocations : OpenAllocations)
    (p : PeriodProperties) (device : AudioDevice) (config : AudioConfig) (address : Option String) :
    Option (OpenReturn GenericStreamIn ι) :=
  let refined := refineInputParameters config
  if refined.2 then
    some ⟨some .einval, none, adev⟩
  else if ¬ allocations.stream then
    some ⟨some .enomem, none, adev⟩
  else
    let pcmConfig := pcmConfigFor refined.1.sampleRate p
    match audioVbufferInit allocations.vbuffer pcmConfig.capacity pcmConfig.frameSize with
    | .error e =>
        adev.registerInput allocations
          (newStreamIn p device refined.1 (.unallocated pcmConfig.capacity pcmConfig.frameSize) false) address (some e)
    | .ok buffer => adev.registerInput allocations (newStreamIn p device refined.1 buffer true) address none

/-! ### What a call leaves -/

theorem registerInput_returns {adev : GenericAudioDevice ι} {allocations : OpenAllocations} {inp : GenericStreamIn}
    {address : Option String} {ret : Option Errno} {r : OpenReturn GenericStreamIn ι}
    (h : adev.registerInput allocations inp address ret = some r) :
    r.ret = ret ∧ r.stream = some { inp with
      busAddress := match address with
        | none => inp.busAddress
        | some address => if allocations.busAddress then some address else none } := by
  cases address with
  | none =>
      cases h
      exact ⟨rfl, rfl⟩
  | some address =>
      dsimp only [GenericAudioDevice.registerInput] at h
      split at h
      · cases h
      · cases h
        exact ⟨rfl, rfl⟩
      · obtain ⟨assigned, -, heq⟩ := Option.map_eq_some_iff.mp h
        cases heq
        exact ⟨rfl, rfl⟩

/-- A call that opens an input stream returns because its parameters are rejected, because the stream is not
allocated, or from its end with the result of `audio_vbuffer_init`. -/
theorem openInputStream_cases {adev : GenericAudioDevice ι} {allocations : OpenAllocations} {p : PeriodProperties}
    {device : AudioDevice} {config : AudioConfig} {address : Option String} {r : OpenReturn GenericStreamIn ι}
    (h : adev.openInputStream allocations p device config address = some r) :
    let refined := refineInputParameters config
    let pcmConfig := pcmConfigFor refined.1.sampleRate p
    let bytes := sizeMul pcmConfig.capacity pcmConfig.frameSize
    (refined.2 = true ∧ r = ⟨some .einval, none, adev⟩) ∨
      (refined.2 = false ∧ allocations.stream = false ∧ r = ⟨some .enomem, none, adev⟩) ∨
      (refined.2 = false ∧ allocations.stream = true ∧ allocations.vbuffer bytes = false ∧ r.ret = some .enomem ∧
        r.stream.isSome) ∨
      (refined.2 = false ∧ allocations.stream = true ∧ allocations.vbuffer bytes = true ∧ r.ret = none) := by
  intro refined pcmConfig bytes
  dsimp only [GenericAudioDevice.openInputStream] at h
  split at h
  · rename_i hinval
    cases h
    exact Or.inl ⟨hinval, rfl⟩
  rename_i hinval
  rw [Bool.not_eq_true] at hinval
  split at h
  · rename_i hstream
    cases h
    exact Or.inr (Or.inl ⟨hinval, by simpa using hstream, rfl⟩)
  rename_i hstream
  rw [Decidable.not_not] at hstream
  by_cases hbytes : allocations.vbuffer bytes = true
  · rw [audioVbufferInit, if_pos hbytes] at h
    exact Or.inr (Or.inr (Or.inr ⟨hinval, hstream, hbytes, (registerInput_returns h).1⟩))
  · rw [audioVbufferInit, if_neg hbytes] at h
    obtain ⟨hret, hopened⟩ := registerInput_returns h
    refine Or.inr (Or.inr (Or.inl ⟨hinval, hstream, Bool.not_eq_true _ ▸ hbytes, hret, ?_⟩))
    rw [hopened, Option.isSome_some]

/-- The streams that this opens are those of `adevOpenInputStream`, without an address that could not be copied. -/
theorem openInputStream_stream {adev : GenericAudioDevice ι} {allocations : OpenAllocations} {p : PeriodProperties}
    {device : AudioDevice} {config : AudioConfig} {address : Option String} {r : OpenReturn GenericStreamIn ι}
    {inp : GenericStreamIn} (h : adev.openInputStream allocations p device config address = some r)
    (hret : r.ret = none) (hsome : r.stream = some inp) :
    adevOpenInputStream allocations.stream allocations.vbuffer p device
      (if allocations.busAddress then address else none) config = .ok inp := by
  dsimp only [GenericAudioDevice.openInputStream] at h
  rw [adevOpenInputStream]
  dsimp only
  by_cases hinval : (refineInputParameters config).2 = true
  · rw [if_pos hinval] at h
    cases h
    cases hret
  rw [if_neg hinval] at h ⊢
  by_cases hstream : ¬ allocations.stream = true
  · rw [if_pos hstream] at h
    cases h
    cases hret
  rw [if_neg hstream] at h ⊢
  cases hinit : audioVbufferInit allocations.vbuffer (pcmConfigFor (refineInputParameters config).1.sampleRate p).capacity
      (pcmConfigFor (refineInputParameters config).1.sampleRate p).frameSize with
  | error e =>
      rw [hinit] at h
      rw [(registerInput_returns h).1] at hret
      cases hret
  | ok buffer =>
      rw [hinit] at h
      rw [(registerInput_returns h).2] at hsome
      cases hsome
      cases address with
      | none =>
          rw [ite_self]
          rfl
      | some address => rfl

end Trout.Audio
