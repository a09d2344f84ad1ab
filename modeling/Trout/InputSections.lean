import Trout.InputThreads

/-! What one section of an input stream can do. An `in_read` of a stream that generates no tone takes the
oldest frames out of the ring buffer and puts them, or their left channel, at the start of the caller's
buffer, where the final `memset` leaves them alone. -/

namespace Trout.Audio
open CInt Pcm16 RingWindow

/-- The ring buffer of a stream is initialised with the capacity of its own configuration. -/
theorem openInput_init {allocated : Bool} {calloc : Nat → Bool} {p : PeriodProperties} {device : AudioDevice}
    {address : Option String} {config : AudioConfig} {inp : GenericStreamIn}
    (h : adevOpenInputStream allocated calloc p device address config = .ok inp) :
    audioVbufferInit calloc (pcmConfigFor config.sampleRate p).capacity 4 = .ok inp.buffer ∧
      inp.reqConfig = config ∧ inp.pcmConfig = pcmConfigFor config.sampleRate p ∧
      (popcount config.channelMask = 1 ∨ popcount config.channelMask = 2) := by
  rw [adevOpenInputStream] at h
  split at h
  · cases h
  rename_i hinval
  split at h
  · cases h
  have hrefined : refineInputParameters config = ((refineInputParameters config).1, false) := by
    rw [Bool.not_eq_true] at hinval
    rw [← hinval]
  dsimp only at h
  split at h
  · cases h
  rename_i buffer hinit
  cases h
  obtain ⟨hsame, hchannels⟩ := refineParameters_accepted hrefined
  have hpcm : pcmConfigFor (refineInputParameters config).1.sampleRate p = pcmConfigFor config.sampleRate p := by
    rw [hsame]
  rw [pcmConfigFor_frameSize, hpcm] at hinit
  exact ⟨hinit, hsame, hpcm, hchannels⟩

theorem openInput_usable {allocated : Bool} {calloc : Nat → Bool} {p : PeriodProperties} {device : AudioDevice}
    {address : Option String} {config : AudioConfig} {inp : GenericStreamIn}
    (h : adevOpenInputStream allocated calloc p device address config = .ok inp) :
    inp.buffer.Usable ∧ inp.buffer.frameCount = inp.pcmConfig.capacity ∧ inp.buffer.live = 0 ∧
      inp.reqConfig = config ∧ inp.pcmConfig = pcmConfigFor config.sampleRate p ∧
      (popcount config.channelMask = 1 ∨ popcount config.channelMask = 2) := by
  obtain ⟨hinit, hreq, hpcm, hchannels⟩ := openInput_init h
  obtain ⟨husable, hcap, hlive⟩ := streamVbuffer_usable (PcmConfig.capacity_lt _) hinit
  exact ⟨husable, by rw [hcap, hpcm], hlive, hreq, hpcm, hchannels⟩

/-- A stream is opened in standby, at position 0. -/
theorem openInput_standby {allocated : Bool} {calloc : Nat → Bool} {p : PeriodProperties} {device : AudioDevice}
    {address : Option String} {config : AudioConfig} {inp : GenericStreamIn}
    (h : adevOpenInputStream allocated calloc p device address config = .ok inp) :
    inp.standby = true ∧ inp.standbyPosition = 0 ∧ inp.standbyFramesRead = 0 := by
  rw [adevOpenInputStream] at h
  split at h
  · cases h
  split at h
  · cases h
  dsimp only at h
  split at h
  · cases h
  · cases h
    exact ⟨rfl, rfl, rfl⟩

/-- What a stream keeps from its opening on. -/
structure SameInput (inp inp' : GenericStreamIn) : Prop where
  device : inp'.device = inp.device
  busAddress : inp'.busAddress = inp.busAddress
  reqConfig : inp'.reqConfig = inp.reqConfig
  pcmConfig : inp'.pcmConfig = inp.pcmConfig

theorem SameInput.refl (inp : GenericStreamIn) : SameInput inp inp := ⟨rfl, rfl, rfl, rfl⟩

theorem SameInput.isToneGeneratorDevice {inp inp' : GenericStreamIn} (h : SameInput inp inp') :
    isToneGeneratorDevice inp' = isToneGeneratorDevice inp := by
  unfold Audio.isToneGeneratorDevice
  rw [h.device, h.busAddress]

theorem inReadEnter_same (inp : GenericStreamIn) (now : Nat) :
    SameInput inp (inReadEnter inp now).1 ∧ (inReadEnter inp now).1.buffer = inp.buffer := by
  simp only [inReadEnter]
  split
  · exact ⟨⟨rfl, rfl, rfl, rfl⟩, rfl⟩
  · exact ⟨⟨rfl, rfl, rfl, rfl⟩, rfl⟩

theorem doInStandby_same (inp : GenericStreamIn) (now : Nat) :
    SameInput inp (doInStandby inp now) ∧ (doInStandby inp now).buffer = inp.buffer := by
  rw [doInStandby]
  split
  · exact ⟨SameInput.refl inp, rfl⟩
  · exact ⟨⟨rfl, rfl, rfl, rfl⟩, rfl⟩

/-! ### The caller's buffer -/

/-- The left samples of stereo frames, as bytes. -/
theorem bytesOf_leftSamples (src : Nat → UInt8) (i : Nat) {b : Nat} (hb : b < 2) :
    bytesOf (fun i => samplesOf src (2 * i)) (2 * i + b) = src (4 * i + b) := by
  rcases Nat.lt_succ_iff_lt_or_eq.mp hb with hlow | hhigh
  · obtain rfl : b = 0 := Nat.lt_one_iff.mp hlow
    rw [bytesOf, if_pos (by omega), show (2 * i + 0) / 2 = i by omega, samplesOf, lowByte_sample]
    exact congrArg src (by omega)
  · rw [hhigh, bytesOf, if_neg (by omega), show (2 * i + 1) / 2 = i by omega, samplesOf, highByte_sample]
    exact congrArg src (by omega)

/-- The conversion keeps the left channel of each frame. -/
theorem records_stereoToMono (src dst : Nat → UInt8) {frames count : Nat} (h : count ≤ frames) :
    records (stereoToMono src dst frames) 2 0 count = (records src 4 0 count).map (List.take 2) := by
  rw [records_map_take src 0 count (by decide)]
  apply List.map_congr_left
  intro j hj
  have hj : j < count := List.mem_range.mp hj
  apply slice_congr
  intro b hb
  rw [Nat.zero_add, stereoToMono, if_pos (by omega), show j * 2 + b = 2 * j + b by omega,
    bytesOf_leftSamples src j hb]
  exact congrArg src (by omega)

/-- The `memset` starts behind the frames that `read_frames` counts. -/
theorem records_inReadZero {inp : GenericStreamIn} {c : ReadCall} {buffer : Nat → UInt8} {count : Nat}
    (hlt : count < 2 ^ 32) (hsize : audioStreamInFrameSize inp = 2 ∨ audioStreamInFrameSize inp = 4)
    (hmute : c.readMute = false) :
    records (inReadZero c buffer (inReadBytes inp c (toInt (count : Nat)))) (audioStreamInFrameSize inp) 0 count =
      records buffer (audioStreamInFrameSize inp) 0 count := by
  have hbehind : count * audioStreamInFrameSize inp ≤ inReadBytes inp c (toInt (count : Nat)) := by
    have hread : toSize (toInt (count : Nat)) = count ∨ toSize (toInt (count : Nat)) = count + (2 ^ 64 - 2 ^ 32) := by
      by_cases hshort : count ≤ intMax
      · rw [toInt_of_le hshort]
        exact Or.inl (toSize_natCast (by omega))
      · have hwide := toInt_of_gt (Nat.not_le.mp hshort) hlt
        rw [hwide]
        simp only [toSize, sizeMod]
        omega
    rw [inReadBytes, hmute, if_neg Bool.false_ne_true, sizeMul, sizeMod]
    rcases hsize with hsize | hsize <;> rw [hsize] <;> rcases hread with hread | hread <;> rw [hread] <;> omega
  apply List.map_congr_left
  intro j hj
  have hj : j < count := List.mem_range.mp hj
  apply slice_congr
  intro b hb
  have hin : (0 + j) * audioStreamInFrameSize inp + b < count * audioStreamInFrameSize inp := by
    calc (0 + j) * audioStreamInFrameSize inp + b < (0 + j) * audioStreamInFrameSize inp + audioStreamInFrameSize inp :=
          Nat.add_lt_add_left hb _
      _ = (j + 1) * audioStreamInFrameSize inp := by rw [Nat.zero_add, Nat.succ_mul]
      _ ≤ count * audioStreamInFrameSize inp := Nat.mul_le_mul_right _ hj
  rw [inReadZero, if_neg (by omega)]

/-! ### Sections of the clients -/

/-- What an `in_read` takes from the ring buffer of a stream that generates no tone: the oldest `count`
frames, of which the caller gets the channels of its own configuration. -/
structure FillOutcome (inp inp' : GenericStreamIn) (buffer : Nat → UInt8) (readFrames : Int) (count : Nat)
    (removed : List (List UInt8)) : Prop where
  same : SameInput inp inp'
  usable : inp'.buffer.Usable
  frameCount : inp'.buffer.frameCount = inp.buffer.frameCount
  count_lt : count < 2 ^ 32
  readFrames : readFrames = toInt (count : Nat)
  taken : inp.buffer.stored = removed ++ inp'.buffer.stored
  filled : records buffer (audioStreamInFrameSize inp) 0 count = removed.map (List.take (audioStreamInFrameSize inp))

theorem FillOutcome.nothing {inp inp' : GenericStreamIn} {buffer : Nat → UInt8} (same : SameInput inp inp')
    (hbuffer : inp'.buffer = inp.buffer) (h : inp.buffer.Usable) : FillOutcome inp inp' buffer 0 0 [] where
  same := same
  usable := hbuffer ▸ h
  frameCount := by rw [hbuffer]
  count_lt := by decide
  readFrames := rfl
  taken := by rw [hbuffer, List.nil_append]
  filled := rfl

theorem inReadFill_outcome {inp inp' : GenericStreamIn} {c : ReadCall} {tone : Nat → Int16}
    {realloc : Nat → Option (Nat → UInt8)} {buffer : Nat → UInt8} {readFrames : Int} (h : inp.buffer.Usable)
    (hchannels : popcount inp.reqConfig.channelMask = 1 ∨ popcount inp.reqConfig.channelMask = 2)
    (hstereo : inp.pcmConfig.channels = 2) (hbytes : c.bytes < 2 ^ 64) (htone : c.isToneGenerator = false)
    (hfill : inReadFill inp c tone realloc = some (inp', buffer, readFrames)) :
    ∃ count removed, FillOutcome inp inp' buffer readFrames count removed := by
  have hframes : c.bytes / audioStreamInFrameSize inp < 2 ^ 64 := lt_of_le_of_lt (Nat.div_le_self _ _) hbytes
  unfold inReadFill at hfill
  dsimp only at hfill
  split at hfill
  · cases hfill
    exact ⟨0, [], .nothing (SameInput.refl inp) rfl h⟩
  rw [htone] at hfill
  simp only [Bool.false_eq_true, if_false] at hfill
  split at hfill
  · rename_i hmono
    have hsize : audioStreamInFrameSize inp = 2 := by
      rw [audioStreamInFrameSize, AudioConfig.frameSize, hmono.1]
    split at hfill
    · split at hfill
      · cases hfill
        refine ⟨0, [], .nothing ?_ ?_ h⟩
        · split <;> exact ⟨rfl, rfl, rfl, rfl⟩
        · split <;> rfl
      · cases hfill
    · obtain ⟨⟨b, memory, count⟩, hread, hpair⟩ := Option.map_eq_some_iff.mp hfill
      cases hpair
      obtain ⟨husable, hcap, hcount, hstored⟩ := h.read_spec hframes hread
      refine ⟨count, records memory 4 0 count, ?_, husable, hcap, ?_, rfl, hstored, ?_⟩
      · split <;> exact ⟨rfl, rfl, rfl, rfl⟩
      · exact lt_of_le_of_lt (hcount ▸ Nat.min_le_right _ _) h.live_lt
      · rw [hsize]
        exact records_stereoToMono memory c.buffer (hsize ▸ hcount ▸ Nat.min_le_left _ _)
  · rename_i hnotmono
    have hsize : audioStreamInFrameSize inp = 4 := by
      have htwo := hchannels.resolve_left fun hone => hnotmono ⟨hone, hstereo⟩
      rw [audioStreamInFrameSize, AudioConfig.frameSize, htwo]
    obtain ⟨⟨b, memory, count⟩, hread, hpair⟩ := Option.map_eq_some_iff.mp hfill
    cases hpair
    obtain ⟨husable, hcap, hcount, hstored⟩ := h.read_spec hframes hread
    refine ⟨count, records memory 4 0 count, ⟨rfl, rfl, rfl, rfl⟩, husable, hcap, ?_, rfl, hstored, ?_⟩
    · exact lt_of_le_of_lt (hcount ▸ Nat.min_le_right _ _) h.live_lt
    · rw [hsize, records_map_take memory 0 count le_rfl]
      rfl

/-- The frames in the buffers of the calls that have returned. -/
def deliveredFrames (frameSize : Nat) (events : List InputEvent) : List (List UInt8) :=
  events.flatMap fun
    | .returned _ buffer frames => records buffer frameSize 0 frames
    | _ => []

/-- A call on a stream that generates no tone. -/
structure ReadCall.Toneless (c : ReadCall) : Prop where
  tone : c.isToneGenerator = false
  bytes_lt : c.bytes < 2 ^ 64

/-- What a section of a client does to the ring buffer: it takes frames from it, of which the caller gets
some or all. -/
structure ReaderOutcome (inp : GenericStreamIn) (r : InputSection ReaderPc) (removed : List (List UInt8)) : Prop where
  same : SameInput inp r.inp
  usable : r.inp.buffer.Usable
  frameCount : r.inp.buffer.frameCount = inp.buffer.frameCount
  calls : ∀ c, r.pc = .readSleeping c → c.Toneless
  silent : ∀ frames, InputEvent.stored frames ∉ r.events ∧ InputEvent.captured frames ∉ r.events
  taken : inp.buffer.stored = removed ++ r.inp.buffer.stored
  delivered : (deliveredFrames (audioStreamInFrameSize inp) r.events).Sublist
    (removed.map (List.take (audioStreamInFrameSize inp)))

/-- A section that leaves the ring buffer alone and returns no frames. -/
theorem ReaderOutcome.quiet {inp : GenericStreamIn} {r : InputSection ReaderPc} (h : inp.buffer.Usable)
    (same : SameInput inp r.inp) (hbuffer : r.inp.buffer = inp.buffer) (calls : ∀ c, r.pc = .readSleeping c → c.Toneless)
    (hevents : r.events = [] ∨ ∃ frames now, r.events = [.position frames now]) : ReaderOutcome inp r [] where
  same := same
  usable := hbuffer ▸ h
  frameCount := by rw [hbuffer]
  calls := calls
  silent := by
    intro frames
    rcases hevents with hnone | ⟨position, now, hone⟩
    · rw [hnone]
      exact ⟨List.not_mem_nil, List.not_mem_nil⟩
    · rw [hone]
      exact ⟨by simp, by simp⟩
  taken := by rw [hbuffer, List.nil_append]
  delivered := by
    rcases hevents with hnone | ⟨position, now, hone⟩
    · rw [hnone]
      exact List.Sublist.refl _
    · rw [hone]
      exact List.Sublist.refl _

theorem readerSection_outcome {inp : GenericStreamIn} {pc : ReaderPc} {l : ReaderLabel} {r : InputSection ReaderPc}
    (h : inp.buffer.Usable)
    (hchannels : popcount inp.reqConfig.channelMask = 1 ∨ popcount inp.reqConfig.channelMask = 2)
    (hstereo : inp.pcmConfig.channels = 2) (htone : isToneGeneratorDevice inp ≠ some true)
    (hcalls : ∀ c, pc = .readSleeping c → c.Toneless) (hsection : readerSection inp pc l = some r) :
    ∃ removed, ReaderOutcome inp r removed := by
  unfold readerSection at hsection
  split at hsection
  · rename_i buffer bytes now micMute
    rw [readSection] at hsection
    split at hsection
    · cases hsection
    · rename_i isToneGenerator hdevice
      have hnone : isToneGenerator = false := by
        cases isToneGenerator with
        | true => exact absurd hdevice htone
        | false => rfl
      obtain ⟨hsame, hbuffer⟩ := inReadEnter_same inp now
      dsimp only at hsection
      split at hsection
      · cases hsection
        refine ⟨[], .quiet h hsame hbuffer ?_ (Or.inl rfl)⟩
        intro c hpc
        cases hpc
        exact ⟨hnone, bytes.toNat_lt⟩
      · cases hsection
  · rename_i c tone realloc
    obtain ⟨⟨inp', buffer, readFrames⟩, hfill, hpair⟩ := Option.map_eq_some_iff.mp hsection
    obtain ⟨hnotone, hbytes⟩ := hcalls c rfl
    obtain ⟨count, removed, outcome⟩ := inReadFill_outcome h hchannels hstereo hbytes hnotone hfill
    cases hpair
    refine ⟨removed, outcome.same, outcome.usable, outcome.frameCount, (fun c hpc => by cases hpc),
      fun frames => ⟨by simp, by simp⟩, outcome.taken, ?_⟩
    have hsize : audioStreamInFrameSize inp = 2 ∨ audioStreamInFrameSize inp = 4 := by
      rw [audioStreamInFrameSize, AudioConfig.frameSize]
      omega
    simp only [deliveredFrames, List.flatMap_cons, List.flatMap_nil, List.append_nil]
    by_cases hmute : c.readMute
    · rw [if_pos hmute]
      exact List.nil_sublist _
    · have hcount : toUint readFrames = count := by
        have hlt := outcome.count_lt
        rw [outcome.readFrames]
        simp only [toUint, toInt, Int.bmod, uintMod]
        omega
      rw [if_neg hmute, hcount, outcome.readFrames,
        records_inReadZero outcome.count_lt hsize (Bool.not_eq_true _ ▸ hmute), outcome.filled]
  · rename_i now
    cases hsection
    obtain ⟨hsame, hbuffer⟩ := doInStandby_same inp now
    exact ⟨[], .quiet h hsame hbuffer (fun c hpc => by cases hpc) (Or.inl rfl)⟩
  · rename_i now
    cases hsection
    obtain ⟨⟨hdevice, haddress, hreq, hpcm⟩, hbuffer⟩ := doInStandby_same inp now
    exact ⟨[], .quiet h ⟨hdevice, haddress, hreq, hpcm⟩ hbuffer (fun c hpc => by cases hpc) (Or.inl rfl)⟩
  · cases hsection
    exact ⟨[], .quiet h (SameInput.refl inp) rfl (fun c hpc => by cases hpc) (Or.inr ⟨_, _, rfl⟩)⟩
  · cases hsection

/-! ### A small stream -/

/-- A stereo microphone at 8 kHz with one period of one millisecond: eight frames. -/
def eightFramesIn : GenericStreamIn where
  device := .builtinMic
  busAddress := none
  reqConfig := ⟨8000, audioFormatPcm16Bit, audioChannelInStereo⟩
  pcmConfig := ⟨2, 8000, 8, 1⟩
  stereoToMonoBuf := none
  stereoToMonoBufSize := 0
  buffer := ⟨fun _ => 0, 32, 4, 8, 0, 0, 0⟩
  standby := true
  standbyPosition := 0
  standbyExitTime := 0
  standbyFramesRead := 0
  workerStandby := true
  workerExit := false

theorem open_eightFramesIn :
    adevOpenInputStream true (fun _ => true) ⟨1, 1⟩ .builtinMic none ⟨8000, audioFormatPcm16Bit, audioChannelInStereo⟩ =
      .ok eightFramesIn := rfl

/-- A turn of the worker in which the PCM can be opened. -/
def captureTurn : InputLabel 1 := .capture ⟨true, fun _ => some fun _ => 7⟩

end Trout.Audio
