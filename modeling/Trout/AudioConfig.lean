import Trout.VbufferQueue

/-! The configuration of a stream: the parameters the client asks for, their refinement to what the
device supports, and the fixed PCM configuration with the period that the properties set. Of
`struct audio_config` and `struct pcm_config` only the fields that the streams read are kept. -/

namespace Trout.Audio
open CInt

/-- `struct audio_config` -/
structure AudioConfig where
  sampleRate : UInt32
  format : UInt32
  channelMask : UInt32
  deriving DecidableEq

/-- `AUDIO_FORMAT_PCM_16_BIT` -/
def audioFormatPcm16Bit : UInt32 := 1

/-- `AUDIO_CHANNEL_IN_STEREO`, the left and the right input channel. -/
def audioChannelInStereo : UInt32 := 0xC

def popcount (x : UInt32) : Nat := (List.range 32).countP fun i => x.toBitVec.getLsbD i

/-- The loop over a table of supported rates: the refined rate and whether it differs. -/
def refineSampleRate : List UInt32 → UInt32 → UInt32 × Bool
  | [], rate => (rate, false)
  | supported :: rest, rate =>
      if rate < supported then (supported, true)
      else if rate = supported then (rate, false)
      else if rest.isEmpty then (supported, true)
      else refineSampleRate rest rate

/-- The common body of the two refinement functions: the refined configuration and `inval`. -/
def refineParameters (sampleRates : List UInt32) (config : AudioConfig) : AudioConfig × Bool :=
  let badFormat := config.format ≠ audioFormatPcm16Bit
  let channelCount := popcount config.channelMask
  let badChannels := channelCount ≠ 1 ∧ channelCount ≠ 2
  let rate := refineSampleRate sampleRates config.sampleRate
  ({ sampleRate := rate.1
     format := if badFormat then audioFormatPcm16Bit else config.format
     channelMask := if badChannels then audioChannelInStereo else config.channelMask },
    decide badFormat || decide badChannels || rate.2)

def refineOutputParameters : AudioConfig → AudioConfig × Bool :=
  refineParameters [8000, 11025, 16000, 22050, 24000, 32000, 44100, 48000]

def refineInputParameters : AudioConfig → AudioConfig × Bool :=
  refineParameters [8000, 11025, 16000, 22050, 44100, 48000]

/-- `struct pcm_config`, in the format `PCM_FORMAT_S16_LE`. -/
structure PcmConfig where
  channels : UInt32
  rate : UInt32
  periodSize : UInt32
  periodCount : UInt32
  deriving DecidableEq

/-- `pcm_format_to_bits` of `PCM_FORMAT_S16_LE` -/
def pcmFormatToBits : UInt32 := 16

/-- The period length in milliseconds and the number of periods, as the properties give them. -/
structure PeriodProperties where
  periodMs : Int32
  periodCount : Int32

/-- `pcm_config_out` or `pcm_config_in` with the rate of the stream. -/
def pcmConfigFor (rate : UInt32) (p : PeriodProperties) : PcmConfig where
  channels := 2
  rate := rate
  periodSize := rate * p.periodMs.toUInt32 / 1000
  periodCount := p.periodCount.toUInt32

/-- The capacity passed to `audio_vbuffer_init`. -/
def PcmConfig.capacity (c : PcmConfig) : Nat := (c.periodSize * c.periodCount).toNat

/-- The frame size passed to `audio_vbuffer_init`. -/
def PcmConfig.frameSize (c : PcmConfig) : Nat := (c.channels * pcmFormatToBits >>> 3).toNat

/-- `pcm_frames_to_bytes` -/
def PcmConfig.framesToBytes (c : PcmConfig) (frames : Nat) : Nat :=
  frames * (c.channels * (pcmFormatToBits >>> 3)).toNat % uintMod

/-- The bytes of a frame of the client, whose channels are those of its own configuration. -/
def AudioConfig.frameSize (c : AudioConfig) : Nat := 2 * popcount c.channelMask

theorem pcmConfigFor_frameSize (rate : UInt32) (p : PeriodProperties) : (pcmConfigFor rate p).frameSize = 4 := rfl

theorem pcmConfigFor_framesToBytes (rate : UInt32) (p : PeriodProperties) (frames : Nat) :
    (pcmConfigFor rate p).framesToBytes frames = frames * 4 % uintMod := rfl

/-- A period is short enough for its bytes to fit an `int`. -/
theorem pcmConfigFor_periodSize (rate : UInt32) (p : PeriodProperties) :
    (pcmConfigFor rate p).periodSize.toNat * 4 ≤ intMax := by
  have hlt := (rate * p.periodMs.toUInt32).toNat_lt
  have hdiv : (pcmConfigFor rate p).periodSize.toNat = (rate * p.periodMs.toUInt32).toNat / 1000 := UInt32.toNat_div _ _
  rw [hdiv, intMax]
  omega

theorem PcmConfig.capacity_lt (c : PcmConfig) : c.capacity < 2 ^ 32 := (c.periodSize * c.periodCount).toNat_lt

theorem refineSampleRate_accepted {sampleRates : List UInt32} {rate : UInt32}
    (h : (refineSampleRate sampleRates rate).2 = false) : (refineSampleRate sampleRates rate).1 = rate := by
  induction sampleRates with
  | nil => rfl
  | cons supported rest ih =>
      rw [refineSampleRate] at h ⊢
      by_cases hlt : rate < supported
      · rw [if_pos hlt] at h
        cases h
      rw [if_neg hlt] at h ⊢
      by_cases heq : rate = supported
      · rw [if_pos heq]
      rw [if_neg heq] at h ⊢
      by_cases hlast : rest.isEmpty
      · rw [if_pos hlast] at h
        cases h
      · rw [if_neg hlast] at h ⊢
        exact ih h

/-- A configuration that refinement accepts is left as it is and has one or two channels. -/
theorem refineParameters_accepted {sampleRates : List UInt32} {config refined : AudioConfig}
    (h : refineParameters sampleRates config = (refined, false)) :
    refined = config ∧ (popcount config.channelMask = 1 ∨ popcount config.channelMask = 2) := by
  have hinval := congrArg Prod.snd h
  have hrefined := congrArg Prod.fst h
  simp only [refineParameters, Bool.or_eq_false_iff, decide_eq_false_iff_not] at hinval hrefined
  obtain ⟨⟨hformat, hchannels⟩, hrate⟩ := hinval
  rw [if_neg hchannels, if_neg hformat, refineSampleRate_accepted hrate] at hrefined
  refine ⟨hrefined.symm, ?_⟩
  by_contra hnone
  exact hchannels (not_or.mp hnone)

/-- For frames of four bytes a length that overflows `int` leaves every allocation. -/
theorem wide_four {capacity m : Nat} (hlt : capacity < 2 ^ 32) (hm : intMax < m) (hle : m ≤ capacity) :
    capacity * 4 < sizeMul (toSize (toInt m)) 4 := by
  rw [toInt_of_gt hm (by omega)]
  simp only [toSize, sizeMul, sizeMod, intMax] at *
  omega

/-- The ring buffer of a stream with a non-empty capacity is well formed, whatever the capacity. -/
theorem streamVbuffer_wellFormed {calloc : Nat → Bool} {capacity : Nat} {b : AudioVbuffer}
    (hpos : 0 < capacity) (hlt : capacity < 2 ^ 32) (hinit : audioVbufferInit calloc capacity 4 = .ok b) :
    b.WellFormed :=
  (audioVbufferInit_spec hpos hlt (by omega) (fun _ hm hle => wide_four hlt hm hle) hinit).1

end Trout.Audio
