import Trout.GridRounding
import Trout.InputStream

/-! The refinement of a stream's parameters rounds the rate to the supported ones and is a projection; the size
query agrees with the open. -/

namespace Trout.Audio
open CInt Grid

/-- `sample_rates` of `refine_output_parameters` -/
def outputSampleRates : List UInt32 := [8000, 11025, 16000, 22050, 24000, 32000, 44100, 48000]

/-- `sample_rates` of `refine_input_parameters` -/
def inputSampleRates : List UInt32 := [8000, 11025, 16000, 22050, 44100, 48000]

/-- `get_input_buffer_size`, which counts the channels before the refinement. -/
def getInputBufferSize (config : AudioConfig) (p : PeriodProperties) : Nat :=
  let channelCount := popcount config.channelMask
  let refined := refineInputParameters config
  if refined.2 then 0
  else
    let size := (refined.1.sampleRate * p.periodMs.toUInt32 / 1000).toNat
    sizeMul (sizeMul ((size + 15) % sizeMod / 16) 16) (sizeMul 2 channelCount)

/-! ### The sample rate -/

/-- The supported rates as numbers. -/
def rateGrid (sampleRates : List UInt32) : Set Nat := {n | ∃ rate ∈ sampleRates, rate.toNat = n}

theorem rateGrid_cons (rate : UInt32) (rates : List UInt32) :
    rateGrid (rate :: rates) = insert rate.toNat (rateGrid rates) := by
  ext n
  simp [rateGrid, eq_comm]

/-- The loop over a sorted table rounds the rate up to it. -/
theorem refineSampleRate_rounds {sampleRates : List UInt32} (hsorted : sampleRates.Pairwise (· < ·))
    (hsome : sampleRates ≠ []) (rate : UInt32) :
    RoundsTo (rateGrid sampleRates) rate.toNat (refineSampleRate sampleRates rate).1.toNat := by
  induction sampleRates with
  | nil => exact absurd rfl hsome
  | cons supported rest ih =>
      obtain ⟨hfirst, hrest⟩ := List.pairwise_cons.mp hsorted
      have hbelow : ∀ n ∈ rateGrid rest, supported.toNat ≤ n := by
        rintro n ⟨r, hr, rfl⟩
        exact (UInt32.lt_iff_toNat_lt.mp (hfirst r hr)).le
      rw [rateGrid_cons, refineSampleRate]
      split
      · next hlt =>
          refine .of_least ⟨⟨Set.mem_insert _ _, (UInt32.lt_iff_toNat_lt.mp hlt).le⟩, ?_⟩
          rintro n ⟨rfl | hn, -⟩
          · exact le_rfl
          · exact hbelow n hn
      next hlt =>
      split
      · next heq =>
          rw [heq]
          exact .self (Set.mem_insert _ _)
      next heq =>
      have hgt : supported.toNat < rate.toNat := by
        rcases Nat.lt_trichotomy rate.toNat supported.toNat with hless | hsame | hmore
        · exact absurd (UInt32.lt_iff_toNat_lt.mpr hless) hlt
        · exact absurd (UInt32.toNat_inj.mp hsame) heq
        · exact hmore
      split
      · next hlast =>
          rw [List.isEmpty_iff.mp hlast]
          have hnone : rateGrid [] = ∅ := by simp [rateGrid]
          rw [hnone]
          refine .of_greatest ?_ ⟨Set.mem_insert _ _, ?_⟩
          · rintro n (rfl | hn)
            · exact hgt
            · exact absurd hn (Set.notMem_empty n)
          · rintro n (rfl | hn)
            · exact le_rfl
            · exact absurd hn (Set.notMem_empty n)
      · next hmore => exact (ih hrest fun hnil => hmore (hnil ▸ rfl)).insert hgt hbelow

/-- The flag tells whether the rate has been changed. -/
theorem refineSampleRate_changed {sampleRates : List UInt32} {rate : UInt32}
    (h : (refineSampleRate sampleRates rate).2 = true) : (refineSampleRate sampleRates rate).1 ≠ rate := by
  induction sampleRates with
  | nil => cases h
  | cons supported rest ih =>
      rw [refineSampleRate] at h ⊢
      by_cases hlt : rate < supported
      · rw [if_pos hlt]
        exact (UInt32.ne_of_lt hlt).symm
      rw [if_neg hlt] at h ⊢
      by_cases heq : rate = supported
      · rw [if_pos heq] at h
        cases h
      rw [if_neg heq] at h ⊢
      by_cases hlast : rest.isEmpty
      · rw [if_pos hlast]
        exact fun hsame => heq hsame.symm
      · rw [if_neg hlast] at h ⊢
        exact ih h

/-! ### The configuration -/

/-- A refinement is a projection onto the configurations of 16-bit PCM with one or two channels and a supported
rate, and rounds the rate. -/
structure Projects (refine : AudioConfig → AudioConfig × Bool) (sampleRates : List UInt32) : Prop where
  accepts : ∀ config, (refine config).2 = false ↔ (refine config).1 = config
  format : ∀ config, (refine config).1.format = audioFormatPcm16Bit
  channels : ∀ config, popcount (refine config).1.channelMask = 1 ∨ popcount (refine config).1.channelMask = 2
  rate : ∀ config, RoundsTo (rateGrid sampleRates) config.sampleRate.toNat (refine config).1.sampleRate.toNat
  again : ∀ config, refine (refine config).1 = ((refine config).1, false)
  mono : ∀ config config', config.sampleRate ≤ config'.sampleRate →
    (refine config).1.sampleRate ≤ (refine config').1.sampleRate

theorem popcount_inStereo : popcount audioChannelInStereo = 2 := by decide

section Refinement
variable {sampleRates : List UInt32}

theorem refineParameters_format (config : AudioConfig) :
    (refineParameters sampleRates config).1.format = audioFormatPcm16Bit := by
  dsimp only [refineParameters]
  split
  · rfl
  · next hformat => exact not_not.mp hformat

theorem refineParameters_channels (config : AudioConfig) :
    popcount (refineParameters sampleRates config).1.channelMask = 1 ∨
      popcount (refineParameters sampleRates config).1.channelMask = 2 := by
  dsimp only [refineParameters]
  split
  · exact Or.inr popcount_inStereo
  · next hchannels =>
      rw [not_and_or, not_not, not_not] at hchannels
      exact hchannels

/-- A configuration is rejected when its format, its channels or its rate has to be changed. -/
theorem refineParameters_rejected {config : AudioConfig} (h : (refineParameters sampleRates config).2 = true) :
    (refineParameters sampleRates config).1 ≠ config := by
  intro hsame
  have hformat := congrArg AudioConfig.format hsame
  have hchannels := congrArg (fun c => popcount c.channelMask) hsame
  have hrate := congrArg AudioConfig.sampleRate hsame
  rw [refineParameters_format] at hformat
  have hcount : popcount (refineParameters sampleRates config).1.channelMask = 1 ∨
      popcount (refineParameters sampleRates config).1.channelMask = 2 := refineParameters_channels config
  rw [hchannels] at hcount
  simp only [refineParameters, Bool.or_eq_true, decide_eq_true_eq] at h
  rcases h with (hbad | hbad) | hbad
  · exact hbad hformat.symm
  · rcases hcount with hone | htwo
    · exact hbad.1 hone
    · exact hbad.2 htwo
  · exact refineSampleRate_changed hbad hrate

theorem refineParameters_projects (hsorted : sampleRates.Pairwise (· < ·)) (hsome : sampleRates ≠ []) :
    Projects (refineParameters sampleRates) sampleRates := by
  have haccepts : ∀ config, (refineParameters sampleRates config).2 = false ↔
      (refineParameters sampleRates config).1 = config := by
    intro config
    constructor
    · intro h
      exact (refineParameters_accepted (Prod.ext rfl h)).1
    · intro h
      exact Bool.eq_false_iff.mpr fun hrejected => refineParameters_rejected hrejected h
  have hrate : ∀ config, RoundsTo (rateGrid sampleRates) config.sampleRate.toNat
      (refineParameters sampleRates config).1.sampleRate.toNat :=
    fun config => refineSampleRate_rounds hsorted hsome config.sampleRate
  refine ⟨haccepts, refineParameters_format, refineParameters_channels, hrate, fun config => ?_, fun config config' hle => ?_⟩
  · generalize hrefined : (refineParameters sampleRates config).1 = refined
    have hformat : refined.format = audioFormatPcm16Bit := hrefined ▸ refineParameters_format config
    have hchannels : popcount refined.channelMask = 1 ∨ popcount refined.channelMask = 2 :=
      hrefined ▸ refineParameters_channels config
    have hround := hrate refined
    rw [← hrefined] at hround
    have hsameRate := UInt32.toNat_inj.mp ((hrate config).eq_of_again hround)
    rw [hrefined] at hsameRate
    have hsame : (refineParameters sampleRates refined).1 = refined := by
      have hgood : ¬ (popcount refined.channelMask ≠ 1 ∧ popcount refined.channelMask ≠ 2) := by
        rintro ⟨hone, htwo⟩
        exact hchannels.elim hone htwo
      have hrate' : (refineSampleRate sampleRates refined.sampleRate).1 = refined.sampleRate := hsameRate
      dsimp only [refineParameters]
      rw [if_neg (not_not.mpr hformat), if_neg hgood, hrate']
    exact Prod.ext hsame ((haccepts refined).mpr hsame)
  · exact UInt32.le_iff_toNat_le.mpr ((hrate config).mono (hrate config') (UInt32.le_iff_toNat_le.mp hle))

end Refinement

theorem refineOutputParameters_projects : Projects refineOutputParameters outputSampleRates :=
  refineParameters_projects (by decide) (by decide)

theorem refineInputParameters_projects : Projects refineInputParameters inputSampleRates :=
  refineParameters_projects (by decide) (by decide)

/-! ### The period -/

theorem toUInt32_toNat (x : Int32) : (x.toUInt32.toNat : Int) = x.toInt % 2 ^ 32 := by
  have hbmod : x.toInt = Int.bmod x.toUInt32.toNat (2 ^ 32) := BitVec.toInt_eq_toNat_bmod _
  have hlt := x.toUInt32.toNat_lt
  have hmod := Int.bmod_emod (x := x.toUInt32.toNat) (m := 2 ^ 32)
  rw [← hbmod] at hmod
  push_cast at hmod
  omega

/-- The product of an unsigned and a signed number is unsigned and wraps. -/
theorem mul_toUInt32_toNat (x : UInt32) (y : Int32) :
    ((x * y.toUInt32).toNat : Int) = (x.toNat * y.toInt) % 2 ^ 32 := by
  rw [UInt32.toNat_mul, Int.natCast_emod, Int.natCast_mul, toUInt32_toNat y]
  push_cast
  exact (Int.mod_modEq y.toInt (2 ^ 32)).mul_left _

/-! ### The size query -/

/-- The product of the rate and the period in milliseconds. -/
def rateMs (config : AudioConfig) (p : PeriodProperties) : Int := config.sampleRate.toNat * p.periodMs.toInt

theorem openInput_rejects {allocated : Bool} {calloc : Nat → Bool} {p : PeriodProperties} {device : AudioDevice}
    {address : Option String} {config : AudioConfig} :
    adevOpenInputStream allocated calloc p device address config = .error .einval ↔
      (refineInputParameters config).2 = true := by
  rw [adevOpenInputStream]
  dsimp only
  split
  · next hinval => exact iff_of_true rfl hinval
  next hinval =>
  refine iff_of_false ?_ hinval
  split
  · exact fun h => by cases h
  · rw [audioVbufferInit]
    split
    · next heq =>
        split at heq
        · cases heq
        · cases heq
          exact fun h => by cases h
    · exact fun h => by cases h

/-- The least multiple of 16 that is not below a number. -/
theorem roundUp16_isLeast (n : Nat) : IsLeast {m | 16 ∣ m ∧ n ≤ m} ((n + 15) / 16 * 16) := by
  constructor
  · exact ⟨Nat.dvd_mul_left 16 _, by omega⟩
  · rintro m ⟨⟨k, rfl⟩, hle⟩
    omega

theorem inputBufferSize_eq {config : AudioConfig} {p : PeriodProperties} (haccepted : (refineInputParameters config).2 = false)
    (hfirst : 1000 ≤ rateMs config p) (hlast : rateMs config p < 2 ^ 32) :
    getInputBufferSize config p = ((rateMs config p).toNat / 1000 + 15) / 16 * 16 * config.frameSize := by
  obtain ⟨hsame, hchannels⟩ := refineParameters_accepted (Prod.ext rfl haccepted)
  have hproduct : (config.sampleRate * p.periodMs.toUInt32).toNat = (rateMs config p).toNat := by
    have hmod := mul_toUInt32_toNat config.sampleRate p.periodMs
    rw [rateMs] at *
    omega
  have hsize : (config.sampleRate * p.periodMs.toUInt32 / 1000).toNat = (rateMs config p).toNat / 1000 := by
    rw [UInt32.toNat_div, hproduct]
    rfl
  have hconfig : (refineInputParameters config).1.sampleRate = config.sampleRate := congrArg AudioConfig.sampleRate hsame
  have hsmall : (rateMs config p).toNat / 1000 < 2 ^ 32 := by omega
  rw [getInputBufferSize]
  dsimp only
  rw [haccepted, if_neg Bool.false_ne_true, hconfig, hsize, AudioConfig.frameSize]
  generalize (rateMs config p).toNat / 1000 = size at hsmall
  simp only [sizeMul, sizeMod]
  rcases hchannels with hone | htwo
  · rw [hone]
    omega
  · rw [htwo]
    omega

/-- Both refinements are projections, and the size query returns 0 for what an open rejects, and otherwise the
least multiple of 16 frames that holds a period. -/
theorem refinement_projects_and_size_agrees :
    Projects refineOutputParameters outputSampleRates ∧ Projects refineInputParameters inputSampleRates ∧
      ∀ (config : AudioConfig) (p : PeriodProperties), 1000 ≤ rateMs config p → rateMs config p < 2 ^ 32 →
        ∀ allocated calloc device address,
          (getInputBufferSize config p = 0 ↔
            adevOpenInputStream allocated calloc p device address config = .error .einval) ∧
          (adevOpenInputStream allocated calloc p device address config ≠ .error .einval →
            ∃ frames, IsLeast {n | 16 ∣ n ∧ (rateMs config p).toNat / 1000 ≤ n} frames ∧
              getInputBufferSize config p = frames * config.frameSize) := by
  refine ⟨refineOutputParameters_projects, refineInputParameters_projects, ?_⟩
  intro config p hfirst hlast allocated calloc device address
  rw [ne_eq, openInput_rejects]
  by_cases hrejected : (refineInputParameters config).2 = true
  · refine ⟨iff_of_true ?_ hrejected, fun h => absurd hrejected h⟩
    rw [getInputBufferSize]
    dsimp only
    rw [if_pos hrejected]
  · have hsize := inputBufferSize_eq (Bool.not_eq_true _ ▸ hrejected) hfirst hlast
    refine ⟨iff_of_false ?_ hrejected, fun _ => ⟨_, roundUp16_isLeast _, hsize⟩⟩
    rw [hsize]
    obtain ⟨-, hchannels⟩ := refineParameters_accepted (Prod.ext rfl (Bool.not_eq_true _ ▸ hrejected) :
      refineInputParameters config = ((refineInputParameters config).1, false))
    have hpos : 0 < ((rateMs config p).toNat / 1000 + 15) / 16 * 16 := by omega
    have hframe : 0 < config.frameSize := by
      rw [AudioConfig.frameSize]
      omega
    exact (Nat.mul_pos hpos hframe).ne'

end Trout.Audio
