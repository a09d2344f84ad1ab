import Trout.IntegerParameters

/-! The parameters of the device: `adev_set_parameters` and, where the hands-free profile is compiled in,
`audio_extn_hfp_set_parameters`. Both look their keys up one after the other and keep one result. -/

namespace Trout.Audio
open CInt CString

/-- The fields of `struct generic_audio_device` that parameters set. -/
structure DeviceParameters where
  lastZoneSelectedToPlay : Int
  hfpRunning : Bool
  deriving DecidableEq

/-- The mixer as the functions below see it: which controls `mixer_get_ctl_by_name` finds, and which values
`mixer_ctl_set_value` takes for them. -/
structure MixerControls where
  find : String → Bool
  takes : String → Int → Bool

/-- A `mixer_ctl_set_value` that has succeeded. -/
structure MixerCommand where
  name : String
  value : Int
  deriving DecidableEq

def parameterSelectedZone : String := "com.android.car.emulator.selected_zone"
def parameterHfpEnable : String := "hfp_enable"
def parameterHfpSetSamplingRate : String := "hfp_set_sampling_rate"
def parameterHfpVolume : String := "hfp_volume"
def parameterHfpValueMax : Nat := 128

/-- What the setters of `hfp.c` share: they find the control of their name and set it. -/
def setControl (mixer : MixerControls) (name : String) (value : Int) : Int × List MixerCommand :=
  if mixer.find name = false then
    (-Errno.einval.number, [])
  else if mixer.takes name value = false then
    (-Errno.einval.number, [])
  else
    (0, [⟨name, value⟩])

/-- `hfp_set_enable` -/
def hfpSetEnable (mixer : MixerControls) (adev : DeviceParameters) (enable : Bool) :
    DeviceParameters × Int × List MixerCommand :=
  let set := setControl mixer parameterHfpEnable enable.toInt
  if set.1 < 0 then (adev, set) else ({ adev with hfpRunning := enable }, 0, set.2)

def hfpSetSamplingRate (mixer : MixerControls) (rate : Int) : Int × List MixerCommand :=
  setControl mixer parameterHfpSetSamplingRate rate

def hfpSetVolume (mixer : MixerControls) (vol : Int) : Int × List MixerCommand :=
  setControl mixer parameterHfpVolume vol

/-- The part of `audio_extn_hfp_set_parameters` that starts and stops the profile, with `ret` after it. -/
def hfpEnableParameter (mixer : MixerControls) (adev : DeviceParameters) (strParms : StrParms) :
    DeviceParameters × Int × List MixerCommand :=
  let value := strParmsGetStr strParms parameterHfpEnable parameterHfpValueMax
  if 0 ≤ value.1 then
    if value.2 = "true".toList then
      if adev.hfpRunning = false then hfpSetEnable mixer adev true else (adev, value.1, [])
    else if adev.hfpRunning = true then
      hfpSetEnable mixer adev false
    else
      (adev, value.1, [])
  else
    (adev, value.1, [])

/-- The parts that hand a number to a setter; `strtol` is not asked for the end of the number. -/
def hfpNumberParameter (strParms : StrParms) (key : String) (set : Int → Int × List MixerCommand) :
    Int × List MixerCommand :=
  let value := strParmsGetStr strParms key parameterHfpValueMax
  if 0 ≤ value.1 then set (toInt (strtol value.2).value) else (value.1, [])

/-- `audio_extn_hfp_set_parameters`. A failed part ends it, a missing key does not. -/
def audioExtnHfpSetParameters (mixer : MixerControls) (adev : DeviceParameters) (strParms : StrParms) :
    DeviceParameters × Int × List MixerCommand :=
  let enabled := hfpEnableParameter mixer adev strParms
  if 0 ≤ (strParmsGetStr strParms parameterHfpEnable parameterHfpValueMax).1 ∧ enabled.2.1 < 0 then
    enabled
  else
    let rate := hfpNumberParameter strParms parameterHfpSetSamplingRate (hfpSetSamplingRate mixer)
    if 0 ≤ (strParmsGetStr strParms parameterHfpSetSamplingRate parameterHfpValueMax).1 ∧ rate.1 < 0 then
      (enabled.1, rate.1, enabled.2.2 ++ rate.2)
    else
      let vol := hfpNumberParameter strParms parameterHfpVolume (hfpSetVolume mixer)
      (enabled.1, vol.1, enabled.2.2 ++ rate.2 ++ vol.2)

/-- `adev_set_parameters`, with the mixer commands. Without the hands-free profile `audio_extn_hfp_set_parameters` is
zero. -/
def adevSetParameters (hfpEnabled : Bool) (mixer : MixerControls) (adev : DeviceParameters) (strParms : StrParms) :
    DeviceParameters × Int × List MixerCommand :=
  let results := getIntValue strParms parameterSelectedZone 0
  let selected := if 0 ≤ results.1 then { adev with lastZoneSelectedToPlay := results.2 } else adev
  if hfpEnabled then audioExtnHfpSetParameters mixer selected strParms else (selected, 0, [])

/-! ### What becomes of a key -/

inductive ParameterKey where
  | selectedZone
  | hfpEnable
  | hfpSetSamplingRate
  | hfpVolume
  deriving DecidableEq

def ParameterKey.name : ParameterKey → String
  | .selectedZone => parameterSelectedZone
  | .hfpEnable => parameterHfpEnable
  | .hfpSetSamplingRate => parameterHfpSetSamplingRate
  | .hfpVolume => parameterHfpVolume

def recognisedKeys (hfpEnabled : Bool) : List ParameterKey :=
  .selectedZone :: if hfpEnabled then [.hfpEnable, .hfpSetSamplingRate, .hfpVolume] else []

/-- The control exists and takes the value. -/
def MixerControls.Sets (mixer : MixerControls) (name : String) (value : Int) : Prop :=
  mixer.find name = true ∧ mixer.takes name value = true

/-- The value of the key can be applied: the zone is stored, and the profile is in the state already or the mixer takes
the value. -/
def ParameterKey.Applies (mixer : MixerControls) (hfpRunning : Bool) (value : List Char) : ParameterKey → Prop
  | .selectedZone => 0 ≤ (getIntValue (fun _ => some value) parameterSelectedZone 0).1
  | .hfpEnable =>
      let enable := decide (value.take (parameterHfpValueMax - 1) = "true".toList)
      hfpRunning = enable ∨ mixer.Sets parameterHfpEnable enable.toInt
  | .hfpSetSamplingRate =>
      mixer.Sets parameterHfpSetSamplingRate (toInt (strtol (value.take (parameterHfpValueMax - 1))).value)
  | .hfpVolume => mixer.Sets parameterHfpVolume (toInt (strtol (value.take (parameterHfpValueMax - 1))).value)

/-- The key is there and cannot be applied. -/
def ParameterKey.Fails (mixer : MixerControls) (hfpRunning : Bool) (strParms : StrParms) (key : ParameterKey) : Prop :=
  ∃ value, strParms key.name = some value ∧ ¬ key.Applies mixer hfpRunning value

/-- The key is there with a value that is held to be invalid, or cannot be applied. -/
def ParameterKey.Faulty (invalid : ParameterKey → List Char → Prop) (mixer : MixerControls) (hfpRunning : Bool)
    (strParms : StrParms) (key : ParameterKey) : Prop :=
  ∃ value, strParms key.name = some value ∧ (invalid key value ∨ ¬ key.Applies mixer hfpRunning value)

theorem strParmsGetStr_present {strParms : StrParms} {key : String} {value : List Char} (h : strParms key = some value)
    (len : Nat) : strParmsGetStr strParms key len = ((value.length : Int), value.take (len - 1)) := by
  rw [strParmsGetStr, h]

theorem strParmsGetStr_missing {strParms : StrParms} {key : String} (h : strParms key = none) (len : Nat) :
    strParmsGetStr strParms key len = (-Errno.enoent.number, []) := by
  rw [strParmsGetStr, h]

theorem setControl_negative_iff {mixer : MixerControls} {name : String} {value : Int} :
    (setControl mixer name value).1 < 0 ↔ ¬ mixer.Sets name value := by
  rw [setControl, MixerControls.Sets]
  cases mixer.find name with
  | false => simp [Errno.number]
  | true =>
      cases mixer.takes name value with
      | false => simp [Errno.number]
      | true => simp

theorem hfpSetEnable_negative_iff {mixer : MixerControls} {adev : DeviceParameters} {enable : Bool} :
    (hfpSetEnable mixer adev enable).2.1 < 0 ↔ ¬ mixer.Sets parameterHfpEnable enable.toInt := by
  rw [hfpSetEnable, ← setControl_negative_iff]
  by_cases hret : (setControl mixer parameterHfpEnable enable.toInt).1 < 0
  · rw [if_pos hret]
  · rw [if_neg hret]
    exact iff_of_false (lt_irrefl 0) hret

/-- Starting or stopping the profile fails when the key is there and cannot be applied. -/
theorem hfpEnableParameter_fails_iff (mixer : MixerControls) (adev : DeviceParameters) (strParms : StrParms) :
    (0 ≤ (strParmsGetStr strParms parameterHfpEnable parameterHfpValueMax).1 ∧
      (hfpEnableParameter mixer adev strParms).2.1 < 0) ↔
        ParameterKey.hfpEnable.Fails mixer adev.hfpRunning strParms := by
  cases hvalue : strParms parameterHfpEnable with
  | none =>
      rw [strParmsGetStr_missing hvalue]
      refine iff_of_false (fun h => absurd h.1 (not_le_of_gt (errno_negative .enoent))) ?_
      rintro ⟨value, hsome, -⟩
      cases hvalue.symm.trans hsome
  | some value =>
      have hpresent : (0 : Int) ≤ value.length := Int.natCast_nonneg _
      have hfails : ParameterKey.hfpEnable.Fails mixer adev.hfpRunning strParms ↔
          ¬ ParameterKey.hfpEnable.Applies mixer adev.hfpRunning value := by
        constructor
        · rintro ⟨other, hother, hnot⟩
          cases hvalue.symm.trans hother
          exact hnot
        · exact fun hnot => ⟨value, hvalue, hnot⟩
      rw [hfails]
      simp only [hfpEnableParameter, strParmsGetStr_present hvalue, hpresent, true_and, if_true, ParameterKey.Applies]
      by_cases htrue : value.take (parameterHfpValueMax - 1) = "true".toList
      · rw [if_pos htrue, decide_eq_true htrue]
        cases hrunning : adev.hfpRunning with
        | true => simp
        | false =>
            rw [if_pos rfl, hfpSetEnable_negative_iff]
            simp
      · rw [if_neg htrue, decide_eq_false htrue]
        cases hrunning : adev.hfpRunning with
        | true =>
            rw [if_pos rfl, hfpSetEnable_negative_iff]
            simp
        | false => simp

/-- A number is not set when its key is missing, and when its control does not take it. -/
theorem hfpNumberParameter_negative_iff (mixer : MixerControls) (strParms : StrParms) (name : String) :
    (hfpNumberParameter strParms name (setControl mixer name)).1 < 0 ↔
      strParms name = none ∨ ∃ value, strParms name = some value ∧
        ¬ mixer.Sets name (toInt (strtol (value.take (parameterHfpValueMax - 1))).value) := by
  rw [hfpNumberParameter]
  cases hvalue : strParms name with
  | none =>
      rw [strParmsGetStr_missing hvalue]
      exact iff_of_true (errno_negative .enoent) (Or.inl rfl)
  | some value =>
      have hpresent : (0 : Int) ≤ value.length := Int.natCast_nonneg _
      rw [strParmsGetStr_present hvalue, if_pos hpresent, setControl_negative_iff]
      simp only [Option.some.injEq, exists_eq_left', reduceCtorEq, false_or]

theorem hfpSetSamplingRate_fails_iff (mixer : MixerControls) (hfpRunning : Bool) (strParms : StrParms) :
    (0 ≤ (strParmsGetStr strParms parameterHfpSetSamplingRate parameterHfpValueMax).1 ∧
      (hfpNumberParameter strParms parameterHfpSetSamplingRate (hfpSetSamplingRate mixer)).1 < 0) ↔
        ParameterKey.hfpSetSamplingRate.Fails mixer hfpRunning strParms := by
  have hnegative := hfpNumberParameter_negative_iff mixer strParms parameterHfpSetSamplingRate
  constructor
  · rintro ⟨hpresent, hrate⟩
    rcases hnegative.mp hrate with hmissing | hfails
    · rw [strParmsGetStr_missing hmissing] at hpresent
      exact absurd hpresent (not_le_of_gt (errno_negative .enoent))
    · exact hfails
  · intro hfails
    refine ⟨?_, hnegative.mpr (Or.inr hfails)⟩
    obtain ⟨value, hvalue, -⟩ := hfails
    have hget := strParmsGetStr_present hvalue parameterHfpValueMax
    rw [show strParmsGetStr strParms parameterHfpSetSamplingRate parameterHfpValueMax = _ from hget]
    exact Int.natCast_nonneg _

theorem hfpSetVolume_fails_iff (mixer : MixerControls) (hfpRunning : Bool) (strParms : StrParms) :
    (hfpNumberParameter strParms parameterHfpVolume (hfpSetVolume mixer)).1 < 0 ↔
      strParms parameterHfpVolume = none ∨ ParameterKey.hfpVolume.Fails mixer hfpRunning strParms :=
  hfpNumberParameter_negative_iff mixer strParms parameterHfpVolume

/-- With the hands-free profile the result is negative when a key of it fails, and when there is no volume. -/
theorem audioExtnHfpSetParameters_negative_iff (mixer : MixerControls) (adev : DeviceParameters) (strParms : StrParms) :
    (audioExtnHfpSetParameters mixer adev strParms).2.1 < 0 ↔
      strParms parameterHfpVolume = none ∨
        ∃ key ∈ recognisedKeys true, key ≠ .selectedZone ∧ key.Fails mixer adev.hfpRunning strParms := by
  have henable := hfpEnableParameter_fails_iff mixer adev strParms
  have hrate := hfpSetSamplingRate_fails_iff mixer adev.hfpRunning strParms
  have hvolume := hfpSetVolume_fails_iff mixer adev.hfpRunning strParms
  have hkeys : (∃ key ∈ recognisedKeys true, key ≠ .selectedZone ∧ key.Fails mixer adev.hfpRunning strParms) ↔
      ParameterKey.hfpEnable.Fails mixer adev.hfpRunning strParms ∨
        ParameterKey.hfpSetSamplingRate.Fails mixer adev.hfpRunning strParms ∨
          ParameterKey.hfpVolume.Fails mixer adev.hfpRunning strParms := by
    simp [recognisedKeys]
  rw [hkeys, audioExtnHfpSetParameters]
  dsimp only
  by_cases h1 : ParameterKey.hfpEnable.Fails mixer adev.hfpRunning strParms
  · rw [if_pos (henable.mpr h1)]
    exact iff_of_true (henable.mpr h1).2 (Or.inr (Or.inl h1))
  rw [if_neg (fun h => h1 (henable.mp h))]
  by_cases h2 : ParameterKey.hfpSetSamplingRate.Fails mixer adev.hfpRunning strParms
  · rw [if_pos (hrate.mpr h2)]
    exact iff_of_true (hrate.mpr h2).2 (Or.inr (Or.inr (Or.inl h2)))
  rw [if_neg (fun h => h2 (hrate.mp h)), hvolume]
  simp only [h1, h2, false_or]

/-! ### What is reported -/

section Reports
variable (invalid : ParameterKey → List Char → Prop) (hfpEnabled : Bool) (mixer : MixerControls)
  (adev : DeviceParameters) (strParms : StrParms)

/-- The result is negative if and only if a recognised key is there with an invalid value, or cannot be applied. -/
def ReportsFailures : Prop :=
  (adevSetParameters hfpEnabled mixer adev strParms).2.1 < 0 ↔
    ∃ key ∈ recognisedKeys hfpEnabled, key.Faulty invalid mixer adev.hfpRunning strParms

/-- Without the hands-free profile the zone is not faulty. With it a key of the profile fails, or there is a volume
exactly when no key is faulty. -/
def FailuresShow : Prop :=
  if hfpEnabled then
    (∃ key ∈ recognisedKeys true, key ≠ .selectedZone ∧ key.Fails mixer adev.hfpRunning strParms) ∨
      (strParms parameterHfpVolume ≠ none ↔
        ∀ key ∈ recognisedKeys true, ¬ key.Faulty invalid mixer adev.hfpRunning strParms)
  else
    ¬ ParameterKey.selectedZone.Faulty invalid mixer adev.hfpRunning strParms

/-- Selecting a zone leaves the profile as it is, and its result is not looked at. -/
theorem adevSetParameters_negative_iff :
    (adevSetParameters hfpEnabled mixer adev strParms).2.1 < 0 ↔
      hfpEnabled = true ∧ (strParms parameterHfpVolume = none ∨
        ∃ key ∈ recognisedKeys true, key ≠ .selectedZone ∧ key.Fails mixer adev.hfpRunning strParms) := by
  rw [adevSetParameters]
  cases hfpEnabled with
  | false => simp
  | true =>
      rw [if_pos rfl, audioExtnHfpSetParameters_negative_iff, and_iff_right rfl]
      by_cases hzone : 0 ≤ (getIntValue strParms parameterSelectedZone 0).1
      · rw [if_pos hzone]
      · rw [if_neg hzone]

/-- The result says what has been done exactly when, without the hands-free profile, the zone is not faulty, and with it
a key of the profile fails or there is a volume exactly when no key is faulty. -/
theorem set_parameters_reports :
    ReportsFailures invalid hfpEnabled mixer adev strParms ↔
      FailuresShow invalid hfpEnabled mixer adev strParms := by
  rw [ReportsFailures, FailuresShow, adevSetParameters_negative_iff]
  cases hfpEnabled with
  | false => simp [recognisedKeys]
  | true =>
      rw [if_pos rfl, and_iff_right rfl]
      by_cases hfails : ∃ key ∈ recognisedKeys true, key ≠ .selectedZone ∧ key.Fails mixer adev.hfpRunning strParms
      · have hfaulty : ∃ key ∈ recognisedKeys true, key.Faulty invalid mixer adev.hfpRunning strParms := by
          obtain ⟨key, hkey, -, value, hvalue, hnot⟩ := hfails
          exact ⟨key, hkey, value, hvalue, Or.inr hnot⟩
        exact iff_of_true (iff_of_true (Or.inr hfails) hfaulty) (Or.inl hfails)
      · simp only [hfails, or_false, false_or, ne_eq]
        have hnone : (∀ key ∈ recognisedKeys true, ¬ key.Faulty invalid mixer adev.hfpRunning strParms) ↔
            ¬ ∃ key ∈ recognisedKeys true, key.Faulty invalid mixer adev.hfpRunning strParms := by
          rw [not_exists]
          exact forall_congr' fun key => not_and.symm
        rw [hnone, not_iff_not]

end Reports

/-- A zone that is no number is reported as success, and with the hands-free profile a zone that has been applied is
reported as a failure. -/
theorem zone_misreported :
    (adevSetParameters false ⟨fun _ => true, fun _ _ => true⟩ ⟨1, false⟩
        (fun key => if key = parameterSelectedZone then some ['x'] else none) = (⟨1, false⟩, 0, []) ∧
      ¬ ReportsFailures (fun _ _ => False) false ⟨fun _ => true, fun _ _ => true⟩ ⟨1, false⟩
        (fun key => if key = parameterSelectedZone then some ['x'] else none)) ∧
    (adevSetParameters true ⟨fun _ => true, fun _ _ => true⟩ ⟨1, false⟩
        (fun key => if key = parameterSelectedZone then some ['2'] else none) = (⟨2, false⟩, -2, []) ∧
      ¬ ReportsFailures (fun _ _ => False) true ⟨fun _ => true, fun _ _ => true⟩ ⟨1, false⟩
        (fun key => if key = parameterSelectedZone then some ['2'] else none)) := by
  refine ⟨⟨rfl, fun h => ?_⟩, rfl, fun h => ?_⟩
  · have hfaulty : ParameterKey.selectedZone.Faulty (fun _ _ => False) ⟨fun _ => true, fun _ _ => true⟩ false
        (fun key => if key = parameterSelectedZone then some ['x'] else none) :=
      ⟨['x'], rfl, Or.inr (show ¬ 0 ≤ (getIntValue (fun _ => some ['x']) parameterSelectedZone 0).1 by decide)⟩
    exact absurd (h.mpr ⟨.selectedZone, by decide, hfaulty⟩) (by decide)
  · obtain ⟨key, hkey, value, hvalue, hfault⟩ := h.mp (by decide)
    have happlied : 0 ≤ (getIntValue (fun _ => some ['2']) parameterSelectedZone 0).1 := by decide
    cases key with
    | selectedZone =>
        cases hvalue
        exact hfault.elim id fun hnot => hnot happlied
    | _ => cases hvalue

end Trout.Audio
