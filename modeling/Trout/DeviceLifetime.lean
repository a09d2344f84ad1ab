import Trout.HfpControl
import Trout.ZoneRouting

/-! The life of the device in `audio_hw.c`. `adev_open` makes it for its first user and gives it to all others,
`adev_close` counts them and frees it after the last one. Both hold the module's lock from their first test on; a
device's calls hold its own. Addresses of devices are the elements of any type and come back after a `free`. The name
of the interface is a constant of the platform. -/

namespace Trout.Audio
open Runs

variable {α : Type}

/-! ### The device -/

/-- The fields of `struct generic_audio_device` that its calls set and report. -/
structure DeviceSettings where
  masterMute : Bool
  micMute : Bool
  parameters : DeviceParameters

/-- After the `calloc` and the assignments of `adev_open`. -/
def DeviceSettings.init : DeviceSettings := ⟨false, false, ⟨defaultZoneToLeftSpeaker, false⟩⟩

inductive DeviceCall where
  | setMasterMute (muted : Bool)
  | getMasterMute
  | setMicMute (state : Bool)
  | getMicMute
  | setParameters (hfpEnabled : Bool) (mixer : MixerControls) (strParms : StrParms)
  | isZoneSelectedToPlay (zoneId : Int)

/-- What a call returns, and what it assigns to `*muted` or `*state`; the test of a zone reports as such a state. -/
structure DeviceResult where
  ret : Int
  state : Option Bool
  deriving DecidableEq

/-- `adev_set_master_mute`, `adev_get_master_mute`, `adev_set_mic_mute`, `adev_get_mic_mute`, `adev_set_parameters`
and `is_zone_selected_to_play` -/
def DeviceSettings.call (adev : DeviceSettings) : DeviceCall → DeviceSettings × DeviceResult
  | .setMasterMute muted => ({ adev with masterMute := muted }, ⟨0, none⟩)
  | .getMasterMute => (adev, ⟨0, some adev.masterMute⟩)
  | .setMicMute state => ({ adev with micMute := state }, ⟨0, none⟩)
  | .getMicMute => (adev, ⟨0, some adev.micMute⟩)
  | .setParameters hfpEnabled mixer strParms =>
      let r := adevSetParameters hfpEnabled mixer adev.parameters strParms
      ({ adev with parameters := r.1 }, ⟨r.2.1, none⟩)
  | .isZoneSelectedToPlay zoneId =>
      (adev, ⟨0, some (Audio.isZoneSelectedToPlay adev.parameters.lastZoneSelectedToPlay zoneId)⟩)

/-! ### The module -/

/-- The variables of the module, and the devices that are allocated. -/
structure HalModule (α : Type) where
  audioDeviceRefCount : UInt32
  /-- The static variable of `adev_open`. -/
  adev : Option α
  deviceHandle : Option α
  heap : α → Option DeviceSettings

def HalModule.init : HalModule α := ⟨0, none, none, fun _ => none⟩

namespace HalModule
variable [DecidableEq α]

/-- `adev_open`, with what `calloc` returns: the result and what it assigns to `*device`. The device is written to
without a test for NULL. -/
def adevOpen (m : HalModule α) (audioHardwareInterface name : String) (calloc : Option α) :
    Option (HalModule α × Option Errno × Option α) :=
  if name ≠ audioHardwareInterface then
    some (m, some .einval, none)
  else if m.audioDeviceRefCount ≠ 0 then
    some ({ m with audioDeviceRefCount := m.audioDeviceRefCount + 1 }, none, m.adev)
  else
    calloc.bind fun p =>
      if m.heap p = none then
        some (⟨m.audioDeviceRefCount + 1, some p, some p, Function.update m.heap p (some .init)⟩, none, some p)
      else
        none

/-- `adev_close`. It frees the device that it is called for, which must be allocated. -/
def adevClose (m : HalModule α) (dev : Option α) : Option (HalModule α × Option Errno) :=
  match dev with
  | none => some (m, none)
  | some p =>
      if m.audioDeviceRefCount = 0 then
        some (m, some .einval)
      else if m.audioDeviceRefCount - 1 = 0 then
        (m.heap p).map fun _ =>
          ({ m with
              audioDeviceRefCount := m.audioDeviceRefCount - 1
              deviceHandle := none
              heap := Function.update m.heap p none }, none)
      else
        some ({ m with audioDeviceRefCount := m.audioDeviceRefCount - 1 }, none)

/-- A call of the device at an address. -/
def call (m : HalModule α) (p : α) (c : DeviceCall) : Option (HalModule α × DeviceResult) :=
  (m.heap p).map fun adev => ({ m with heap := Function.update m.heap p (some (adev.call c).1) }, (adev.call c).2)

end HalModule

/-! ### The module and its users -/

/-- The module, and how often its users have been given a device and have not closed it. -/
structure DeviceSystem (α : Type) where
  module : HalModule α
  handles : α → Nat

def DeviceSystem.init : DeviceSystem α := ⟨.init, fun _ => 0⟩

inductive DeviceLabel (α : Type) where
  | opens (name : String) (calloc : Option α)
  | closes (dev : Option α)
  | calls (p : α) (c : DeviceCall)

inductive DeviceEvent (α : Type) where
  | opened (ret : Option Errno) (device : Option α)
  | closed (dev : Option α) (ret : Option Errno)
  | called (c : DeviceCall) (result : DeviceResult)

section Steps
variable [DecidableEq α] (audioHardwareInterface : String)

def DeviceSystem.give (s : DeviceSystem α) (device : Option α) : α → Nat :=
  match device with
  | none => s.handles
  | some p => Function.update s.handles p (s.handles p + 1)

def DeviceSystem.take (s : DeviceSystem α) (dev : Option α) : α → Nat :=
  match dev with
  | none => s.handles
  | some p => Function.update s.handles p (s.handles p - 1)

/-- The next call. A user calls and closes a device that it has; a close that comes after the last one may be for any. -/
def deviceStep (s : DeviceSystem α) : DeviceLabel α → Option (DeviceSystem α × List (DeviceEvent α))
  | .opens name calloc =>
      (s.module.adevOpen audioHardwareInterface name calloc).map fun r =>
        (⟨r.1, s.give r.2.2⟩, [.opened r.2.1 r.2.2])
  | .closes dev =>
      if ∀ p ∈ dev, s.handles p ≠ 0 ∨ s.module.audioDeviceRefCount = 0 then
        (s.module.adevClose dev).map fun r => (⟨r.1, s.take dev⟩, [.closed dev r.2])
      else
        none
  | .calls p c =>
      if s.handles p = 0 then
        none
      else
        (s.module.call p c).map fun r => (⟨r.1, s.handles⟩, [.called c r.2])

end Steps

/-! ### A device that is shared -/

/-- What the module is for: how many users there are, and the calls since the first of them has come. -/
structure SharedDevice where
  users : Nat
  calls : List DeviceCall

def SharedDevice.init : SharedDevice := ⟨0, []⟩

/-- What a call reports: a state, or whether it has been carried out. -/
inductive SharedResult where
  | done
  | failed
  | state (value : Bool)
  deriving DecidableEq

def DeviceCall.masterMute? : DeviceCall → Option Bool
  | .setMasterMute muted => some muted
  | _ => none

def DeviceCall.micMute? : DeviceCall → Option Bool
  | .setMicMute state => some state
  | _ => none

/-- The zone that parameters select, if theirs can be read as a number. -/
def DeviceCall.zone? : DeviceCall → Option Int
  | .setParameters _ _ strParms =>
      let results := getIntValue strParms parameterSelectedZone 0
      if 0 ≤ results.1 then some results.2 else none
  | _ => none

instance (mixer : MixerControls) (name : String) (value : Int) : Decidable (mixer.Sets name value) :=
  inferInstanceAs (Decidable (mixer.find name = true ∧ mixer.takes name value = true))

/-- Whether parameters have the hands-free profile run, if the mixer takes it. -/
def DeviceCall.profile? : DeviceCall → Option Bool
  | .setParameters true mixer strParms =>
      (strParms parameterHfpEnable).bind fun value =>
        let enable := decide (value.take (parameterHfpValueMax - 1) = "true".toList)
        if mixer.Sets parameterHfpEnable enable.toInt then some enable else none
  | _ => none

namespace SharedDevice

/-- What any user has set last, or the default. -/
def masterMute (d : SharedDevice) : Bool := lastSet DeviceCall.masterMute? false d.calls

def micMute (d : SharedDevice) : Bool := lastSet DeviceCall.micMute? false d.calls

def zone (d : SharedDevice) : Int := lastSet DeviceCall.zone? defaultZoneToLeftSpeaker d.calls

def profile (d : SharedDevice) : Bool := lastSet DeviceCall.profile? false d.calls

open Classical in
/-- What a user is told. Parameters fail when a key of the hands-free profile cannot be applied, or has no volume with
it. -/
noncomputable def result (d : SharedDevice) : DeviceCall → SharedResult
  | .setMasterMute _ => .done
  | .getMasterMute => .state d.masterMute
  | .setMicMute _ => .done
  | .getMicMute => .state d.micMute
  | .setParameters hfpEnabled mixer strParms =>
      if hfpEnabled = true ∧ (strParms parameterHfpVolume = none ∨
          ∃ key ∈ recognisedKeys true, key ≠ .selectedZone ∧ key.Fails mixer d.profile strParms) then
        .failed
      else
        .done
  | .isZoneSelectedToPlay zoneId => .state (decide (zoneId = primaryZoneId ∨ zoneId = d.zone))

end SharedDevice

inductive SharedCall where
  | opens
  | closes
  /-- A close that is reported as an error. -/
  | refuses
  | calls (c : DeviceCall)

/-- The first user finds a new device; a close is refused when there is no user. -/
noncomputable def SharedDevice.step (d : SharedDevice) : SharedCall → Option (SharedDevice × List SharedResult)
  | .opens => some (⟨d.users + 1, if d.users = 0 then [] else d.calls⟩, [])
  | .closes => if d.users = 0 then none else some (⟨d.users - 1, d.calls⟩, [])
  | .refuses => if d.users = 0 then some (d, []) else none
  | .calls c => if d.users = 0 then none else some (⟨d.users, d.calls ++ [c]⟩, [d.result c])

/-- What the calls of a run are to the shared device. An open under another name and a close of NULL are nothing. -/
def sharedCalls (events : List (DeviceEvent α)) : List SharedCall :=
  events.filterMap fun
    | .opened none _ => some .opens
    | .opened (some _) _ => none
    | .closed (some _) none => some .closes
    | .closed (some _) (some _) => some .refuses
    | .closed none _ => none
    | .called c _ => some (.calls c)

/-- A negative result is a failure. -/
def DeviceResult.outcome (r : DeviceResult) : SharedResult :=
  if r.ret < 0 then
    .failed
  else
    match r.state with
    | some value => .state value
    | none => .done

/-- The outcomes of the device's calls in a run. -/
def deviceOutcomes (events : List (DeviceEvent α)) : List SharedResult :=
  events.filterMap fun
    | .called _ result => some result.outcome
    | _ => none

/-- The fields of the device while it is shared. -/
def SharedDevice.settings (d : SharedDevice) : DeviceSettings := ⟨d.masterMute, d.micMute, ⟨d.zone, d.profile⟩⟩

variable [DecidableEq α]

/-- The module is the shared device: without users there is no device, and otherwise the only one is what `adev_open`
gives, what `get_audio_device` uses and what every user has. -/
structure DeviceSystem.Represents (s : DeviceSystem α) (d : SharedDevice) : Prop where
  count : s.module.audioDeviceRefCount.toNat = d.users
  absent : d.users = 0 → s.module.deviceHandle = none ∧ (∀ p, s.module.heap p = none) ∧ ∀ p, s.handles p = 0
  present : d.users ≠ 0 → ∃ p, s.module.adev = some p ∧ s.module.deviceHandle = some p ∧
    s.module.heap = Function.update (fun _ => none) p (some d.settings) ∧
    s.handles = Function.update (fun _ => 0) p d.users

/-- The module is some shared device. -/
def DeviceSystem.Owned (s : DeviceSystem α) : Prop := ∃ d, s.Represents d

/-- An open leaves fewer than `2 ^ 32` handles. -/
def FewHandles (audioHardwareInterface : String) (s : DeviceSystem α) : DeviceLabel α → Prop
  | .opens name _ => name = audioHardwareInterface → s.module.audioDeviceRefCount ≠ 0xFFFFFFFF
  | .closes _ => True
  | .calls _ _ => True

instance (audioHardwareInterface : String) (s : DeviceSystem α) :
    (l : DeviceLabel α) → Decidable (FewHandles audioHardwareInterface s l)
  | .opens name _ =>
      inferInstanceAs (Decidable (name = audioHardwareInterface → s.module.audioDeviceRefCount ≠ 0xFFFFFFFF))
  | .closes _ => isTrue trivial
  | .calls _ _ => isTrue trivial

/-! ### One call of the device -/

theorem hfpEnableParameter_parameters (mixer : MixerControls) (adev : DeviceParameters) (strParms : StrParms) :
    (hfpEnableParameter mixer adev strParms).1 =
      { adev with hfpRunning := (DeviceCall.setParameters true mixer strParms).profile?.getD adev.hfpRunning } := by
  have hset (enable : Bool) : (hfpSetEnable mixer adev enable).1 =
      { adev with
          hfpRunning := (if mixer.Sets parameterHfpEnable enable.toInt then some enable else none).getD
            adev.hfpRunning } := by
    rw [hfpSetEnable]
    by_cases hsets : mixer.Sets parameterHfpEnable enable.toInt
    · rw [if_neg fun hfails => setControl_negative_iff.mp hfails hsets, if_pos hsets]
      rfl
    · rw [if_pos (setControl_negative_iff.mpr hsets), if_neg hsets]
      rfl
  have hstays (enable : Bool) (hrunning : adev.hfpRunning = enable) : adev =
      { adev with
          hfpRunning := (if mixer.Sets parameterHfpEnable enable.toInt then some enable else none).getD
            adev.hfpRunning } := by
    rw [hrunning, apply_ite (Option.getD · enable), Option.getD_some, Option.getD_none, ite_self, ← hrunning]
  cases hvalue : strParms parameterHfpEnable with
  | none =>
      simp only [hfpEnableParameter, strParmsGetStr_missing hvalue, DeviceCall.profile?, hvalue]
      rw [if_neg (not_le_of_gt (errno_negative .enoent))]
      rfl
  | some value =>
      have hpresent : (0 : Int) ≤ value.length := Int.natCast_nonneg _
      simp only [hfpEnableParameter, strParmsGetStr_present hvalue, hpresent, if_true, DeviceCall.profile?, hvalue,
        Option.bind_some]
      by_cases htrue : value.take (parameterHfpValueMax - 1) = "true".toList
      · rw [if_pos htrue, decide_eq_true htrue]
        by_cases hstopped : adev.hfpRunning = false
        · rw [if_pos hstopped]
          exact hset true
        · rw [if_neg hstopped]
          exact hstays true (Bool.eq_true_of_not_eq_false hstopped)
      · rw [if_neg htrue, decide_eq_false htrue]
        by_cases hstarted : adev.hfpRunning = true
        · rw [if_pos hstarted]
          exact hset false
        · rw [if_neg hstarted]
          exact hstays false (Bool.eq_false_of_not_eq_true hstarted)

/-- What parameters set: the zone, and the profile. -/
theorem adevSetParameters_parameters (hfpEnabled : Bool) (mixer : MixerControls) (adev : DeviceParameters)
    (strParms : StrParms) :
    (adevSetParameters hfpEnabled mixer adev strParms).1 =
      ⟨(DeviceCall.setParameters hfpEnabled mixer strParms).zone?.getD adev.lastZoneSelectedToPlay,
        (DeviceCall.setParameters hfpEnabled mixer strParms).profile?.getD adev.hfpRunning⟩ := by
  have hselected : (if 0 ≤ (getIntValue strParms parameterSelectedZone 0).1 then
      { adev with lastZoneSelectedToPlay := (getIntValue strParms parameterSelectedZone 0).2 } else adev) =
        ⟨(DeviceCall.setParameters hfpEnabled mixer strParms).zone?.getD adev.lastZoneSelectedToPlay,
          adev.hfpRunning⟩ := by
    simp only [DeviceCall.zone?]
    by_cases hzone : 0 ≤ (getIntValue strParms parameterSelectedZone 0).1
    · rw [if_pos hzone, if_pos hzone]
      rfl
    · rw [if_neg hzone, if_neg hzone]
      rfl
  simp only [adevSetParameters, hselected]
  cases hfpEnabled with
  | false => rfl
  | true =>
      rw [if_pos rfl, (audioExtnHfpSetParameters_enable mixer _ strParms).1, hfpEnableParameter_parameters]

/-- A call sets what it sets in the shared device, and tells what the shared device tells. -/
theorem settings_call (d : SharedDevice) (c : DeviceCall) :
    (d.settings.call c).1 = (⟨d.users, d.calls ++ [c]⟩ : SharedDevice).settings ∧
      (d.settings.call c).2.outcome = d.result c := by
  have hlast {β : Type} (f : DeviceCall → Option β) (first : β) :
      lastSet f first (d.calls ++ [c]) = (f c).getD (lastSet f first d.calls) := lastSet_append f first d.calls [c]
  simp only [SharedDevice.settings, SharedDevice.masterMute, SharedDevice.micMute, SharedDevice.zone,
    SharedDevice.profile, hlast]
  cases c with
  | setMasterMute muted => exact ⟨rfl, rfl⟩
  | getMasterMute => exact ⟨rfl, rfl⟩
  | setMicMute state => exact ⟨rfl, rfl⟩
  | getMicMute => exact ⟨rfl, rfl⟩
  | setParameters hfpEnabled mixer strParms =>
      constructor
      · simp only [DeviceSettings.call, adevSetParameters_parameters]
        rfl
      · have hnegative := adevSetParameters_negative_iff hfpEnabled mixer d.settings.parameters strParms
        change (if (adevSetParameters hfpEnabled mixer d.settings.parameters strParms).2.1 < 0 then SharedResult.failed
          else .done) = d.result (.setParameters hfpEnabled mixer strParms)
        rw [SharedDevice.result]
        by_cases hfails : (adevSetParameters hfpEnabled mixer d.settings.parameters strParms).2.1 < 0
        · rw [if_pos hfails]
          exact (if_pos (hnegative.mp hfails)).symm
        · rw [if_neg hfails]
          exact (if_neg (mt hnegative.mpr hfails)).symm
  | isZoneSelectedToPlay zoneId =>
      refine ⟨rfl, congrArg SharedResult.state ?_⟩
      change isZoneSelectedToPlay d.zone zoneId = _
      rw [isZoneSelectedToPlay]
      by_cases hprimary : zoneId = primaryZoneId
      · simp [hprimary]
      · simp [hprimary, eq_comm]

/-! ### Steps -/

/-- The steps, each with its condition and its result. -/
inductive DeviceStepped (audioHardwareInterface : String) (s : DeviceSystem α) :
    DeviceLabel α → DeviceSystem α → List (DeviceEvent α) → Prop where
  | other (name : String) (calloc : Option α) : name ≠ audioHardwareInterface →
      DeviceStepped audioHardwareInterface s (.opens name calloc) s [.opened (some .einval) none]
  | again (calloc : Option α) : s.module.audioDeviceRefCount ≠ 0 →
      DeviceStepped audioHardwareInterface s (.opens audioHardwareInterface calloc)
        ⟨{ s.module with audioDeviceRefCount := s.module.audioDeviceRefCount + 1 }, s.give s.module.adev⟩
        [.opened none s.module.adev]
  | first (p : α) : s.module.audioDeviceRefCount = 0 → s.module.heap p = none →
      DeviceStepped audioHardwareInterface s (.opens audioHardwareInterface (some p))
        ⟨⟨s.module.audioDeviceRefCount + 1, some p, some p, Function.update s.module.heap p (some .init)⟩,
          s.give (some p)⟩ [.opened none (some p)]
  | null : DeviceStepped audioHardwareInterface s (.closes none) s [.closed none none]
  | stale (p : α) : s.module.audioDeviceRefCount = 0 →
      DeviceStepped audioHardwareInterface s (.closes (some p)) ⟨s.module, s.take (some p)⟩
        [.closed (some p) (some .einval)]
  | last (p : α) (adev : DeviceSettings) : s.handles p ≠ 0 → s.module.audioDeviceRefCount = 1 →
      s.module.heap p = some adev →
      DeviceStepped audioHardwareInterface s (.closes (some p))
        ⟨{ s.module with
            audioDeviceRefCount := 0
            deviceHandle := none
            heap := Function.update s.module.heap p none }, s.take (some p)⟩ [.closed (some p) none]
  | fewer (p : α) : s.handles p ≠ 0 → s.module.audioDeviceRefCount ≠ 0 → s.module.audioDeviceRefCount ≠ 1 →
      DeviceStepped audioHardwareInterface s (.closes (some p))
        ⟨{ s.module with audioDeviceRefCount := s.module.audioDeviceRefCount - 1 }, s.take (some p)⟩
        [.closed (some p) none]
  | calls (p : α) (c : DeviceCall) (adev : DeviceSettings) : s.handles p ≠ 0 → s.module.heap p = some adev →
      DeviceStepped audioHardwareInterface s (.calls p c)
        ⟨{ s.module with heap := Function.update s.module.heap p (some (adev.call c).1) }, s.handles⟩
        [.called c (adev.call c).2]

theorem sub_one_eq_zero_iff {n : UInt32} : n - 1 = 0 ↔ n = 1 := sub_eq_zero

variable {audioHardwareInterface : String}

theorem deviceStepped {s t : DeviceSystem α} {l : DeviceLabel α} {es : List (DeviceEvent α)}
    (h : deviceStep audioHardwareInterface s l = some (t, es)) : DeviceStepped audioHardwareInterface s l t es := by
  cases l with
  | opens name calloc =>
      obtain ⟨r, hopen, heq⟩ := Option.map_eq_some_iff.mp h
      cases heq
      rw [HalModule.adevOpen] at hopen
      by_cases hname : name = audioHardwareInterface
      · rw [if_neg (not_not.mpr hname)] at hopen
        subst hname
        by_cases hcount : s.module.audioDeviceRefCount = 0
        · rw [if_neg (not_not.mpr hcount)] at hopen
          obtain ⟨p, rfl, hp⟩ := Option.bind_eq_some_iff.mp hopen
          obtain ⟨hfree, heq⟩ := Option.ite_none_right_eq_some.mp hp
          cases heq
          exact .first p hcount hfree
        · rw [if_pos hcount] at hopen
          cases hopen
          exact .again calloc hcount
      · rw [if_pos hname] at hopen
        cases hopen
        exact .other name calloc hname
  | closes dev =>
      obtain ⟨hmay, hmap⟩ := Option.ite_none_right_eq_some.mp h
      obtain ⟨r, hclose, heq⟩ := Option.map_eq_some_iff.mp hmap
      cases heq
      cases dev with
      | none =>
          cases hclose
          exact .null
      | some p =>
          rw [HalModule.adevClose] at hclose
          by_cases hcount : s.module.audioDeviceRefCount = 0
          · rw [if_pos hcount] at hclose
            cases hclose
            exact .stale p hcount
          · rw [if_neg hcount] at hclose
            have hhas : s.handles p ≠ 0 := (hmay p rfl).resolve_right hcount
            by_cases hone : s.module.audioDeviceRefCount = 1
            · rw [if_pos (sub_one_eq_zero_iff.mpr hone)] at hclose
              obtain ⟨adev, hlive, heq⟩ := Option.map_eq_some_iff.mp hclose
              cases heq
              rw [sub_one_eq_zero_iff.mpr hone]
              exact .last p adev hhas hone hlive
            · rw [if_neg (mt sub_one_eq_zero_iff.mp hone)] at hclose
              cases hclose
              exact .fewer p hhas hcount hone
  | calls p c =>
      obtain ⟨hhas, hmap⟩ := Option.ite_none_left_eq_some.mp h
      obtain ⟨r, hcall, heq⟩ := Option.map_eq_some_iff.mp hmap
      cases heq
      obtain ⟨adev, hlive, heq⟩ := Option.map_eq_some_iff.mp hcall
      cases heq
      exact .calls p c adev hhas hlive

/-! ### The shared device takes every step -/

namespace DeviceSystem
variable {s : DeviceSystem α} {d : SharedDevice}

theorem Represents.init : (DeviceSystem.init : DeviceSystem α).Represents .init :=
  ⟨rfl, fun _ => ⟨rfl, fun _ => rfl, fun _ => rfl⟩, fun h => absurd rfl h⟩

/-- Whoever has a device has the one that there is. -/
theorem Represents.device_of_handle (h : s.Represents d) {p : α} (hhas : s.handles p ≠ 0) :
    d.users ≠ 0 ∧ s.module.adev = some p ∧ s.module.deviceHandle = some p ∧
      s.module.heap = Function.update (fun _ => none) p (some d.settings) ∧
      s.handles = Function.update (fun _ => 0) p d.users := by
  have husers : d.users ≠ 0 := fun hzero => hhas ((h.absent hzero).2.2 p)
  obtain ⟨q, hadev, hhandle, hheap, hhandles⟩ := h.present husers
  have hp : p = q := by
    by_contra hne
    rw [hhandles, Function.update_of_ne hne] at hhas
    exact hhas rfl
  rw [hp]
  exact ⟨husers, hadev, hhandle, hheap, hhandles⟩

theorem Represents.count_ne_zero (h : s.Represents d) : s.module.audioDeviceRefCount ≠ 0 ↔ d.users ≠ 0 := by
  rw [← h.count, ne_eq, ne_eq, ← UInt32.toNat_inj]
  rfl

theorem Represents.again (h : s.Represents d) (hcount : s.module.audioDeviceRefCount ≠ 0)
    (hfew : s.module.audioDeviceRefCount ≠ 0xFFFFFFFF) :
    (⟨{ s.module with audioDeviceRefCount := s.module.audioDeviceRefCount + 1 }, s.give s.module.adev⟩ :
      DeviceSystem α).Represents ⟨d.users + 1, d.calls⟩ := by
  obtain ⟨p, hadev, hhandle, hheap, hhandles⟩ := h.present (h.count_ne_zero.mp hcount)
  have hcounted : (s.module.audioDeviceRefCount + 1).toNat = d.users + 1 := by
    have hlt : s.module.audioDeviceRefCount.toNat ≠ 0xFFFFFFFF := fun heq => hfew (UInt32.toNat_inj.mp heq)
    have hbound := s.module.audioDeviceRefCount.toNat_lt
    rw [UInt32.toNat_add, UInt32.toNat_one, h.count] at *
    omega
  refine ⟨hcounted, fun hzero => absurd hzero (Nat.succ_ne_zero _), fun _ => ⟨p, hadev, hhandle, hheap, ?_⟩⟩
  dsimp only [give]
  rw [hadev]
  dsimp only
  rw [hhandles, Function.update_self, Function.update_idem]

theorem Represents.first (h : s.Represents d) (hcount : s.module.audioDeviceRefCount = 0) (p : α) :
    (⟨⟨s.module.audioDeviceRefCount + 1, some p, some p, Function.update s.module.heap p (some .init)⟩,
      s.give (some p)⟩ : DeviceSystem α).Represents ⟨d.users + 1, []⟩ := by
  have husers : d.users = 0 := not_not.mp fun hne => h.count_ne_zero.mpr hne hcount
  obtain ⟨-, hheap, hhandles⟩ := h.absent husers
  refine ⟨?_, fun hzero => absurd hzero (Nat.succ_ne_zero _), fun _ => ⟨p, rfl, rfl, ?_, ?_⟩⟩
  · rw [hcount, husers]
    rfl
  · dsimp only
    rw [show s.module.heap = fun _ => none from funext hheap]
    rfl
  · dsimp only [give]
    rw [show s.handles = fun _ => 0 from funext hhandles, husers]

theorem Represents.stale (h : s.Represents d) (hcount : s.module.audioDeviceRefCount = 0) (p : α) :
    (⟨s.module, s.take (some p)⟩ : DeviceSystem α).Represents d := by
  have husers : d.users = 0 := not_not.mp fun hne => h.count_ne_zero.mpr hne hcount
  obtain ⟨hhandle, hheap, hhandles⟩ := h.absent husers
  refine ⟨h.count, fun _ => ⟨hhandle, hheap, fun q => ?_⟩, fun hne => absurd husers hne⟩
  dsimp only [take]
  rw [hhandles p, show s.handles = fun _ => 0 from funext hhandles, Function.update_apply]
  exact ite_self 0

theorem Represents.last (h : s.Represents d) {p : α} (hhas : s.handles p ≠ 0)
    (hcount : s.module.audioDeviceRefCount = 1) :
    (⟨{ s.module with
        audioDeviceRefCount := 0
        deviceHandle := none
        heap := Function.update s.module.heap p none }, s.take (some p)⟩ : DeviceSystem α).Represents
      ⟨d.users - 1, d.calls⟩ := by
  obtain ⟨-, -, -, hheap, hhandles⟩ := h.device_of_handle hhas
  have husers : d.users = 1 := by
    rw [← h.count, hcount]
    rfl
  refine ⟨by rw [husers]; rfl, fun _ => ⟨rfl, fun q => ?_, fun q => ?_⟩, fun hne => absurd (by rw [husers]) hne⟩
  · dsimp only
    rw [hheap, Function.update_idem, Function.update_apply]
    exact ite_self none
  · dsimp only [take]
    rw [hhandles, Function.update_self, Function.update_idem, husers, Function.update_apply]
    exact ite_self 0

theorem Represents.fewer (h : s.Represents d) {p : α} (hhas : s.handles p ≠ 0)
    (hmore : s.module.audioDeviceRefCount ≠ 1) :
    (⟨{ s.module with audioDeviceRefCount := s.module.audioDeviceRefCount - 1 }, s.take (some p)⟩ :
      DeviceSystem α).Represents ⟨d.users - 1, d.calls⟩ := by
  obtain ⟨husers, hadev, hhandle, hheap, hhandles⟩ := h.device_of_handle hhas
  have hone : d.users ≠ 1 := by
    rw [← h.count]
    exact fun heq => hmore (UInt32.toNat_inj.mp heq)
  have hcounted : (s.module.audioDeviceRefCount - 1).toNat = d.users - 1 := by
    have hle : (1 : UInt32) ≤ s.module.audioDeviceRefCount := by
      rw [UInt32.le_iff_toNat_le, UInt32.toNat_one, h.count]
      omega
    rw [UInt32.toNat_sub_of_le _ _ hle, UInt32.toNat_one, h.count]
  refine ⟨hcounted, fun hzero => ?_, fun _ => ⟨p, hadev, hhandle, hheap, ?_⟩⟩
  · dsimp only at hzero
    omega
  · dsimp only [take]
    rw [hhandles, Function.update_self, Function.update_idem]

theorem Represents.calls (h : s.Represents d) {p : α} {adev : DeviceSettings} (hhas : s.handles p ≠ 0)
    (hlive : s.module.heap p = some adev) (c : DeviceCall) :
    adev = d.settings ∧
      (⟨{ s.module with heap := Function.update s.module.heap p (some (adev.call c).1) }, s.handles⟩ :
        DeviceSystem α).Represents ⟨d.users, d.calls ++ [c]⟩ := by
  obtain ⟨husers, hadev, hhandle, hheap, hhandles⟩ := h.device_of_handle hhas
  have hsame : adev = d.settings := by
    rw [hheap, Function.update_self] at hlive
    exact (Option.some.inj hlive).symm
  refine ⟨hsame, h.count, fun hzero => absurd hzero husers, fun _ => ⟨p, hadev, hhandle, ?_, hhandles⟩⟩
  dsimp only
  rw [hheap, Function.update_idem, hsame, (settings_call d c).1]

end DeviceSystem

/-- A step is none or one of the shared device's, with the same results. -/
theorem represents_step {s t : DeviceSystem α} {d : SharedDevice} {l : DeviceLabel α} {es : List (DeviceEvent α)}
    (h : s.Represents d) (hfew : FewHandles audioHardwareInterface s l)
    (hstep : DeviceStepped audioHardwareInterface s l t es) :
    ∃ d', exec SharedDevice.step d (sharedCalls es) = some (d', deviceOutcomes es) ∧ t.Represents d' := by
  cases hstep with
  | other name calloc hname => exact ⟨d, rfl, h⟩
  | again calloc hcount =>
      have husers := h.count_ne_zero.mp hcount
      refine ⟨⟨d.users + 1, d.calls⟩, ?_, h.again hcount (hfew rfl)⟩
      refine exec_single.trans ?_
      rw [SharedDevice.step, if_neg husers]
      rfl
  | first p hcount hfree =>
      have husers : d.users = 0 := not_not.mp fun hne => h.count_ne_zero.mpr hne hcount
      refine ⟨⟨d.users + 1, []⟩, ?_, h.first hcount p⟩
      refine exec_single.trans ?_
      rw [SharedDevice.step, if_pos husers]
      rfl
  | null => exact ⟨d, rfl, h⟩
  | stale p hcount =>
      have husers : d.users = 0 := not_not.mp fun hne => h.count_ne_zero.mpr hne hcount
      refine ⟨d, ?_, h.stale hcount p⟩
      refine exec_single.trans ?_
      rw [SharedDevice.step, if_pos husers]
      rfl
  | last p adev hhas hcount hlive =>
      refine ⟨⟨d.users - 1, d.calls⟩, ?_, h.last hhas hcount⟩
      refine exec_single.trans ?_
      rw [SharedDevice.step, if_neg (h.device_of_handle hhas).1]
      rfl
  | fewer p hhas hcount hmore =>
      refine ⟨⟨d.users - 1, d.calls⟩, ?_, h.fewer hhas hmore⟩
      refine exec_single.trans ?_
      rw [SharedDevice.step, if_neg (h.device_of_handle hhas).1]
      rfl
  | calls p c adev hhas hlive =>
      obtain ⟨rfl, hnext⟩ := h.calls hhas hlive c
      refine ⟨⟨d.users, d.calls ++ [c]⟩, ?_, hnext⟩
      refine exec_single.trans ?_
      rw [SharedDevice.step, if_neg (h.device_of_handle hhas).1, ← (settings_call d c).2]
      rfl

/-- With as many handles as the count can hold, a further one makes it zero. -/
theorem overflow_not_owned {s t : DeviceSystem α} {l : DeviceLabel α} {es : List (DeviceEvent α)} (h : s.Owned)
    (hmany : ¬ FewHandles audioHardwareInterface s l) (hstep : DeviceStepped audioHardwareInterface s l t es) :
    ¬ t.Owned := by
  obtain ⟨d, h⟩ := h
  rintro ⟨d', h'⟩
  cases hstep with
  | again calloc hcount =>
      have hfull : s.module.audioDeviceRefCount = 0xFFFFFFFF := by
        by_contra hne
        exact hmany fun _ => hne
      obtain ⟨p, hadev, -, -, hhandles⟩ := h.present (h.count_ne_zero.mp hcount)
      have husers : d'.users = 0 := by
        rw [← h'.count]
        dsimp only
        rw [hfull]
        rfl
      have hnone := (h'.absent husers).2.2 p
      dsimp only [DeviceSystem.give] at hnone
      rw [hadev] at hnone
      dsimp only at hnone
      rw [Function.update_self] at hnone
      exact Nat.succ_ne_zero _ hnone
  | first p hcount hfree =>
      refine hmany fun _ => ?_
      rw [hcount]
      decide
  | other name calloc hname => exact hmany fun heq => absurd heq hname
  | null => exact hmany trivial
  | stale p hcount => exact hmany trivial
  | last p adev hhas hcount hlive => exact hmany trivial
  | fewer p hhas hcount hmore => exact hmany trivial
  | calls p c adev hhas hlive => exact hmany trivial

theorem fewHandles_of_disabled {s : DeviceSystem α} {l : DeviceLabel α}
    (h : deviceStep audioHardwareInterface s l = none) : FewHandles audioHardwareInterface s l := by
  cases l with
  | opens name calloc =>
      rintro rfl hfull
      have hopen := Option.map_eq_none_iff.mp h
      rw [HalModule.adevOpen, if_neg (not_not.mpr rfl), if_pos (by rw [hfull]; decide)] at hopen
      cases hopen
  | closes dev => trivial
  | calls p c => trivial

/-! ### Runs -/

/-- After every call there is one device, which all users have, or none and no users, exactly when no call opens the
device while there are `2 ^ 32 - 1` handles. -/
theorem device_owned (labels : List (DeviceLabel α)) :
    Always (deviceStep audioHardwareInterface) DeviceSystem.Owned .init labels ↔
      Guarded (deviceStep audioHardwareInterface) (FewHandles audioHardwareInterface) .init labels := by
  refine always_iff_guarded (fun s l t es h hstep => ⟨fun ht => ?_, fun hfew => ?_⟩)
    (fun s l => fewHandles_of_disabled) ⟨_, DeviceSystem.Represents.init⟩ labels
  · by_contra hmany
    exact overflow_not_owned h hmany (deviceStepped hstep) ht
  · obtain ⟨d, h⟩ := h
    obtain ⟨d', -, h'⟩ := represents_step h hfew (deviceStepped hstep)
    exact ⟨d', h'⟩

/-- Whatever its users do, the module behaves as one shared device, which tells every user what any user has set last,
starts anew for the first user and is there until the last one closes it; and every call of a user has a result. -/
theorem device_shared {s : DeviceSystem α} {labels : List (DeviceLabel α)} {events : List (DeviceEvent α)}
    (hfew : Guarded (deviceStep audioHardwareInterface) (FewHandles audioHardwareInterface) .init labels)
    (hrun : exec (deviceStep audioHardwareInterface) .init labels = some (s, events)) :
    (∃ d, exec SharedDevice.step .init (sharedCalls events) = some (d, deviceOutcomes events) ∧ s.Represents d) ∧
      ∀ p, s.handles p ≠ 0 → (∀ c, deviceStep audioHardwareInterface s (.calls p c) ≠ none) ∧
        deviceStep audioHardwareInterface s (.closes (some p)) ≠ none := by
  have hshared : ∃ d, exec SharedDevice.step .init (sharedCalls events) = some (d, deviceOutcomes events) ∧
      s.Represents d := by
    refine exec_invariant_history (fun h s => ∃ d, exec SharedDevice.step .init (sharedCalls h) =
      some (d, deviceOutcomes h) ∧ s.Represents d) (fun h s l t es hI hfew hstep => ?_) (h := [])
      ⟨_, rfl, DeviceSystem.Represents.init⟩ hfew hrun
    obtain ⟨d, hd, hs⟩ := hI
    obtain ⟨d', hd', ht⟩ := represents_step hs hfew (deviceStepped hstep)
    refine ⟨d', ?_, ht⟩
    rw [sharedCalls, deviceOutcomes, List.filterMap_append, List.filterMap_append]
    exact exec_append_eq_some.mpr ⟨d, _, _, hd, hd', rfl⟩
  refine ⟨hshared, fun p hhas => ?_⟩
  obtain ⟨d, -, h⟩ := hshared
  obtain ⟨-, -, -, hheap, -⟩ := h.device_of_handle hhas
  have hlive : s.module.heap p = some d.settings := by
    rw [hheap, Function.update_self]
  constructor
  · intro c hnone
    rw [deviceStep, if_neg hhas, HalModule.call, hlive] at hnone
    cases hnone
  · intro hnone
    rw [deviceStep, if_pos fun q hq => Or.inl (Option.some.inj hq ▸ hhas), HalModule.adevClose] at hnone
    have hclose := Option.map_eq_none_iff.mp hnone
    split_ifs at hclose
    rw [hlive] at hclose
    cases hclose

/-- Two users, one of which mutes the device, and a third after them. -/
def threeUsers : List (DeviceLabel Bool) :=
  [.opens "audio" (some true), .opens "audio" none, .calls true (.setMasterMute true), .closes (some true),
    .calls true .getMasterMute, .closes (some true), .closes (some true), .opens "audio" (some false),
    .calls false .getMasterMute]

theorem device_shared_again : ∃ s events d, exec (deviceStep "audio") .init threeUsers = some (s, events) ∧
    deviceOutcomes events = [.done, .state true, .state false] ∧
    exec SharedDevice.step .init (sharedCalls events) = some (d, deviceOutcomes events) ∧ s.Represents d ∧
    d.users = 1 := by
  obtain ⟨s, events, hrun, hresults, hcount⟩ : ∃ s events,
      exec (deviceStep "audio") .init threeUsers = some (s, events) ∧
      deviceOutcomes events = [.done, .state true, .state false] ∧
      s.module.audioDeviceRefCount.toNat = 1 := ⟨_, _, rfl, rfl, rfl⟩
  have hfew : Guarded (deviceStep "audio") (FewHandles "audio") .init threeUsers := by
    decide +kernel
  obtain ⟨⟨d, hshared, hs⟩, -⟩ := device_shared hfew hrun
  exact ⟨s, events, d, hrun, hresults, hshared, hs, hs.count.symm.trans hcount⟩

end Trout.Audio
