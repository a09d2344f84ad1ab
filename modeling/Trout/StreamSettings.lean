import Trout.BusAddresses
import Trout.CString
import Trout.ZoneRouting

/-! What is set for an address: `set_device_address_is_ducked`, `set_device_address_is_muted` and
`adev_set_audio_port_config` look the stream up under its bus address and change it. As long as no stream is opened
under the address of an open one, the streams are a table of settings by address. One call is made after another; the
curve of the gain is a parameter. -/

namespace Trout.Audio
open CString Runs

variable {ι γ : Type}

/-! ### The streams and their settings -/

/-- `enum output_channel_enable` -/
inductive OutputChannelEnable where
  | leftChannel
  | rightChannel
  | bothChannels
  deriving DecidableEq

/-- The fields of `struct generic_stream_out` that are set for its address. -/
structure StreamSettings (γ : Type) where
  isDucked : Bool
  isMuted : Bool
  amplitudeRatio : γ
  enabledChannels : OutputChannelEnable

/-- What `adev_open_output_stream` assigns; with the property for it, the zones are put on different channels. -/
def StreamSettings.opened (unity : γ) (address : String) (simulateMultiZone : Bool) : StreamSettings γ where
  isDucked := false
  isMuted := false
  amplitudeRatio := unity
  enabledChannels :=
    if simulateMultiZone then
      if (strstr audioZoneKeyword address.toList).isSome then .rightChannel else .leftChannel
    else
      .bothChannels

/-- The device with its open streams, and the settings of the streams. -/
structure SettingsSystem (ι γ : Type) where
  bus : BusSystem ι
  settings : ι → StreamSettings γ

inductive SettingsLabel (ι : Type) where
  | openOutputStream (i : ι) (allocations : OpenAllocations) (p : PeriodProperties) (config : AudioConfig)
      (address : String) (simulateMultiZone : Bool)
  | closeOutputStream (i : ι)
  | setDeviceAddressIsDucked (address : String) (isDucked : Bool)
  | setDeviceAddressIsMuted (address : String) (isMuted : Bool)
  | setAudioPortConfig (address : String) (gain : Int32)

/-- A call with what it returns. -/
inductive SettingsEvent where
  | opened (address : String) (simulateMultiZone : Bool) (ret : Option Errno)
  | closed (address : String)
  | ducked (address : String) (isDucked : Bool)
  | muted (address : String) (isMuted : Bool)
  | gained (address : String) (gain : Int32) (ret : Option Errno)

section Steps
variable [DecidableEq ι] (unity : γ) (curve : Int32 → γ)

/-- A change of the stream that the address resolves to. -/
def SettingsSystem.change (s : SettingsSystem ι γ) (address : String) (f : StreamSettings γ → StreamSettings γ) :
    SettingsSystem ι γ :=
  match getAudioDevice (some s.bus.device) address with
  | none => s
  | some out => { s with settings := Function.update s.settings out (f (s.settings out)) }

/-- `adev_set_audio_port_config`, with its result. -/
def SettingsSystem.setAudioPortConfig (s : SettingsSystem ι γ) (address : String) (gain : Int32) :
    SettingsSystem ι γ × Option Errno :=
  match s.bus.device.outBusStreamMap.lookup address with
  | none => (s, some .einval)
  | some out =>
      ({ s with settings := Function.update s.settings out { s.settings out with amplitudeRatio := curve gain } }, none)

/-- The next call. -/
def settingsStep (s : SettingsSystem ι γ) : SettingsLabel ι → Option (SettingsSystem ι γ × List SettingsEvent)
  | .openOutputStream i allocations p config address simulateMultiZone =>
      (busStep s.bus (.openOutputStream i allocations p config address)).map fun r =>
        (⟨r.1,
          if r.1.busAddress i = none then s.settings
          else Function.update s.settings i (.opened unity address simulateMultiZone)⟩,
          r.2.map (.opened address simulateMultiZone))
  | .closeOutputStream i =>
      (s.bus.busAddress i).bind fun address =>
        (busStep s.bus (.closeOutputStream i)).map fun r => (⟨r.1, s.settings⟩, [.closed address])
  | .setDeviceAddressIsDucked address isDucked =>
      some (s.change address fun out => { out with isDucked := isDucked }, [.ducked address isDucked])
  | .setDeviceAddressIsMuted address isMuted =>
      some (s.change address fun out => { out with isMuted := isMuted }, [.muted address isMuted])
  | .setAudioPortConfig address gain =>
      let r := s.setAudioPortConfig curve address gain
      some (r.1, [.gained address gain r.2])

end Steps

/-! ### The table -/

/-- The settings by address. -/
abbrev SettingsTable (γ : Type) := String → Option (StreamSettings γ)

/-- What the calls are to the table. A call that opens a stream adds its address; a gain for an address that is not there
is an error, and ducking or muting it does nothing. -/
def SettingsTable.step (unity : γ) (curve : Int32 → γ) (table : SettingsTable γ) :
    SettingsEvent → Option (SettingsTable γ × List Empty)
  | .opened address simulateMultiZone ret =>
      match ret, table address with
      | none, none => some (Function.update table address (some (.opened unity address simulateMultiZone)), [])
      | none, some _ => none
      | some _, _ => some (table, [])
  | .closed address => (table address).map fun _ => (Function.update table address none, [])
  | .ducked address isDucked =>
      some (Function.update table address ((table address).map fun out => { out with isDucked := isDucked }), [])
  | .muted address isMuted =>
      some (Function.update table address ((table address).map fun out => { out with isMuted := isMuted }), [])
  | .gained address gain ret =>
      match table address, ret with
      | none, some .einval => some (table, [])
      | some out, none => some (Function.update table address (some { out with amplitudeRatio := curve gain }), [])
      | _, _ => none

/-- The table holds the settings of every open stream under its address, and nothing else. -/
structure SettingsSystem.Represents (s : SettingsSystem ι γ) (table : SettingsTable γ) : Prop where
  registered : s.bus.Registered
  distinct : ∀ i j address, s.bus.busAddress i = some address → s.bus.busAddress j = some address → i = j
  opened : ∀ i address, s.bus.busAddress i = some address → table address = some (s.settings i)
  closed : ∀ address, (∀ i, s.bus.busAddress i ≠ some address) → table address = none

/-- No stream is opened under the address of an open one; an open that fails may be for any address. -/
def NewAddress [DecidableEq ι] (s : SettingsSystem ι γ) : SettingsLabel ι → Prop
  | .openOutputStream i allocations p config address _ =>
      (∃ bus, busStep s.bus (.openOutputStream i allocations p config address) = some (bus, [none])) →
        ∀ j, s.bus.busAddress j ≠ some address
  | .closeOutputStream _ => True
  | .setDeviceAddressIsDucked _ _ => True
  | .setDeviceAddressIsMuted _ _ => True
  | .setAudioPortConfig _ _ => True

/-! ### Steps -/

variable [DecidableEq ι] {unity : γ} {curve : Int32 → γ}

/-- A call that opens a stream fails and changes nothing, or puts the stream under its address. -/
theorem busStep_opened {s t : BusSystem ι} {i : ι} {allocations : OpenAllocations} {p : PeriodProperties}
    {config : AudioConfig} {address : String} {es : List (Option Errno)}
    (h : busStep s (.openOutputStream i allocations p config address) = some (t, es)) :
    s.busAddress i = none ∧ ((∃ e, es = [some e] ∧ t = s) ∨ (es = [none] ∧
      t = ⟨{ s.device with outBusStreamMap := s.device.outBusStreamMap.insert address i },
        Function.update s.busAddress i (some address)⟩)) := by
  obtain ⟨hnew, hopen⟩ := Option.ite_none_right_eq_some.mp h
  obtain ⟨r, hr, heq⟩ := Option.map_eq_some_iff.mp hopen
  cases heq
  refine ⟨hnew, ?_⟩
  rw [GenericAudioDevice.openOutputStream] at hr
  split at hr
  · rename_i e _
    cases hr
    exact Or.inl ⟨e, rfl, rfl⟩
  · dsimp only at hr
    split at hr
    · cases hr
      exact Or.inr ⟨rfl, rfl⟩
    · cases hr

namespace SettingsSystem
variable {s : SettingsSystem ι γ} {table : SettingsTable γ}

omit [DecidableEq ι] in
/-- An address is found in the map and in the table, or in neither. -/
theorem Represents.found (h : s.Represents table) (address : String) :
    (s.bus.device.outBusStreamMap.lookup address = none ∧ table address = none) ∨
      ∃ i, s.bus.device.outBusStreamMap.lookup address = some i ∧ s.bus.busAddress i = some address ∧
        table address = some (s.settings i) := by
  cases hlookup : s.bus.device.outBusStreamMap.lookup address with
  | none =>
      refine Or.inl ⟨rfl, h.closed address fun i hopen => ?_⟩
      exact h.registered.listed address i hopen hlookup
  | some i =>
      have hopen := h.registered.found address i hlookup
      exact Or.inr ⟨i, rfl, hopen, h.opened i address hopen⟩

/-- A change of an open stream is a change under its address. -/
theorem Represents.set (h : s.Represents table) {i : ι} {address : String}
    (hopen : s.bus.busAddress i = some address) (out : StreamSettings γ) :
    ({ s with settings := Function.update s.settings i out } : SettingsSystem ι γ).Represents
      (Function.update table address (some out)) := by
  refine ⟨h.registered, h.distinct, fun j a hj => ?_, fun a hnone => ?_⟩
  · by_cases hi : j = i
    · subst hi
      cases hopen.symm.trans hj
      rw [Function.update_self]
      exact congrArg some (Function.update_self j out s.settings).symm
    · have ha : a ≠ address := by
        rintro rfl
        exact hi (h.distinct j i a hj hopen)
      rw [Function.update_of_ne ha, h.opened j a hj]
      exact congrArg some (Function.update_of_ne hi out s.settings).symm
  · have ha : a ≠ address := by
      rintro rfl
      exact hnone i hopen
    rw [Function.update_of_ne ha]
    exact h.closed a hnone

/-- Ducking and muting do the same to the stream as to the table. -/
theorem Represents.changes (h : s.Represents table) (address : String) (f : StreamSettings γ → StreamSettings γ) :
    (s.change address f).Represents (Function.update table address ((table address).map f)) := by
  have hdevice : getAudioDevice (some s.bus.device) address = s.bus.device.outBusStreamMap.lookup address := rfl
  rw [SettingsSystem.change, hdevice]
  rcases h.found address with ⟨hlookup, hnone⟩ | ⟨i, hlookup, hopen, hsome⟩
  · rw [hlookup, hnone]
    have hsame : Function.update table address none = table := by
      rw [← hnone]
      exact Function.update_eq_self address table
    rw [Option.map_none, hsame]
    exact h
  · rw [hlookup, hsome]
    exact h.set hopen _

theorem Represents.opens (h : s.Represents table) {i : ι} {address : String} (hnew : s.bus.busAddress i = none)
    (hunused : ∀ j, s.bus.busAddress j ≠ some address) (hstep : BusStepped s.bus (.openOutputStream i a p c address)
      ⟨{ s.bus.device with outBusStreamMap := s.bus.device.outBusStreamMap.insert address i },
        Function.update s.bus.busAddress i (some address)⟩) (out : StreamSettings γ) :
    (⟨⟨{ s.bus.device with outBusStreamMap := s.bus.device.outBusStreamMap.insert address i },
        Function.update s.bus.busAddress i (some address)⟩, Function.update s.settings i out⟩ :
      SettingsSystem ι γ).Represents (Function.update table address (some out)) := by
  have hcases : ∀ j a, Function.update s.bus.busAddress i (some address) j = some a →
      (j = i ∧ a = address) ∨ (j ≠ i ∧ a ≠ address ∧ s.bus.busAddress j = some a) := by
    intro j a hj
    by_cases hi : j = i
    · rw [hi, Function.update_self] at hj
      exact Or.inl ⟨hi, (Option.some.inj hj).symm⟩
    · rw [Function.update_of_ne hi] at hj
      refine Or.inr ⟨hi, ?_, hj⟩
      rintro rfl
      exact hunused j hj
  have hunshared : Unshared s.bus (.openOutputStream i a p c address) := trivial
  refine ⟨h.registered.step hunshared hstep, fun j k a hj hk => ?_, fun j a hj => ?_, fun a hnone => ?_⟩
  · rcases hcases j a hj with ⟨rfl, rfl⟩ | ⟨hji, haddress, hj⟩
    · rcases hcases k _ hk with ⟨rfl, -⟩ | ⟨-, haddress, -⟩
      · rfl
      · exact absurd rfl haddress
    · rcases hcases k a hk with ⟨-, rfl⟩ | ⟨-, -, hk⟩
      · exact absurd rfl haddress
      · exact h.distinct j k a hj hk
  · rcases hcases j a hj with ⟨rfl, rfl⟩ | ⟨hji, haddress, hj⟩
    · rw [Function.update_self]
      exact congrArg some (Function.update_self j out s.settings).symm
    · rw [Function.update_of_ne haddress, h.opened j a hj]
      exact congrArg some (Function.update_of_ne hji out s.settings).symm
  · have haddress : a ≠ address := by
      rintro rfl
      exact hnone i (Function.update_self i _ _)
    rw [Function.update_of_ne haddress]
    refine h.closed a fun j hj => hnone j ?_
    have hji : j ≠ i := by
      rintro rfl
      cases hnew.symm.trans hj
    exact (Function.update_of_ne hji _ _).trans hj

theorem Represents.closes (h : s.Represents table) {i : ι} {address : String}
    (hopen : s.bus.busAddress i = some address) :
    (⟨⟨s.bus.device.closeOutputStream address, Function.update s.bus.busAddress i none⟩, s.settings⟩ :
      SettingsSystem ι γ).Represents (Function.update table address none) := by
  have hcases : ∀ j a, Function.update s.bus.busAddress i none j = some a →
      j ≠ i ∧ a ≠ address ∧ s.bus.busAddress j = some a := by
    intro j a hj
    have hi : j ≠ i := by
      rintro rfl
      cases (Function.update_self j none s.bus.busAddress).symm.trans hj
    rw [Function.update_of_ne hi] at hj
    refine ⟨hi, ?_, hj⟩
    rintro rfl
    exact hi (h.distinct j i a hj hopen)
  have hunshared : Unshared s.bus (.closeOutputStream i) := by
    intro j hj _ hshared
    exact hj (h.distinct j i address (hshared.trans hopen) hopen)
  refine ⟨h.registered.step hunshared (.closes i address hopen), fun j k a hj hk => ?_, fun j a hj => ?_,
    fun a hnone => ?_⟩
  · exact h.distinct j k a (hcases j a hj).2.2 (hcases k a hk).2.2
  · obtain ⟨-, haddress, hj⟩ := hcases j a hj
    rw [Function.update_of_ne haddress]
    exact h.opened j a hj
  · by_cases haddress : a = address
    · rw [haddress, Function.update_self]
    · rw [Function.update_of_ne haddress]
      refine h.closed a fun j hj => hnone j ?_
      have hji : j ≠ i := by
        rintro rfl
        exact haddress (Option.some.inj (hj.symm.trans hopen))
      exact (Function.update_of_ne hji _ _).trans hj

end SettingsSystem

/-- A step is the table's step with the same results. -/
theorem represents_settings {s t : SettingsSystem ι γ} {table : SettingsTable γ} {l : SettingsLabel ι}
    {es : List SettingsEvent} (h : s.Represents table) (hnew : NewAddress s l)
    (hstep : settingsStep unity curve s l = some (t, es)) :
    ∃ table', exec (SettingsTable.step unity curve) table es = some (table', []) ∧ t.Represents table' := by
  cases l with
  | openOutputStream i allocations p config address simulateMultiZone =>
      obtain ⟨r, hbus, heq⟩ := Option.map_eq_some_iff.mp hstep
      cases heq
      have hstepped := busStepped hbus
      obtain ⟨hfree, ⟨e, hes, hr⟩ | ⟨hes, hr⟩⟩ := busStep_opened hbus
      · refine ⟨table, ?_, ?_⟩
        · rw [hes]
          rfl
        · rw [hr, if_pos hfree]
          exact h
      · have hunused := hnew ⟨r.1, by rw [hbus, ← hes]⟩
        refine ⟨Function.update table address (some (.opened unity address simulateMultiZone)), ?_, ?_⟩
        · rw [hes]
          refine exec_single.trans ?_
          simp only [SettingsTable.step, h.closed address hunused]
        · rw [hr] at hstepped
          have hopened : Function.update s.bus.busAddress i (some address) i ≠ none := by
            rw [Function.update_self]
            exact Option.some_ne_none address
          rw [hr, if_neg hopened]
          exact h.opens hfree hunused hstepped _
  | closeOutputStream i =>
      obtain ⟨address, hopen, hmap⟩ := Option.bind_eq_some_iff.mp hstep
      obtain ⟨⟨bus, rets⟩, hbus, heq⟩ := Option.map_eq_some_iff.mp hmap
      cases heq
      cases busStepped hbus with
      | closes _ other hother =>
          cases hopen.symm.trans hother
          refine ⟨Function.update table address none, ?_, h.closes hopen⟩
          refine exec_single.trans ?_
          simp only [SettingsTable.step, h.opened i address hopen, Option.map_some]
  | setDeviceAddressIsDucked address isDucked =>
      cases hstep
      exact ⟨_, rfl, h.changes address _⟩
  | setDeviceAddressIsMuted address isMuted =>
      cases hstep
      exact ⟨_, rfl, h.changes address _⟩
  | setAudioPortConfig address gain =>
      cases hstep
      rw [SettingsSystem.setAudioPortConfig]
      rcases h.found address with ⟨hlookup, hnone⟩ | ⟨i, hlookup, hopen, hsome⟩
      · rw [hlookup]
        refine ⟨table, ?_, h⟩
        refine exec_single.trans ?_
        simp only [SettingsTable.step, hnone]
      · rw [hlookup]
        refine ⟨_, ?_, h.set hopen _⟩
        refine exec_single.trans ?_
        simp only [SettingsTable.step, hsome]

/-! ### Runs -/

/-- The calls of a run are calls of a table of settings by address: each stream has what has been set for its address
since it has been opened, and a gain is refused exactly for an address without a stream. -/
theorem settings_by_address {settings : ι → StreamSettings γ} {labels : List (SettingsLabel ι)}
    {s : SettingsSystem ι γ} {events : List SettingsEvent}
    (hnew : Guarded (settingsStep unity curve) NewAddress ⟨.init, settings⟩ labels)
    (hrun : exec (settingsStep unity curve) ⟨.init, settings⟩ labels = some (s, events)) :
    ∃ table, exec (SettingsTable.step unity curve) (fun _ => none) events = some (table, []) ∧ s.Represents table := by
  refine exec_invariant_history (fun h s => ∃ table, exec (SettingsTable.step unity curve) (fun _ => none) h =
    some (table, []) ∧ s.Represents table) (fun h s l t es hI hnew hstep => ?_) (h := []) ?_ hnew hrun
  · obtain ⟨table, htable, hs⟩ := hI
    obtain ⟨table', htable', ht⟩ := represents_settings hs hnew hstep
    exact ⟨table', exec_append_eq_some.mpr ⟨table, [], [], htable, htable', rfl⟩, ht⟩
  · refine ⟨fun _ => none, rfl, registered_init, fun i j address hi => ?_, fun i address hi => ?_, fun _ _ => rfl⟩
    · cases hi
    · cases hi

/-- An address is ducked, and the stream that is opened under it later is not. -/
def duckedAddress : List (SettingsLabel Bool) :=
  [.openOutputStream false ⟨true, fun _ => true, true, true⟩ ⟨1, 1⟩ ⟨8000, audioFormatPcm16Bit, 3⟩ "bus0" false,
    .setDeviceAddressIsDucked "bus0" true, .setAudioPortConfig "bus1" 0, .closeOutputStream false,
    .openOutputStream true ⟨true, fun _ => true, true, true⟩ ⟨1, 1⟩ ⟨8000, audioFormatPcm16Bit, 3⟩ "bus0" false,
    .setDeviceAddressIsMuted "bus0" true]

theorem settings_by_address_reopened : ∃ s events table,
    exec (settingsStep 1 fun _ => 2) ⟨.init, fun _ => ⟨false, false, 0, .bothChannels⟩⟩ duckedAddress =
      some (s, events) ∧
    exec (SettingsTable.step 1 fun _ => 2) (fun _ => none) events = some (table, []) ∧
    table "bus0" = some ⟨false, true, 1, .bothChannels⟩ := by
  obtain ⟨s, events, hrun, hopen, hsettings⟩ : ∃ s events,
      exec (settingsStep 1 fun _ => 2) ⟨.init, fun _ => ⟨false, false, 0, .bothChannels⟩⟩ duckedAddress =
        some (s, events) ∧
      s.bus.busAddress true = some "bus0" ∧ s.settings true = ⟨false, true, 1, .bothChannels⟩ := ⟨_, _, rfl, rfl, rfl⟩
  have hnew : Guarded (settingsStep 1 fun _ => 2) NewAddress ⟨.init, fun _ => ⟨false, false, 0, .bothChannels⟩⟩
      duckedAddress := by
    refine guarded_cons rfl (fun _ j => nofun) (guarded_cons rfl trivial (guarded_cons rfl trivial ?_))
    refine guarded_cons rfl trivial (guarded_cons rfl ?_ (guarded_cons rfl trivial trivial))
    intro _ j hopen
    cases j <;> cases hopen
  obtain ⟨table, htable, hs⟩ := settings_by_address hnew hrun
  exact ⟨s, events, table, hrun, htable, (hs.opened true "bus0" hopen).trans (congrArg some hsettings)⟩

end Trout.Audio
