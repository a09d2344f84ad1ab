import Trout.DeviceModel
import Trout.Runs

/-! Output streams under their bus addresses. Opening a stream puts it in `out_bus_stream_map` under its address,
in the place of another one; closing it removes what is there. -/

namespace Trout.Audio
open Runs

variable {ι : Type}

/-- The device, and the open output streams with their addresses. -/
structure BusSystem (ι : Type) where
  device : GenericAudioDevice ι
  busAddress : ι → Option String

def BusSystem.init : BusSystem ι := ⟨.init, fun _ => none⟩

inductive BusLabel (ι : Type) where
  | openOutputStream (i : ι) (allocations : OpenAllocations) (p : PeriodProperties) (config : AudioConfig)
      (address : String)
  | closeOutputStream (i : ι)

section Step
variable [DecidableEq ι]

/-- The device's next call. A new stream is none of the open ones; a call that fails opens none. -/
def busStep (s : BusSystem ι) : BusLabel ι → Option (BusSystem ι × List (Option Errno))
  | .openOutputStream i allocations p config address =>
      if s.busAddress i = none then
        (s.device.openOutputStream i allocations p config (some address)).map fun r =>
          (⟨r.device, if r.stream.isSome then Function.update s.busAddress i (some address) else s.busAddress⟩, [r.ret])
      else
        none
  | .closeOutputStream i =>
      (s.busAddress i).map fun address =>
        (⟨s.device.closeOutputStream address, Function.update s.busAddress i none⟩, [])

/-- The steps, each with its condition and its result. -/
inductive BusStepped (s : BusSystem ι) : BusLabel ι → BusSystem ι → Prop where
  | opens (i : ι) (allocations : OpenAllocations) (p : PeriodProperties) (config : AudioConfig) (address : String) :
      s.busAddress i = none →
      BusStepped s (.openOutputStream i allocations p config address)
        ⟨{ s.device with outBusStreamMap := s.device.outBusStreamMap.insert address i },
          Function.update s.busAddress i (some address)⟩
  | fails (i : ι) (allocations : OpenAllocations) (p : PeriodProperties) (config : AudioConfig) (address : String) :
      BusStepped s (.openOutputStream i allocations p config address) s
  | closes (i : ι) (address : String) : s.busAddress i = some address →
      BusStepped s (.closeOutputStream i)
        ⟨s.device.closeOutputStream address, Function.update s.busAddress i none⟩

theorem busStepped {s t : BusSystem ι} {l : BusLabel ι} {es : List (Option Errno)} (h : busStep s l = some (t, es)) :
    BusStepped s l t := by
  cases l with
  | openOutputStream i allocations p config address =>
      obtain ⟨hnew, hopen⟩ := Option.ite_none_right_eq_some.mp h
      obtain ⟨r, hr, heq⟩ := Option.map_eq_some_iff.mp hopen
      cases heq
      rw [GenericAudioDevice.openOutputStream] at hr
      split at hr
      · cases hr
        exact .fails i allocations p config address
      · dsimp only at hr
        split at hr
        · cases hr
          exact .opens i allocations p config address hnew
        · cases hr
  | closeOutputStream i =>
      obtain ⟨address, haddress, heq⟩ := Option.map_eq_some_iff.mp h
      cases heq
      exact .closes i address haddress

end Step

/-! ### The invariant -/

/-- `get_audio_device` finds an open stream with the address if there is one, and otherwise none. -/
def BusSystem.Resolves (s : BusSystem ι) : Prop :=
  ∀ address,
    match getAudioDevice (some s.device) address with
    | some i => s.busAddress i = some address
    | none => ∀ i, s.busAddress i ≠ some address

/-- What the map holds is open, and every address of an open stream is in it. -/
structure BusSystem.Registered (s : BusSystem ι) : Prop where
  found : ∀ address i, s.device.outBusStreamMap.lookup address = some i → s.busAddress i = some address
  listed : ∀ address i, s.busAddress i = some address → s.device.outBusStreamMap.lookup address ≠ none

theorem resolves_iff {s : BusSystem ι} : s.Resolves ↔ s.Registered := by
  constructor
  · intro h
    constructor
    · intro address i hlookup
      have hresolves := h address
      rw [show getAudioDevice (some s.device) address = some i from hlookup] at hresolves
      exact hresolves
    · intro address i hopen hlookup
      have hresolves := h address
      rw [show getAudioDevice (some s.device) address = none from hlookup] at hresolves
      exact hresolves i hopen
  · intro h address
    have hlookup : getAudioDevice (some s.device) address = s.device.outBusStreamMap.lookup address := rfl
    rw [hlookup]
    cases hfound : s.device.outBusStreamMap.lookup address with
    | some i => exact h.found address i hfound
    | none => exact fun i hopen => h.listed address i hopen hfound

theorem registered_init : (BusSystem.init : BusSystem ι).Registered := by
  constructor
  · intro address i hlookup
    rw [show (BusSystem.init : BusSystem ι).device.outBusStreamMap.lookup address = none from Finmap.lookup_empty address]
      at hlookup
    cases hlookup
  · intro address i hopen
    cases hopen

/-- No other stream is open under the address of one that is closed. -/
def Unshared (s : BusSystem ι) : BusLabel ι → Prop
  | .closeOutputStream i => ∀ j, j ≠ i → s.busAddress i ≠ none → s.busAddress j ≠ s.busAddress i
  | .openOutputStream .. => True

variable [DecidableEq ι]

theorem BusSystem.Registered.step {s t : BusSystem ι} {l : BusLabel ι} (h : s.Registered) (hunshared : Unshared s l)
    (hstep : BusStepped s l t) : t.Registered := by
  cases hstep with
  | opens i allocations p config address hnew =>
      constructor
      · intro a j hlookup
        by_cases ha : a = address
        · subst ha
          rw [Finmap.lookup_insert] at hlookup
          cases hlookup
          exact Function.update_self i _ _
        · rw [Finmap.lookup_insert_of_ne _ ha] at hlookup
          have hopen := h.found a j hlookup
          have hne : j ≠ i := by
            rintro rfl
            rw [hnew] at hopen
            cases hopen
          exact (Function.update_of_ne hne _ _).trans hopen
      · intro a j hopen
        by_cases ha : a = address
        · subst ha
          rw [Finmap.lookup_insert]
          exact Option.some_ne_none _
        · rw [Finmap.lookup_insert_of_ne _ ha]
          by_cases hj : j = i
          · subst hj
            have hsame := (Function.update_self j (some address) s.busAddress).symm.trans hopen
            exact absurd (Option.some.inj hsame).symm ha
          · exact h.listed a j ((Function.update_of_ne hj _ _).symm.trans hopen)
  | fails => exact h
  | closes i address haddress =>
      constructor
      · intro a j hlookup
        by_cases ha : a = address
        · subst ha
          rw [GenericAudioDevice.closeOutputStream, Finmap.lookup_erase] at hlookup
          cases hlookup
        · rw [GenericAudioDevice.closeOutputStream, Finmap.lookup_erase_ne ha] at hlookup
          have hopen := h.found a j hlookup
          have hne : j ≠ i := by
            rintro rfl
            exact ha (Option.some.inj (hopen.symm.trans haddress))
          exact (Function.update_of_ne hne _ _).trans hopen
      · intro a j hopen
        by_cases hj : j = i
        · subst hj
          cases (Function.update_self j none s.busAddress).symm.trans hopen
        · replace hopen := (Function.update_of_ne hj none s.busAddress).symm.trans hopen
          have ha : a ≠ address := by
            rintro rfl
            exact hunshared j hj (by rw [haddress]; exact Option.some_ne_none _) (hopen.trans haddress.symm)
          rw [GenericAudioDevice.closeOutputStream, Finmap.lookup_erase_ne ha]
          exact h.listed a j hopen

/-- After a stream has gone whose address another one shares, that address is not found. -/
theorem unshared_of_registered {s t : BusSystem ι} {l : BusLabel ι} (hstep : BusStepped s l t) (h : t.Registered) :
    Unshared s l := by
  cases hstep with
  | opens => trivial
  | fails => trivial
  | closes i address haddress =>
      intro j hj _ hshared
      refine h.listed address j ?_ (Finmap.lookup_erase address _)
      exact (Function.update_of_ne hj _ _).trans (hshared.trans haddress)

theorem registered_step_iff {s t : BusSystem ι} {l : BusLabel ι} {es : List (Option Errno)} (h : s.Registered)
    (hstep : busStep s l = some (t, es)) : t.Registered ↔ Unshared s l :=
  ⟨fun ht => unshared_of_registered (busStepped hstep) ht, fun hunshared => h.step hunshared (busStepped hstep)⟩

/-- A call on a stream that is not open closes nothing. -/
theorem unshared_of_disabled {s : BusSystem ι} {l : BusLabel ι} (h : busStep s l = none) : Unshared s l := by
  cases l with
  | openOutputStream => trivial
  | closeOutputStream i =>
      intro j _ hopen
      exact absurd (Option.map_eq_none_iff.mp h) hopen

/-- After every call of a run every address resolves, exactly when no stream is closed while another one is open
under its address. -/
theorem addresses_resolve (labels : List (BusLabel ι)) :
    Always busStep BusSystem.Resolves .init labels ↔ Guarded busStep Unshared .init labels := by
  have hresolves : (BusSystem.Resolves : BusSystem ι → Prop) = BusSystem.Registered := by
    funext s
    exact propext resolves_iff
  rw [hresolves]
  exact always_iff_guarded (fun s l t es h hstep => registered_step_iff h hstep) (fun s l => unshared_of_disabled)
    registered_init labels

/-- Two streams under one address, of which the first is closed. -/
def sharedAddress : List (BusLabel Bool) :=
  [.openOutputStream false ⟨true, fun _ => true, true, true⟩ ⟨1, 1⟩ ⟨8000, audioFormatPcm16Bit, 3⟩ "bus0",
    .openOutputStream true ⟨true, fun _ => true, true, true⟩ ⟨1, 1⟩ ⟨8000, audioFormatPcm16Bit, 3⟩ "bus0",
    .closeOutputStream false]

theorem address_lost : ∃ s, exec busStep .init sharedAddress = some (s, [none, none]) ∧
    s.busAddress true = some "bus0" ∧ getAudioDevice (some s.device) "bus0" = none ∧ ¬ s.Resolves ∧
    ¬ Always busStep BusSystem.Resolves .init sharedAddress := by
  obtain ⟨s, hrun, hopen, hlookup⟩ : ∃ s, exec busStep .init sharedAddress = some (s, [none, none]) ∧
      s.busAddress true = some "bus0" ∧ getAudioDevice (some s.device) "bus0" = none := ⟨_, rfl, rfl, rfl⟩
  have hlost : ¬ s.Resolves := by
    intro h
    have hresolves := h "bus0"
    rw [hlookup] at hresolves
    exact hresolves true hopen
  exact ⟨s, hrun, hopen, hlookup, hlost, fun h => hlost (h sharedAddress [] (List.append_nil _).symm s _ hrun)⟩

end Trout.Audio
