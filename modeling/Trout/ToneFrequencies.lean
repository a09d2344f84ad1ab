import Trout.DeviceModel
import Trout.Runs

/-! The frequencies of the tone generators, over any calls of `adev_open_input_stream`. An address is registered by
the first call that asks for its frequency. Whether the next frequency has been used up is told from its being equal
to the one that was found. -/

namespace Trout.Audio
open Runs

variable {ι : Type}

/-- A call of `adev_open_input_stream`. -/
structure InputOpen where
  allocations : OpenAllocations
  p : PeriodProperties
  device : AudioDevice
  config : AudioConfig
  address : Option String

/-- What a call has done to the tones: the frequency that its address has after it, whether it has registered the
address, and `next_tone_frequency_to_assign` before and after. -/
structure ToneOpen where
  address : String
  frequency : Int32
  registers : Bool
  before : Int32
  after : Int32
  deriving DecidableEq

/-- A call without an address, or with one that has no frequency after it, leaves no trace. -/
def toneOpens (adev adev' : GenericAudioDevice ι) (address : Option String) : List ToneOpen :=
  match address with
  | none => []
  | some address =>
      match adev'.inBusToneFrequencyMap.lookup address with
      | none => []
      | some frequency =>
          [⟨address, frequency, (adev.inBusToneFrequencyMap.lookup address).isNone, adev.nextToneFrequencyToAssign,
            adev'.nextToneFrequencyToAssign⟩]

def toneStep (adev : GenericAudioDevice ι) (call : InputOpen) : Option (GenericAudioDevice ι × List ToneOpen) :=
  (adev.openInputStream call.allocations call.p call.device call.config call.address).map fun r =>
    (r.device, toneOpens adev r.device call.address)

/-! ### What a call does -/

/-- The call opens a tone generator under the address: it gets to `create_or_fetch_tone_frequency`. -/
def InputOpen.TonesAt (call : InputOpen) (address : String) : Prop :=
  call.address = some address ∧ (refineInputParameters call.config).2 = false ∧ call.allocations.stream = true ∧
    (call.device = .fmTuner ∨ call.device = .bus ∧ call.allocations.busAddress = true ∧
      addressHasToneKeyword address = true)

/-- The device with the address registered under the next frequency. -/
def GenericAudioDevice.withTone (adev : GenericAudioDevice ι) (address : String) : GenericAudioDevice ι :=
  { adev with inBusToneFrequencyMap := adev.inBusToneFrequencyMap.insert address adev.nextToneFrequencyToAssign
    }.increaseNextToneFrequency

/-- The effects of a call on the device. -/
inductive ToneStepped (adev : GenericAudioDevice ι) (call : InputOpen) : GenericAudioDevice ι → Prop where
  | keeps : (∀ address, ¬ call.TonesAt address) → ToneStepped adev call adev
  | fetches (address : String) (frequency : Int32) : call.TonesAt address →
      adev.inBusToneFrequencyMap.lookup address = some frequency → adev.nextToneFrequencyToAssign ≠ frequency →
      ToneStepped adev call adev
  | advances (address : String) : call.TonesAt address →
      adev.inBusToneFrequencyMap.lookup address = some adev.nextToneFrequencyToAssign →
      ToneStepped adev call adev.increaseNextToneFrequency
  | registers (address : String) : call.TonesAt address → adev.inBusToneFrequencyMap.lookup address = none →
      ToneStepped adev call (adev.withTone address)

theorem tonesAt_iff {call : InputOpen} {inp : GenericStreamIn} {address : String}
    (haddress : call.address = some address) (hdevice : inp.device = call.device)
    (hinval : (refineInputParameters call.config).2 = false) (hstream : call.allocations.stream = true) :
    isToneGeneratorDevice { inp with busAddress := if call.allocations.busAddress then some address else none } =
      some true ↔ call.TonesAt address := by
  simp only [isToneGeneratorDevice, hdevice, InputOpen.TonesAt, haddress, hinval, hstream, true_and]
  cases call.device with
  | bus => cases call.allocations.busAddress <;> simp
  | _ => simp

theorem assignToneFrequency_steps {adev : GenericAudioDevice ι} {call : InputOpen} {address : String}
    {r : GenericAudioDevice ι × Int32} (htones : call.TonesAt address)
    (h : adev.assignToneFrequency call.allocations.frequency address = some r) : ToneStepped adev call r.1 := by
  obtain ⟨q, hfetch, heq⟩ := Option.map_eq_some_iff.mp h
  cases heq
  rw [GenericAudioDevice.createOrFetchToneFrequency] at hfetch
  cases hlookup : adev.inBusToneFrequencyMap.lookup address with
  | some frequency =>
      rw [hlookup] at hfetch
      cases hfetch
      by_cases hnext : adev.nextToneFrequencyToAssign = frequency
      · subst hnext
        dsimp only
        rw [if_pos rfl]
        exact .advances address htones hlookup
      · dsimp only
        rw [if_neg hnext]
        exact .fetches address frequency htones hlookup hnext
  | none =>
      rw [hlookup] at hfetch
      obtain ⟨-, hq⟩ := Option.ite_none_right_eq_some.mp hfetch
      cases hq
      dsimp only
      rw [if_pos rfl]
      exact .registers address htones hlookup

theorem registerInput_steps {adev : GenericAudioDevice ι} {call : InputOpen} {inp : GenericStreamIn}
    {ret : Option Errno} {r : OpenReturn GenericStreamIn ι} (hdevice : inp.device = call.device)
    (hinval : (refineInputParameters call.config).2 = false) (hstream : call.allocations.stream = true)
    (h : adev.registerInput call.allocations inp call.address ret = some r) : ToneStepped adev call r.device := by
  cases haddress : call.address with
  | none =>
      rw [haddress] at h
      cases h
      exact .keeps fun address htones => absurd (haddress.symm.trans htones.1) (by simp)
  | some address =>
      rw [haddress] at h
      dsimp only [GenericAudioDevice.registerInput] at h
      have htones := tonesAt_iff haddress hdevice hinval hstream
      cases htone : isToneGeneratorDevice
          { inp with busAddress := if call.allocations.busAddress then some address else none } with
      | none =>
          rw [htone] at h
          cases h
      | some tone =>
          rw [htone] at h
          cases tone with
          | false =>
              cases h
              refine .keeps fun other hother => ?_
              obtain rfl : address = other := Option.some.inj (haddress.symm.trans hother.1)
              cases htone.symm.trans (htones.mpr hother)
          | true =>
              obtain ⟨assigned, hassign, heq⟩ := Option.map_eq_some_iff.mp h
              cases heq
              exact assignToneFrequency_steps (htones.mp htone) hassign

theorem toneStepped {adev adev' : GenericAudioDevice ι} {call : InputOpen} {es : List ToneOpen}
    (h : toneStep adev call = some (adev', es)) :
    ToneStepped adev call adev' ∧ es = toneOpens adev adev' call.address := by
  obtain ⟨r, hopen, heq⟩ := Option.map_eq_some_iff.mp h
  cases heq
  refine ⟨?_, rfl⟩
  dsimp only [GenericAudioDevice.openInputStream] at hopen
  by_cases hinval : (refineInputParameters call.config).2 = true
  · rw [if_pos hinval] at hopen
    cases hopen
    exact .keeps fun address htones => absurd (hinval.symm.trans htones.2.1) (by decide)
  rw [if_neg hinval] at hopen
  rw [Bool.not_eq_true] at hinval
  by_cases hstream : call.allocations.stream = true
  · rw [if_neg (not_not_intro hstream)] at hopen
    cases hinit : audioVbufferInit call.allocations.vbuffer
        (pcmConfigFor (refineInputParameters call.config).1.sampleRate call.p).capacity
        (pcmConfigFor (refineInputParameters call.config).1.sampleRate call.p).frameSize with
    | error e =>
        rw [hinit] at hopen
        exact registerInput_steps rfl hinval hstream hopen
    | ok buffer =>
        rw [hinit] at hopen
        exact registerInput_steps rfl hinval hstream hopen
  · rw [if_pos hstream] at hopen
    cases hopen
    exact .keeps fun address htones => hstream htones.2.2.1

/-! ### Fair assignment -/

/-- The frequency of the address that is registered after `k` others. -/
def toneFrequency (k : Nat) : Int32 := Int32.ofNat (150 + 20 * (k % 18))

/-- The calls that have registered their addresses. -/
def registrations (opens : List ToneOpen) : List ToneOpen := opens.filter ToneOpen.registers

/-- The frequencies are assigned in turn, one for each address, and stay. -/
structure FairTones (opens : List ToneOpen) (adev : GenericAudioDevice ι) : Prop where
  keeps : ∀ e ∈ opens, adev.inBusToneFrequencyMap.lookup e.address = some e.frequency
  registered : ∀ e ∈ opens, ∃ first ∈ registrations opens, first.address = e.address
  distinct : ((registrations opens).map ToneOpen.address).Nodup
  assigned : ∀ k e, (registrations opens)[k]? = some e → e.frequency = toneFrequency k
  advances : ∀ e ∈ opens, e.after ≠ e.before → e.registers = true
  differ : ∀ i j e e', (registrations opens)[i]? = some e → (registrations opens)[j]? = some e' → i < j → j < i + 18 →
    e.frequency ≠ e'.frequency

theorem increaseNextToneFrequency_tone {adev : GenericAudioDevice ι} {k : Nat}
    (h : adev.nextToneFrequencyToAssign = toneFrequency k) :
    adev.increaseNextToneFrequency.nextToneFrequencyToAssign = toneFrequency (k + 1) := by
  have hwrap : ∀ r < 18, (if toneFrequency r + toneFrequencyIncrease > maxToneFrequency then defaultFrequency
      else toneFrequency r + toneFrequencyIncrease) = toneFrequency (r + 1) := by decide
  have hmod : toneFrequency k = toneFrequency (k % 18) := by rw [toneFrequency, toneFrequency, Nat.mod_mod]
  have hnext : toneFrequency (k + 1) = toneFrequency (k % 18 + 1) := by rw [toneFrequency, toneFrequency, Nat.mod_add_mod]
  rw [hnext, ← hwrap (k % 18) (Nat.mod_lt k (by decide)), ← hmod, ← h]
  rfl

theorem increaseNextToneFrequency_ne (adev : GenericAudioDevice ι) :
    adev.increaseNextToneFrequency.nextToneFrequencyToAssign ≠ adev.nextToneFrequencyToAssign := by
  dsimp only [GenericAudioDevice.increaseNextToneFrequency]
  generalize adev.nextToneFrequencyToAssign = next
  by_cases hwrap : next + toneFrequencyIncrease > maxToneFrequency
  · rw [if_pos hwrap]
    rintro rfl
    exact absurd hwrap (by decide)
  · rw [if_neg hwrap]
    intro hsame
    exact absurd (Int32.add_eq_left.mp hsame) (by decide)

theorem toneFrequency_ne {i j : Nat} (hlt : i < j) (hwindow : j < i + 18) : toneFrequency i ≠ toneFrequency j := by
  have hinj : ∀ r < 18, ∀ s < 18, Int32.ofNat (150 + 20 * r) = Int32.ofNat (150 + 20 * s) → r = s := by decide
  intro hsame
  have hmod := hinj (i % 18) (Nat.mod_lt i (by decide)) (j % 18) (Nat.mod_lt j (by decide)) hsame
  omega

/-! ### Runs -/

/-- The call finds the next frequency at an address that is registered: the counter goes on although no address has
been added. -/
def SpendsFrequency (adev : GenericAudioDevice ι) (call : InputOpen) : Prop :=
  ∃ address, call.TonesAt address ∧ adev.inBusToneFrequencyMap.lookup address = some adev.nextToneFrequencyToAssign

/-- Besides what is claimed of the calls so far, that the counter is at the next address's frequency and that the map
has no other addresses. -/
structure TonesFollow (opens : List ToneOpen) (adev : GenericAudioDevice ι) : Prop where
  fair : FairTones opens adev
  next : adev.nextToneFrequencyToAssign = toneFrequency (registrations opens).length
  known : ∀ address frequency, adev.inBusToneFrequencyMap.lookup address = some frequency →
    ∃ e ∈ registrations opens, e.address = address

theorem tonesFollow_init : TonesFollow [] (.init : GenericAudioDevice ι) where
  fair :=
    { keeps := fun e he => absurd he List.not_mem_nil
      registered := fun e he => absurd he List.not_mem_nil
      distinct := List.nodup_nil
      assigned := fun k e h => by simp [registrations] at h
      advances := fun e he => absurd he List.not_mem_nil
      differ := fun i j e e' h => by simp [registrations] at h }
  next := rfl
  known := fun address frequency h => by simp [GenericAudioDevice.init] at h

/-- What a call leaves behind that changes nothing. -/
theorem mem_toneOpens_self {adev : GenericAudioDevice ι} {address : Option String} {e : ToneOpen}
    (he : e ∈ toneOpens adev adev address) :
    e.registers = false ∧ e.after = e.before ∧ adev.inBusToneFrequencyMap.lookup e.address = some e.frequency := by
  cases address with
  | none => exact absurd he List.not_mem_nil
  | some address =>
      rw [toneOpens] at he
      cases hlookup : adev.inBusToneFrequencyMap.lookup address with
      | none =>
          rw [hlookup] at he
          exact absurd he List.not_mem_nil
      | some frequency =>
          rw [hlookup] at he
          obtain rfl := List.mem_singleton.mp he
          exact ⟨rfl, rfl, hlookup⟩

theorem TonesFollow.same {opens es : List ToneOpen} {adev : GenericAudioDevice ι} (h : TonesFollow opens adev)
    (hes : ∀ e ∈ es, e.registers = false ∧ e.after = e.before ∧
      adev.inBusToneFrequencyMap.lookup e.address = some e.frequency) : TonesFollow (opens ++ es) adev := by
  have hnone : registrations es = [] := List.filter_eq_nil_iff.mpr fun e he => by simp [(hes e he).1]
  have hsame : registrations (opens ++ es) = registrations opens := by
    rw [registrations, List.filter_append, ← registrations, ← registrations, hnone, List.append_nil]
  refine ⟨?_, hsame ▸ h.next, hsame ▸ h.known⟩
  constructor
  · intro e he
    rcases List.mem_append.mp he with hold | hnew
    · exact h.fair.keeps e hold
    · exact (hes e hnew).2.2
  · intro e he
    rw [hsame]
    rcases List.mem_append.mp he with hold | hnew
    · exact h.fair.registered e hold
    · exact h.known e.address e.frequency (hes e hnew).2.2
  · rw [hsame]
    exact h.fair.distinct
  · rw [hsame]
    exact h.fair.assigned
  · intro e he hchange
    rcases List.mem_append.mp he with hold | hnew
    · exact h.fair.advances e hold hchange
    · exact absurd (hes e hnew).2.1 hchange
  · rw [hsame]
    exact h.fair.differ

/-- The frequencies of a window differ when every address has the frequency of its turn. -/
theorem differ_of_assigned {registered : List ToneOpen}
    (hassigned : ∀ k e, registered[k]? = some e → e.frequency = toneFrequency k) (i j : Nat) (e e' : ToneOpen)
    (hi : registered[i]? = some e) (hj : registered[j]? = some e') (hlt : i < j) (hwindow : j < i + 18) :
    e.frequency ≠ e'.frequency := by
  rw [hassigned i e hi, hassigned j e' hj]
  exact toneFrequency_ne hlt hwindow

theorem withTone_lookup_self (adev : GenericAudioDevice ι) (address : String) :
    (adev.withTone address).inBusToneFrequencyMap.lookup address = some adev.nextToneFrequencyToAssign :=
  Finmap.lookup_insert _

theorem withTone_lookup_of_ne (adev : GenericAudioDevice ι) {address other : String} (h : other ≠ address) :
    (adev.withTone address).inBusToneFrequencyMap.lookup other = adev.inBusToneFrequencyMap.lookup other :=
  Finmap.lookup_insert_of_ne _ h

theorem registrations_concat (opens : List ToneOpen) {last : ToneOpen} (h : last.registers = true) :
    registrations (opens ++ [last]) = registrations opens ++ [last] := by
  rw [registrations, List.filter_append, List.filter_cons_of_pos h]
  rfl

/-- The address after those that have the frequencies of their turns has the one of its own. -/
theorem assigned_concat {registered : List ToneOpen} {last : ToneOpen}
    (h : ∀ k e, registered[k]? = some e → e.frequency = toneFrequency k)
    (hlast : last.frequency = toneFrequency registered.length) (k : Nat) (e : ToneOpen)
    (hk : (registered ++ [last])[k]? = some e) : e.frequency = toneFrequency k := by
  rcases Nat.lt_trichotomy k registered.length with hlt | rfl | hgt
  · rw [List.getElem?_append_left hlt] at hk
    exact h k e hk
  · rw [List.getElem?_concat_length] at hk
    obtain rfl := Option.some.inj hk
    exact hlast
  · rw [List.getElem?_eq_none (by simpa using hgt)] at hk
    cases hk

theorem TonesFollow.register {opens : List ToneOpen} {adev : GenericAudioDevice ι} {address : String}
    (h : TonesFollow opens adev) (hnew : adev.inBusToneFrequencyMap.lookup address = none) :
    TonesFollow (opens ++ [⟨address, adev.nextToneFrequencyToAssign, true, adev.nextToneFrequencyToAssign,
      (adev.withTone address).nextToneFrequencyToAssign⟩]) (adev.withTone address) := by
  generalize hlast : ToneOpen.mk address adev.nextToneFrequencyToAssign true adev.nextToneFrequencyToAssign
    (adev.withTone address).nextToneFrequencyToAssign = last
  have hregisters : last.registers = true := by rw [← hlast]
  have haddress : last.address = address := by rw [← hlast]
  have hfrequency : last.frequency = adev.nextToneFrequencyToAssign := by rw [← hlast]
  have hmore := registrations_concat opens hregisters
  have hfresh : ∀ e ∈ opens, e.address ≠ address := by
    intro e he heq
    have hold := h.fair.keeps e he
    rw [heq, hnew] at hold
    cases hold
  have hassigned := assigned_concat h.fair.assigned (hfrequency.trans h.next)
  refine ⟨⟨?_, ?_, ?_, ?_, ?_, ?_⟩, ?_, ?_⟩
  · intro e he
    rcases List.mem_append.mp he with hold | hlastmem
    · rw [withTone_lookup_of_ne adev (hfresh e hold)]
      exact h.fair.keeps e hold
    · obtain rfl := List.mem_singleton.mp hlastmem
      rw [haddress, withTone_lookup_self, hfrequency]
  · intro e he
    rw [hmore]
    rcases List.mem_append.mp he with hold | hlastmem
    · obtain ⟨first, hfirst, hsame⟩ := h.fair.registered e hold
      exact ⟨first, List.mem_append_left _ hfirst, hsame⟩
    · exact ⟨last, List.mem_append_right _ List.mem_cons_self, by rw [List.mem_singleton.mp hlastmem]⟩
  · rw [hmore, List.map_append, List.map_singleton, haddress]
    refine List.Nodup.append h.fair.distinct (List.nodup_singleton address) ?_
    rw [List.disjoint_singleton]
    intro hmem
    obtain ⟨e, he, heq⟩ := List.mem_map.mp hmem
    exact hfresh e (List.mem_of_mem_filter he) heq
  · rw [hmore]
    exact hassigned
  · intro e he hchange
    rcases List.mem_append.mp he with hold | hlastmem
    · exact h.fair.advances e hold hchange
    · rw [List.mem_singleton.mp hlastmem, hregisters]
  · rw [hmore]
    exact differ_of_assigned hassigned
  · rw [hmore, List.length_append, List.length_singleton]
    exact increaseNextToneFrequency_tone h.next
  · intro other frequency hother
    rw [hmore]
    by_cases heq : other = address
    · exact ⟨last, List.mem_append_right _ List.mem_cons_self, haddress.trans heq.symm⟩
    · rw [withTone_lookup_of_ne adev heq] at hother
      obtain ⟨e, he, hsame⟩ := h.known other frequency hother
      exact ⟨e, List.mem_append_left _ he, hsame⟩

theorem TonesFollow.step {opens es : List ToneOpen} {adev adev' : GenericAudioDevice ι} {call : InputOpen}
    (h : TonesFollow opens adev) (hspares : ¬ SpendsFrequency adev call)
    (hstep : toneStep adev call = some (adev', es)) : TonesFollow (opens ++ es) adev' := by
  obtain ⟨hstepped, rfl⟩ := toneStepped hstep
  cases hstepped with
  | keeps _ => exact h.same fun e he => mem_toneOpens_self he
  | fetches address frequency _ _ _ => exact h.same fun e he => mem_toneOpens_self he
  | advances address htones hlookup => exact absurd ⟨address, htones, hlookup⟩ hspares
  | registers address htones hnew =>
      simp only [htones.1, toneOpens, withTone_lookup_self, hnew, Option.isNone_none]
      exact h.register hnew

/-- A call that spends a frequency shows it. -/
theorem spares_of_advances {adev adev' : GenericAudioDevice ι} {call : InputOpen} {es : List ToneOpen}
    (hstep : toneStep adev call = some (adev', es)) (hes : ∀ e ∈ es, e.after ≠ e.before → e.registers = true) :
    ¬ SpendsFrequency adev call := by
  rintro ⟨address, htones, hlookup⟩
  obtain ⟨hstepped, rfl⟩ := toneStepped hstep
  have hsame : ∀ other, call.TonesAt other → other = address := fun other hother =>
    Option.some.inj (hother.1.symm.trans htones.1)
  cases hstepped with
  | keeps hsilent => exact hsilent address htones
  | fetches other frequency hother hfound hne =>
      rw [hsame other hother, hlookup] at hfound
      exact hne (Option.some.inj hfound)
  | advances other hother hfound =>
      have hspent : ToneOpen.mk address adev.nextToneFrequencyToAssign false adev.nextToneFrequencyToAssign
          adev.increaseNextToneFrequency.nextToneFrequencyToAssign ∈
            toneOpens adev adev.increaseNextToneFrequency call.address := by
        simp only [htones.1, toneOpens, GenericAudioDevice.increaseNextToneFrequency, hlookup, Option.isNone_some,
          List.mem_singleton]
      cases hes _ hspent (increaseNextToneFrequency_ne adev)
  | registers other hother hnew =>
      rw [hsame other hother, hlookup] at hnew
      cases hnew

/-- Over any calls the frequencies are assigned in turn and stay, exactly when no call finds the next frequency at an
address that is registered already. -/
theorem fair_tones {calls : List InputOpen} {adev : GenericAudioDevice ι} {opens : List ToneOpen}
    (hrun : exec toneStep .init calls = some (adev, opens)) :
    FairTones opens adev ↔ Guarded toneStep (fun adev call => ¬ SpendsFrequency adev call)
      (.init : GenericAudioDevice ι) calls := by
  constructor
  · intro h
    exact guarded_of_events (fun s l t es hstep hes => spares_of_advances hstep hes) hrun h.advances
  · intro hguard
    exact (exec_invariant_history TonesFollow (fun h s l t es hinv hspares hstep => hinv.step hspares hstep)
      tonesFollow_init hguard hrun).fair

/-- The calls for a tone generator under each of the addresses, with a configuration that is supported. -/
def toneCalls (addresses : List String) : List InputOpen :=
  addresses.map fun address =>
    ⟨⟨true, fun _ => true, true, true⟩, ⟨1, 1⟩, .bus, ⟨8000, audioFormatPcm16Bit, 3⟩, some address⟩

/-- Two addresses, of which the first is opened again. -/
theorem two_tones : ∃ adev opens,
    exec toneStep (.init : GenericAudioDevice Unit) (toneCalls ["_tone_a", "_tone_b", "_tone_a"]) = some (adev, opens) ∧
      opens = [⟨"_tone_a", 150, true, 150, 170⟩, ⟨"_tone_b", 170, true, 170, 190⟩, ⟨"_tone_a", 150, false, 190, 190⟩] ∧
      FairTones opens adev := by
  obtain ⟨adev, opens, hrun, hopens⟩ : ∃ adev opens,
      exec toneStep (.init : GenericAudioDevice Unit) (toneCalls ["_tone_a", "_tone_b", "_tone_a"]) = some (adev, opens) ∧
        opens = [⟨"_tone_a", 150, true, 150, 170⟩, ⟨"_tone_b", 170, true, 170, 190⟩,
          ⟨"_tone_a", 150, false, 190, 190⟩] := ⟨_, _, rfl, rfl⟩
  refine ⟨adev, opens, hrun, hopens, (fair_tones hrun).mpr ?_⟩
  have hspares : ∀ (adev : GenericAudioDevice Unit) (address : String),
      adev.inBusToneFrequencyMap.lookup address ≠ some adev.nextToneFrequencyToAssign →
        ∀ call ∈ toneCalls [address], ¬ SpendsFrequency adev call := by
    rintro adev address hne call hcall ⟨other, htones, hfound⟩
    obtain rfl := List.mem_singleton.mp hcall
    obtain rfl := Option.some.inj htones.1
    exact hne hfound
  refine guarded_cons rfl (hspares _ "_tone_a" (by decide) _ List.mem_cons_self) ?_
  refine guarded_cons rfl (hspares _ "_tone_b" (by decide) _ List.mem_cons_self) ?_
  exact guarded_cons rfl (hspares _ "_tone_a" (by decide) _ List.mem_cons_self) trivial

/-- Eighteen addresses, the first of them again, and another one. -/
def reopenedTone : List String :=
  ["_tone_a", "_tone_b", "_tone_c", "_tone_d", "_tone_e", "_tone_f", "_tone_g", "_tone_h", "_tone_i", "_tone_j",
    "_tone_k", "_tone_l", "_tone_m", "_tone_n", "_tone_o", "_tone_p", "_tone_q", "_tone_r", "_tone_a", "_tone_s"]

/-- The nineteenth address does not get the frequency of the first. -/
theorem reopening_spends_frequency : ∃ adev opens,
    exec toneStep (.init : GenericAudioDevice Unit) (toneCalls reopenedTone) = some (adev, opens) ∧
      opens[18]? = some ⟨"_tone_a", 150, false, 150, 170⟩ ∧ opens[19]? = some ⟨"_tone_s", 170, true, 170, 190⟩ ∧
      ¬ FairTones opens adev := by
  refine ⟨_, _, rfl, rfl, rfl, fun h => ?_⟩
  exact absurd (h.assigned 18 ⟨"_tone_s", 170, true, 170, 190⟩ rfl) (by decide)

end Trout.Audio
