import Trout.DeviceModel

/-! What a failed open leaves behind. An output stream is registered after its last check; an input stream is
registered and handed out even when its ring buffer has no bytes. -/

namespace Trout.Audio
open CInt

variable {ι σ : Type}

/-- A call that fails assigns no stream and leaves the maps and the next frequency as they are. -/
def OpenReturn.LeavesDevice (r : OpenReturn σ ι) (adev : GenericAudioDevice ι) : Prop :=
  r.ret ≠ none → r.stream = none ∧ r.device = adev

theorem openOutputStream_leaves {adev : GenericAudioDevice ι} {i : ι} {allocations : OpenAllocations}
    {p : PeriodProperties} {config : AudioConfig} {address : Option String} {r : OpenReturn GenericStreamOut ι}
    (h : adev.openOutputStream i allocations p config address = some r) : r.LeavesDevice adev := by
  intro hret
  rw [GenericAudioDevice.openOutputStream] at h
  split at h
  · cases h
    exact ⟨rfl, rfl⟩
  · split at h
    · cases h
    · split at h
      · cases h
        exact absurd rfl hret
      · cases h

/-- The parameters are rejected, or the stream is not allocated, or the bytes of its ring buffer are. -/
def RejectsOrAllocates (allocations : OpenAllocations) (p : PeriodProperties) (config : AudioConfig) : Prop :=
  (refineInputParameters config).2 = true ∨ allocations.stream = false ∨
    allocations.vbuffer (sizeMul (pcmConfigFor (refineInputParameters config).1.sampleRate p).capacity
      (pcmConfigFor (refineInputParameters config).1.sampleRate p).frameSize) = true

theorem openInputStream_leaves_iff {adev : GenericAudioDevice ι} {allocations : OpenAllocations}
    {p : PeriodProperties} {device : AudioDevice} {config : AudioConfig} {address : Option String}
    {r : OpenReturn GenericStreamIn ι} (h : adev.openInputStream allocations p device config address = some r) :
    r.LeavesDevice adev ↔ RejectsOrAllocates allocations p config := by
  rcases openInputStream_cases h with ⟨hinval, rfl⟩ | ⟨hinval, hstream, rfl⟩ | ⟨hinval, hstream, hbytes, hret, hopened⟩ |
    ⟨hinval, hstream, hbytes, hret⟩
  · exact iff_of_true (fun _ => ⟨rfl, rfl⟩) (Or.inl hinval)
  · exact iff_of_true (fun _ => ⟨rfl, rfl⟩) (Or.inr (Or.inl hstream))
  · apply iff_of_false
    · intro hleaves
      rw [(hleaves (by rw [hret]; exact Option.some_ne_none _)).1] at hopened
      cases hopened
    · rintro (hother | hother | hother)
      · rw [hinval] at hother
        cases hother
      · rw [hstream] at hother
        cases hother
      · rw [hbytes] at hother
        cases hother
  · exact iff_of_true (fun hfailed => absurd hret hfailed) (Or.inr (Or.inr hbytes))

/-- A failed open of an output stream leaves the device as it was; one of an input stream does so exactly when it
does not fail at the ring buffer. -/
theorem failed_open_leaves_device (adev : GenericAudioDevice ι) (allocations : OpenAllocations)
    (p : PeriodProperties) (config : AudioConfig) (address : Option String) :
    (∀ i, ∀ r ∈ adev.openOutputStream i allocations p config address, r.LeavesDevice adev) ∧
      ∀ device, ∀ r ∈ adev.openInputStream allocations p device config address,
        (r.LeavesDevice adev ↔ RejectsOrAllocates allocations p config) :=
  ⟨fun _ _ h => openOutputStream_leaves h, fun _ _ h => openInputStream_leaves_iff h⟩

/-- Everything but the bytes of the ring buffer is allocated. -/
def noRingBuffer : OpenAllocations := ⟨true, fun _ => false, true, true⟩

theorem failed_open_assigns :
    ∃ r, (GenericAudioDevice.init : GenericAudioDevice Unit).openInputStream noRingBuffer ⟨20, 4⟩ .bus
        ⟨48000, audioFormatPcm16Bit, audioChannelInStereo⟩ (some "bus0_tone_") = some r ∧
      r.ret = some .enomem ∧ r.stream.isSome ∧ r.device.nextToneFrequencyToAssign = 170 ∧
      r.device.inBusToneFrequencyMap.lookup "bus0_tone_" = some 150 ∧ ¬ r.LeavesDevice .init := by
  refine ⟨_, rfl, rfl, rfl, rfl, rfl, ?_⟩
  intro hleaves
  cases (hleaves (Option.some_ne_none _)).1

end Trout.Audio
