import Trout.CString

/-! The zone of an output stream: what `out_write_worker` takes from the bus address when it starts, and the test of the
selected zone before each `ext_pcm_write`. -/

namespace Trout.Audio
open CInt CString

def primaryZoneId : Int := 0
def invalidZoneId : Int := -1
def defaultZoneToLeftSpeaker : Int := primaryZoneId + 1

def audioZoneKeyword : List Char := "_audio_zone_".toList

/-- `get_zone_id_from_address`. The test of `end` never holds, since `strtol` assigns it. -/
def getZoneIdFromAddress (address : String) : Int :=
  match strstr audioZoneKeyword address.toList with
  | none => invalidZoneId
  | some zoneStart =>
      let zoneId := toInt (strtol (zoneStart.drop audioZoneKeyword.length)).value
      if zoneId < 0 then invalidZoneId else zoneId

/-- The zone that `out_write_worker` starts with. -/
def outWriteWorkerZoneId (busAddress : String) : Int :=
  if (strstr audioZoneKeyword busAddress.toList).isSome then
    let zoneId := getZoneIdFromAddress busAddress
    if zoneId = invalidZoneId then defaultZoneToLeftSpeaker else zoneId
  else
    primaryZoneId

def isZoneSelectedToPlay (lastZoneSelectedToPlay zoneId : Int) : Bool :=
  if zoneId ≠ primaryZoneId then lastZoneSelectedToPlay = zoneId else true

/-- Whether the worker of a stream hands what it has read to `ext_pcm_write`. -/
def outWriteWorkerForwards (lastZoneSelectedToPlay : Int) (busAddress : String) : Bool :=
  isZoneSelectedToPlay lastZoneSelectedToPlay (outWriteWorkerZoneId busAddress)

/-! ### The zone of an address -/

/-- The zone that a text behind the keyword stands for: the number of the digits that it starts with when this fits in
an `int`, and the left speaker's zone otherwise. -/
def zoneOfSuffix (suffix : List Char) : Int :=
  let digits := suffix.takeWhile Char.isDigit
  if digits ≠ [] ∧ Nat.ofDigitChars 10 digits 0 < 2 ^ 31 then Nat.ofDigitChars 10 digits 0 else defaultZoneToLeftSpeaker

/-- The zone that an address stands for. -/
def zoneOfAddress (address : String) : Int :=
  match strstr audioZoneKeyword address.toList with
  | none => primaryZoneId
  | some zoneStart => zoneOfSuffix (zoneStart.drop audioZoneKeyword.length)

theorem zoneOfAddress_primary {address : String} (h : ¬ audioZoneKeyword <:+: address.toList) :
    zoneOfAddress address = primaryZoneId := by
  rw [zoneOfAddress, strstr_eq_none.mpr h]

/-- The text is the one behind the keyword's first occurrence. -/
theorem zoneOfAddress_first {address : String} {before suffix : List Char}
    (h : address.toList = before ++ (audioZoneKeyword ++ suffix))
    (hfirst : ∀ before' suffix', address.toList = before' ++ (audioZoneKeyword ++ suffix') →
      before.length ≤ before'.length) : zoneOfAddress address = zoneOfSuffix suffix := by
  rw [zoneOfAddress]
  cases hfound : strstr audioZoneKeyword address.toList with
  | none => exact absurd ⟨before, suffix, by rw [h, List.append_assoc]⟩ (strstr_eq_none.mp hfound)
  | some zoneStart =>
      obtain ⟨⟨after, rfl⟩, earlier, heq, hearlier⟩ := strstr_eq_some hfound
      have hlength : earlier.length = before.length :=
        le_antisymm (hearlier before suffix h) (hfirst earlier after heq)
      obtain ⟨-, hsame⟩ := List.append_inj (heq.symm.trans h) hlength
      dsimp only
      rw [hsame, List.drop_left]

/-- A text that the worker takes for the zone it stands for: it starts with digits whose number fits in an `int`, or it
starts with a number that as an `int` is negative or happens to be the left speaker's zone. -/
def ZoneKept (suffix : List Char) : Prop :=
  (suffix.takeWhile Char.isDigit ≠ [] ∧ Nat.ofDigitChars 10 (suffix.takeWhile Char.isDigit) 0 < 2 ^ 31) ∨
    ∃ v, ReadsLong suffix v ∧ (toInt v < 0 ∨ toInt v = defaultZoneToLeftSpeaker)

theorem outWriteWorkerZoneId_of_keyword {address : String} {zoneStart : List Char}
    (h : strstr audioZoneKeyword address.toList = some zoneStart) :
    outWriteWorkerZoneId address =
      if toInt (strtol (zoneStart.drop audioZoneKeyword.length)).value < 0 then defaultZoneToLeftSpeaker
      else toInt (strtol (zoneStart.drop audioZoneKeyword.length)).value := by
  simp only [outWriteWorkerZoneId, getZoneIdFromAddress, h, Option.isSome_some, if_true]
  by_cases hnegative : toInt (strtol (zoneStart.drop audioZoneKeyword.length)).value < 0
  · rw [if_pos hnegative, if_pos rfl, if_pos hnegative]
  · rw [if_neg hnegative, if_neg hnegative, if_neg]
    intro hinvalid
    exact hnegative (hinvalid ▸ by decide)

/-- A zone is the left speaker's by default, or because it is this one. -/
theorem default_zone_iff (v : Int) :
    (if v < 0 then defaultZoneToLeftSpeaker else v) = defaultZoneToLeftSpeaker ↔
      v < 0 ∨ v = defaultZoneToLeftSpeaker := by
  by_cases hnegative : v < 0
  · rw [if_pos hnegative]
    exact iff_of_true rfl (Or.inl hnegative)
  · rw [if_neg hnegative, or_iff_right hnegative]

theorem zone_iff_kept (suffix : List Char) :
    (if toInt (strtol suffix).value < 0 then defaultZoneToLeftSpeaker else toInt (strtol suffix).value) =
      zoneOfSuffix suffix ↔ ZoneKept suffix := by
  unfold ZoneKept
  by_cases hplain : suffix.takeWhile Char.isDigit ≠ [] ∧ Nat.ofDigitChars 10 (suffix.takeWhile Char.isDigit) 0 < 2 ^ 31
  · refine iff_of_true ?_ (Or.inl hplain)
    rw [zoneOfSuffix, if_pos hplain, (readsLong_digits hplain.1).strtol_value]
    have hexact : clampLong (Nat.ofDigitChars 10 (suffix.takeWhile Char.isDigit) 0 : Nat) =
        (Nat.ofDigitChars 10 (suffix.takeWhile Char.isDigit) 0 : Nat) := by
      apply clampLong_of_mem
      · exact le_trans (by decide) (Int.natCast_nonneg _)
      · simp only [longMax]
        omega
    rw [hexact, toInt_of_le (Nat.le_pred_of_lt hplain.2), if_neg (not_lt_of_ge (Int.natCast_nonneg _))]
  · rw [zoneOfSuffix, if_neg hplain, default_zone_iff, or_iff_right hplain]
    rcases strtol_value_cases suffix with hreads | ⟨hnone, hzero⟩
    · constructor
      · intro h
        exact ⟨_, hreads, h⟩
      · rintro ⟨v, hv, h⟩
        rw [hv.strtol_value]
        exact h
    · rw [hzero]
      refine iff_of_false (by decide) ?_
      rintro ⟨v, hv, -⟩
      exact hnone v hv

/-- Two zones play for the same selections exactly when they are the same. -/
theorem same_selections_iff (a b : Int) :
    (∀ z : Int, isZoneSelectedToPlay z a = true ↔ b = primaryZoneId ∨ b = z) ↔ a = b := by
  have hselected : ∀ z : Int, isZoneSelectedToPlay z a = true ↔ a = primaryZoneId ∨ a = z := by
    intro z
    rw [isZoneSelectedToPlay]
    by_cases hprimary : a = primaryZoneId
    · simp [hprimary]
    · simp [hprimary, eq_comm]
  simp only [hselected, primaryZoneId]
  constructor
  · intro h
    have ha := h a
    have hb := h b
    have hother := h (max a b + 1)
    omega
  · rintro rfl
    exact fun z => Iff.rfl

/-- A stream plays for the zones that its address stands for exactly when the address has no keyword, or the worker
takes the text behind the keyword for the zone it stands for. The address stands for the primary zone when it does not
have the keyword, and for the zone of what follows the keyword's first occurrence when it does. -/
theorem zone_routing (busAddress : String) :
    ((∀ lastZoneSelectedToPlay : Int, outWriteWorkerForwards lastZoneSelectedToPlay busAddress = true ↔
        zoneOfAddress busAddress = primaryZoneId ∨ zoneOfAddress busAddress = lastZoneSelectedToPlay) ↔
      ∀ zoneStart, strstr audioZoneKeyword busAddress.toList = some zoneStart →
        ZoneKept (zoneStart.drop audioZoneKeyword.length)) ∧
    (¬ audioZoneKeyword <:+: busAddress.toList → zoneOfAddress busAddress = primaryZoneId) ∧
    ∀ before suffix, busAddress.toList = before ++ (audioZoneKeyword ++ suffix) →
      (∀ before' suffix', busAddress.toList = before' ++ (audioZoneKeyword ++ suffix') →
        before.length ≤ before'.length) → zoneOfAddress busAddress = zoneOfSuffix suffix := by
  refine ⟨(same_selections_iff (outWriteWorkerZoneId busAddress) (zoneOfAddress busAddress)).trans ?_,
    zoneOfAddress_primary, fun before suffix => zoneOfAddress_first⟩
  cases hkeyword : strstr audioZoneKeyword busAddress.toList with
  | none =>
      refine iff_of_true ?_ fun zoneStart h => by cases h
      simp only [outWriteWorkerZoneId, zoneOfAddress, hkeyword, Option.isSome_none, Bool.false_eq_true, if_false]
  | some zoneStart =>
      simp only [outWriteWorkerZoneId_of_keyword hkeyword, zoneOfAddress, hkeyword, zone_iff_kept,
        Option.some.injEq, forall_eq']

/-- Without a number, and with one that is too large, a zone plays whichever is selected. -/
theorem malformed_zones_play :
    (outWriteWorkerForwards 2 "bus1_audio_zone_x" = true ∧ zoneOfAddress "bus1_audio_zone_x" = 1) ∧
    (outWriteWorkerForwards 2 "bus1_audio_zone_4294967296" = true ∧ zoneOfAddress "bus1_audio_zone_4294967296" = 1) ∧
    ¬ ∀ busAddress : String, ∀ lastZoneSelectedToPlay : Int,
      outWriteWorkerForwards lastZoneSelectedToPlay busAddress = true ↔
        zoneOfAddress busAddress = primaryZoneId ∨ zoneOfAddress busAddress = lastZoneSelectedToPlay := by
  have hplays : outWriteWorkerForwards 2 "bus1_audio_zone_x" = true := by decide
  have hzone : zoneOfAddress "bus1_audio_zone_x" = 1 := by decide
  refine ⟨⟨hplays, hzone⟩, ⟨by decide, by decide⟩, fun h => ?_⟩
  have hselected := (h "bus1_audio_zone_x" 2).mp hplays
  rw [hzone] at hselected
  exact absurd hselected (by decide)

end Trout.Audio
