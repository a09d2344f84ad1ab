import Trout.CString
import Trout.VbufferModel

/-! The parameters that are integers: `get_int_value` of `audio_hw.c`. It reads a copy of the value that ends with the
parse buffer. -/

namespace Trout.Audio
open CInt CString

/-- The number of an error. -/
def Errno.number : Errno → Int
  | .enoent => 2
  | .enomem => 12
  | .einval => 22
  | .enosys => 38

theorem errno_negative (e : Errno) : -e.number < 0 := by
  cases e <;> decide

/-- `struct str_parms`: the values of the keys. -/
abbrev StrParms := String → Option (List Char)

/-- `str_parms_get_str`, with what it leaves in a buffer of `len` bytes: it copies as `strlcpy` does, and returns the
length of the value. -/
def strParmsGetStr (strParms : StrParms) (key : String) (len : Nat) : Int × List Char :=
  match strParms key with
  | none => (-Errno.enoent.number, [])
  | some value => (value.length, value.take (len - 1))

def sizeOfParseBuffer : Nat := 32

/-- `get_int_value`: the result, and `*return_value` after it. -/
def getIntValue (strParms : StrParms) (key : String) (returnValue : Int) : Int × Int :=
  let value := strParmsGetStr strParms key sizeOfParseBuffer
  if 0 ≤ value.1 then
    let val := strtol value.2
    if val.range = false ∧ val.rest = [] ∧ toInt val.value = val.value then
      (value.1, toInt val.value)
    else
      (-Errno.einval.number, returnValue)
  else
    (value.1, returnValue)

/-- The text is a decimal integer, all of it, and fits in an `int`. -/
def ReadsAsInt (text : List Char) (v : Int) : Prop :=
  (∃ n : Numeral, n.text = text ∧ n.value = v) ∧ -2 ^ 31 ≤ v ∧ v < 2 ^ 31

theorem toInt_eq_self_iff {v : Int} : toInt v = v ↔ -2 ^ 31 ≤ v ∧ v < 2 ^ 31 := by
  simp only [toInt, Int.bmod, uintMod]
  omega

/-- What `get_int_value` accepts, apart from an empty text, are integers. -/
theorem strtol_accepts_iff {text : List Char} (hne : text ≠ []) (v : Int) :
    ((strtol text).range = false ∧ (strtol text).rest = [] ∧ toInt (strtol text).value = (strtol text).value ∧
      (strtol text).value = v) ↔ ReadsAsInt text v := by
  constructor
  · rintro ⟨hrange, hend, hint, rfl⟩
    rcases strtol_cases text with ⟨n, rest, rfl, hrest⟩ | ⟨-, hnone⟩
    · rw [strtol_numeral n hrest] at hrange hend hint ⊢
      dsimp only at hrange hend hint ⊢
      subst hend
      have hexact : clampLong n.value = n.value := by simpa using hrange
      rw [hexact] at hint ⊢
      exact ⟨⟨n, (List.append_nil n.text).symm, rfl⟩, toInt_eq_self_iff.mp hint⟩
    · rw [hnone] at hend
      exact absurd hend hne
  · rintro ⟨⟨n, rfl, rfl⟩, hlow, hhigh⟩
    have hnil : ∀ c ∈ ([] : List Char).head?, c.isDigit = false := fun c hc => by cases hc
    have hread := strtol_numeral n hnil
    rw [List.append_nil] at hread
    have hexact : clampLong n.value = n.value :=
      clampLong_of_mem (le_trans (by decide) hlow) (hhigh.le.trans (by decide))
    rw [hread, hexact]
    exact ⟨by simp, rfl, toInt_eq_self_iff.mpr ⟨hlow, hhigh⟩, rfl⟩

/-- A text is one integer at most. -/
theorem ReadsAsInt.unique {text : List Char} {v w : Int} (hv : ReadsAsInt text v) (hw : ReadsAsInt text w) : v = w := by
  have hne : text ≠ [] := by
    obtain ⟨⟨n, rfl, -⟩, -⟩ := hv
    intro hempty
    exact n.nonempty (List.append_eq_nil_iff.mp (List.append_eq_nil_iff.mp hempty).2).2
  exact ((strtol_accepts_iff hne v).mpr hv).2.2.2.symm.trans ((strtol_accepts_iff hne w).mpr hw).2.2.2

/-- The call stores the integer that the whole value is, and turns down every other value. -/
structure ParsedExactly (value : Option (List Char)) (returnValue : Int) (r : Int × Int) : Prop where
  stores : ∀ text v, value = some text → ReadsAsInt text v → 0 ≤ r.1 ∧ r.2 = v
  rejects : (∀ text v, value = some text → ¬ ReadsAsInt text v) → r.1 < 0 ∧ r.2 = returnValue

/-- The value is missing, or it is not empty and what fits in the parse buffer is the same integer as the whole, if
any. -/
def FitsParseBuffer : Option (List Char) → Prop
  | none => True
  | some text =>
      text ≠ [] ∧ (text.length < sizeOfParseBuffer ∨
        ∀ v, ReadsAsInt (text.take (sizeOfParseBuffer - 1)) v ↔ ReadsAsInt text v)

theorem getIntValue_missing {strParms : StrParms} {key : String} (h : strParms key = none) (returnValue : Int) :
    getIntValue strParms key returnValue = (-Errno.enoent.number, returnValue) := by
  simp only [getIntValue, strParmsGetStr, h]
  rfl

/-- A value that is there is stored or turned down for what of it fits in the parse buffer. -/
theorem getIntValue_present {strParms : StrParms} {key : String} {text : List Char} (h : strParms key = some text)
    (hne : text ≠ []) (returnValue : Int) :
    (∃ v, ReadsAsInt (text.take (sizeOfParseBuffer - 1)) v ∧
      getIntValue strParms key returnValue = ((text.length : Int), v)) ∨
    ((∀ v, ¬ ReadsAsInt (text.take (sizeOfParseBuffer - 1)) v) ∧
      getIntValue strParms key returnValue = (-Errno.einval.number, returnValue)) := by
  have htake : text.take (sizeOfParseBuffer - 1) ≠ [] := by
    simp [List.take_eq_nil_iff, hne, sizeOfParseBuffer]
  simp only [getIntValue, strParmsGetStr, h, if_pos (Int.natCast_nonneg _)]
  by_cases haccept : (strtol (text.take (sizeOfParseBuffer - 1))).range = false ∧
      (strtol (text.take (sizeOfParseBuffer - 1))).rest = [] ∧
      toInt (strtol (text.take (sizeOfParseBuffer - 1))).value = (strtol (text.take (sizeOfParseBuffer - 1))).value
  · left
    rw [if_pos haccept, haccept.2.2]
    exact ⟨_, (strtol_accepts_iff htake _).mp ⟨haccept.1, haccept.2.1, haccept.2.2, rfl⟩, rfl⟩
  · right
    rw [if_neg haccept]
    refine ⟨fun v hv => haccept ?_, rfl⟩
    obtain ⟨hrange, hend, hint, -⟩ := (strtol_accepts_iff htake v).mpr hv
    exact ⟨hrange, hend, hint⟩

/-- An empty value is taken for zero. -/
theorem getIntValue_empty {strParms : StrParms} {key : String} (h : strParms key = some []) (returnValue : Int) :
    getIntValue strParms key returnValue = (0, 0) := by
  simp only [getIntValue, strParmsGetStr, h]
  rfl

theorem not_readsAsInt_nil (v : Int) : ¬ ReadsAsInt [] v := by
  rintro ⟨⟨n, hempty, -⟩, -⟩
  exact n.nonempty (List.append_eq_nil_iff.mp (List.append_eq_nil_iff.mp hempty).2).2

theorem fitsParseBuffer_iff {text : List Char} : FitsParseBuffer (some text) ↔
    text ≠ [] ∧ ∀ v, ReadsAsInt (text.take (sizeOfParseBuffer - 1)) v ↔ ReadsAsInt text v := by
  rw [FitsParseBuffer]
  refine and_congr_right fun _ => ⟨fun h => ?_, Or.inr⟩
  rcases h with hshort | hsame
  · rw [List.take_of_length_le (Nat.le_sub_one_of_lt hshort)]
    exact fun v => Iff.rfl
  · exact hsame

/-- `get_int_value` reads a value as what it is exactly when the value is not empty and what of it fits in the parse
buffer is the same integer as the whole, if any. -/
theorem getIntValue_exact (strParms : StrParms) (key : String) (returnValue : Int) :
    ParsedExactly (strParms key) returnValue (getIntValue strParms key returnValue) ↔
      FitsParseBuffer (strParms key) := by
  cases hvalue : strParms key with
  | none =>
      rw [getIntValue_missing hvalue]
      refine iff_of_true ⟨fun text v h => ?_, fun _ => ⟨errno_negative .enoent, rfl⟩⟩ trivial
      cases h
  | some text =>
      rw [fitsParseBuffer_iff]
      by_cases hempty : text = []
      · subst hempty
        refine iff_of_false (fun h => ?_) (fun h => h.1 rfl)
        have hnegative := (h.rejects fun text v htext => by
          cases htext
          exact not_readsAsInt_nil v).1
        rw [getIntValue_empty hvalue] at hnegative
        exact absurd hnegative (by decide)
      rw [and_iff_right hempty]
      rcases getIntValue_present hvalue hempty returnValue with ⟨v, hread, heq⟩ | ⟨hunread, heq⟩
      · rw [heq]
        constructor
        · intro h w
          by_cases hwhole : ∃ u, ReadsAsInt text u
          · obtain ⟨u, hu⟩ := hwhole
            obtain rfl : v = u := (h.stores text u rfl hu).2
            exact ⟨fun hw => hread.unique hw ▸ hu, fun hw => hu.unique hw ▸ hread⟩
          · have hnegative := (h.rejects fun text' u htext hu => hwhole ⟨u, by cases htext; exact hu⟩).1
            exact absurd hnegative (not_lt_of_ge (Int.natCast_nonneg _))
        · intro hsame
          have hwhole : ReadsAsInt text v := (hsame v).mp hread
          refine ⟨fun text' u htext hu => ?_, fun hnone => absurd hwhole (hnone text v rfl)⟩
          cases htext
          exact ⟨Int.natCast_nonneg _, hwhole.unique hu⟩
      · rw [heq]
        constructor
        · intro h w
          refine iff_of_false (hunread w) fun hw => ?_
          exact absurd (h.stores text w rfl hw).1 (not_le_of_gt (errno_negative .einval))
        · intro hsame
          refine ⟨fun text' u htext hu => ?_, fun _ => ⟨errno_negative .einval, rfl⟩⟩
          cases htext
          exact absurd ((hsame u).mpr hu) (hunread u)

/-- An empty value is stored as zero, and so is the integer 1 behind 31 zeros. -/
theorem values_misread :
    (getIntValue (fun _ => some []) "zone" 7 = (0, 0) ∧
      ¬ ParsedExactly (some []) 7 (getIntValue (fun _ => some []) "zone" 7)) ∧
    (getIntValue (fun _ => some (List.replicate 31 '0' ++ ['1'])) "zone" 7 = (32, 0) ∧
      ¬ ParsedExactly (some (List.replicate 31 '0' ++ ['1'])) 7
        (getIntValue (fun _ => some (List.replicate 31 '0' ++ ['1'])) "zone" 7)) := by
  have hempty : getIntValue (fun _ => some []) "zone" 7 = (0, 0) := rfl
  have hlong : getIntValue (fun _ => some (List.replicate 31 '0' ++ ['1'])) "zone" 7 = (32, 0) := rfl
  have hone : ReadsAsInt (List.replicate 31 '0' ++ ['1']) 1 :=
    ⟨⟨⟨[], .none, List.replicate 31 '0' ++ ['1'], fun c hc => absurd hc List.not_mem_nil, by simp, by simp⟩, rfl, rfl⟩,
      by decide⟩
  rw [hempty, hlong]
  refine ⟨⟨rfl, fun h => ?_⟩, rfl, fun h => ?_⟩
  · have hnegative := (h.rejects fun text v htext => by
      cases htext
      exact not_readsAsInt_nil v).1
    exact absurd hnegative (by decide)
  · exact absurd (h.stores _ 1 rfl hone).2 (by decide)

end Trout.Audio
