import Trout.CInt

/-! C strings and the functions `strstr` and `strtol` on them, in the "C" locale and with a `long` of 64 bits. A string
is the list of its characters before the terminating null. -/

namespace CString

/-- `isspace` -/
def isSpace (c : Char) : Bool := c ∈ [' ', '\t', '\n', '\x0b', '\x0c', '\r']

inductive Sign where
  | none
  | plus
  | minus
  deriving DecidableEq

def Sign.chars : Sign → List Char
  | .none => []
  | .plus => ['+']
  | .minus => ['-']

def Sign.apply : Sign → Nat → Int
  | .minus, n => -n
  | _, n => n

/-- A decimal numeral as `strtol` reads it: white space, a sign or none, and digits. -/
structure Numeral where
  blanks : List Char
  sign : Sign
  digits : List Char
  blank : ∀ c ∈ blanks, isSpace c = true
  digit : ∀ c ∈ digits, c.isDigit = true
  nonempty : digits ≠ []

namespace Numeral

def text (n : Numeral) : List Char := n.blanks ++ (n.sign.chars ++ n.digits)

def value (n : Numeral) : Int := n.sign.apply (Nat.ofDigitChars 10 n.digits 0)

end Numeral

/-! ### The function strtol -/

def longMin : Int := -2 ^ 63
def longMax : Int := 2 ^ 63 - 1

def clampLong (v : Int) : Int := max longMin (min v longMax)

/-- What a call of `strtol` returns, what is left of the string at `*end`, and whether `errno` is `ERANGE`. -/
structure StrtolResult where
  value : Int
  rest : List Char
  range : Bool
  deriving DecidableEq

def splitSign : List Char → Sign × List Char
  | '+' :: s => (.plus, s)
  | '-' :: s => (.minus, s)
  | s => (.none, s)

/-- `strtol(nptr, &end, 10)`. Without digits `end` is `nptr`, and `errno` stays as it is. -/
def strtol (nptr : List Char) : StrtolResult :=
  let signed := splitSign (nptr.dropWhile isSpace)
  let digits := signed.2.takeWhile Char.isDigit
  if digits = [] then
    ⟨0, nptr, false⟩
  else
    let v := signed.1.apply (Nat.ofDigitChars 10 digits 0)
    ⟨clampLong v, signed.2.dropWhile Char.isDigit, clampLong v ≠ v⟩

theorem clampLong_of_mem {v : Int} (hlow : longMin ≤ v) (hhigh : v ≤ longMax) : clampLong v = v := by
  rw [clampLong, min_eq_left hhigh, max_eq_right hlow]

theorem takeWhile_append_of_stop {α : Type} {p : α → Bool} {l rest : List α} (hl : ∀ a ∈ l, p a = true)
    (hrest : ∀ a ∈ rest.head?, p a = false) :
    (l ++ rest).takeWhile p = l ∧ (l ++ rest).dropWhile p = rest := by
  rw [List.takeWhile_append_of_pos hl, List.dropWhile_append_of_pos hl]
  cases rest with
  | nil => exact ⟨List.append_nil l, rfl⟩
  | cons a rest =>
      have hstop : p a = false := hrest a rfl
      constructor
      · rw [List.takeWhile_cons_of_neg (by simp [hstop]), List.append_nil]
      · rw [List.dropWhile_cons_of_neg (by simp [hstop])]

theorem not_space_of_digit {c : Char} (h : c.isDigit = true) : isSpace c = false := by
  rw [isSpace, decide_eq_false_iff_not]
  intro hmem
  have hspaces : ([' ', '\t', '\n', '\x0b', '\x0c', '\r'].all fun s => !s.isDigit) = true := rfl
  have hc := List.all_eq_true.mp hspaces c hmem
  rw [h] at hc
  cases hc

theorem splitSign_of_digit {c : Char} {s : List Char} (h : c.isDigit = true) : splitSign (c :: s) = (.none, c :: s) := by
  rw [splitSign]
  · rintro rest heq
    cases heq
    cases h
  · rintro rest heq
    cases heq
    cases h

/-- A numeral's sign and digits follow its white space. -/
theorem Numeral.splitSign_text (n : Numeral) (rest : List Char) :
    splitSign ((n.text ++ rest).dropWhile isSpace) = (n.sign, n.digits ++ rest) := by
  obtain ⟨c, digits, hdigits⟩ := List.exists_cons_of_ne_nil n.nonempty
  have hc : c.isDigit = true := n.digit c (hdigits ▸ List.mem_cons_self)
  have hstop : ∀ a ∈ (n.sign.chars ++ n.digits ++ rest).head?, isSpace a = false := by
    intro a ha
    cases hsign : n.sign with
    | none =>
        rw [hsign, hdigits] at ha
        cases ha
        exact not_space_of_digit hc
    | plus =>
        rw [hsign] at ha
        cases ha
        decide
    | minus =>
        rw [hsign] at ha
        cases ha
        decide
  rw [Numeral.text, List.append_assoc, (takeWhile_append_of_stop n.blank hstop).2]
  cases hsign : n.sign with
  | none =>
      rw [hdigits]
      exact splitSign_of_digit hc
  | plus => rfl
  | minus => rfl

/-- The number that is read at a numeral, up to the first character that is not one of its digits. -/
theorem strtol_numeral (n : Numeral) {rest : List Char} (hrest : ∀ c ∈ rest.head?, c.isDigit = false) :
    strtol (n.text ++ rest) = ⟨clampLong n.value, rest, clampLong n.value ≠ n.value⟩ := by
  obtain ⟨htake, hdrop⟩ := takeWhile_append_of_stop n.digit hrest
  simp only [strtol, n.splitSign_text rest, htake, hdrop, if_neg n.nonempty]
  rfl

theorem splitSign_text (s : List Char) : (splitSign s).1.chars ++ (splitSign s).2 = s := by
  unfold splitSign
  split <;> rfl

/-- A string starts with a numeral that ends before a character which is no digit, or with no numeral and nothing is
read. -/
theorem strtol_cases (s : List Char) :
    (∃ (n : Numeral) (rest : List Char), s = n.text ++ rest ∧ ∀ c ∈ rest.head?, c.isDigit = false) ∨
      ((∀ (n : Numeral) (rest : List Char), s ≠ n.text ++ rest) ∧ strtol s = ⟨0, s, false⟩) := by
  by_cases hdigits : (splitSign (s.dropWhile isSpace)).2.takeWhile Char.isDigit = []
  · right
    constructor
    · rintro n rest rfl
      rw [n.splitSign_text rest] at hdigits
      obtain ⟨c, digits, hn⟩ := List.exists_cons_of_ne_nil n.nonempty
      have hc : c.isDigit = true := n.digit c (hn ▸ List.mem_cons_self)
      rw [hn, List.cons_append, List.takeWhile_cons_of_pos hc] at hdigits
      cases hdigits
    · simp only [strtol, if_pos hdigits]
  · left
    refine ⟨⟨s.takeWhile isSpace, (splitSign (s.dropWhile isSpace)).1, _,
      fun c hc => List.mem_takeWhile_imp hc, fun c hc => List.mem_takeWhile_imp hc, hdigits⟩,
      (splitSign (s.dropWhile isSpace)).2.dropWhile Char.isDigit, ?_, ?_⟩
    · simp only [Numeral.text, List.append_assoc, List.takeWhile_append_dropWhile, splitSign_text]
    · intro c hc
      have hstop := List.head?_dropWhile_not Char.isDigit (splitSign (s.dropWhile isSpace)).2
      rw [Option.mem_def.mp hc] at hstop
      exact hstop

/-- The string starts with a numeral, and its number as a `long` is this one. -/
def ReadsLong (s : List Char) (v : Int) : Prop :=
  ∃ (n : Numeral) (rest : List Char), s = n.text ++ rest ∧ (∀ c ∈ rest.head?, c.isDigit = false) ∧
    clampLong n.value = v

theorem ReadsLong.strtol_value {s : List Char} {v : Int} (h : ReadsLong s v) : (strtol s).value = v := by
  obtain ⟨n, rest, rfl, hrest, rfl⟩ := h
  rw [strtol_numeral n hrest]

/-- `strtol` returns the number that the string starts with, or zero. -/
theorem strtol_value_cases (s : List Char) :
    ReadsLong s (strtol s).value ∨ ((∀ v, ¬ ReadsLong s v) ∧ (strtol s).value = 0) := by
  rcases strtol_cases s with ⟨n, rest, rfl, hrest⟩ | ⟨hnone, hread⟩
  · rw [strtol_numeral n hrest]
    exact Or.inl ⟨n, rest, rfl, hrest, rfl⟩
  · refine Or.inr ⟨?_, by rw [hread]⟩
    rintro v ⟨n, rest, heq, -, -⟩
    exact hnone n rest heq

/-- The number of digits without anything before them. -/
theorem readsLong_digits {s : List Char} (h : s.takeWhile Char.isDigit ≠ []) :
    ReadsLong s (clampLong (Nat.ofDigitChars 10 (s.takeWhile Char.isDigit) 0)) := by
  refine ⟨⟨[], .none, s.takeWhile Char.isDigit, fun c hc => absurd hc List.not_mem_nil,
    fun c hc => List.mem_takeWhile_imp hc, h⟩, s.dropWhile Char.isDigit, List.takeWhile_append_dropWhile.symm, ?_, rfl⟩
  intro c hc
  have hstop := List.head?_dropWhile_not Char.isDigit s
  rw [Option.mem_def.mp hc] at hstop
  exact hstop

/-! ### The format %d -/

/-- What `printf` writes for `%d`. -/
def formatInt (v : Int) : List Char := if v < 0 then '-' :: Nat.toDigits 10 v.natAbs else Nat.toDigits 10 v.natAbs

/-- The numeral of a formatted integer. -/
theorem formatInt_numeral (v : Int) : ∃ n : Numeral, n.text = formatInt v ∧ n.value = v := by
  have hdigit : ∀ c ∈ Nat.toDigits 10 v.natAbs, c.isDigit = true := fun c hc =>
    Nat.isDigit_of_mem_toDigits (by decide) (by decide) hc
  have hvalue : Nat.ofDigitChars 10 (Nat.toDigits 10 v.natAbs) 0 = v.natAbs :=
    Nat.ofDigitChars_toDigits (by decide) (by decide)
  rw [formatInt]
  by_cases hnegative : v < 0
  · refine ⟨⟨[], .minus, _, fun c hc => absurd hc List.not_mem_nil, hdigit, Nat.toDigits_ne_nil⟩, ?_, ?_⟩
    · rw [if_pos hnegative]
      rfl
    · rw [Numeral.value, hvalue, Sign.apply]
      omega
  · refine ⟨⟨[], .none, _, fun c hc => absurd hc List.not_mem_nil, hdigit, Nat.toDigits_ne_nil⟩, ?_, ?_⟩
    · rw [if_neg hnegative]
      rfl
    · rw [Numeral.value, hvalue, Sign.apply]
      · omega
      · exact Sign.noConfusion

/-- An `int` takes eleven characters at most. -/
theorem formatInt_length {v : Int} (h : v.natAbs < 10 ^ 10) : (formatInt v).length ≤ 11 := by
  have hdigits : (Nat.toDigits 10 v.natAbs).length ≤ 10 := (Nat.length_toDigits_le_iff (by decide) (by decide)).mpr h
  rw [formatInt]
  split
  · exact Nat.succ_le_succ hdigits
  · omega

/-! ### The function strstr -/

/-- `strstr`: the string from the first occurrence of the needle. -/
def strstr (needle : List Char) : List Char → Option (List Char)
  | [] => if needle = [] then some [] else none
  | c :: s => if needle <+: c :: s then some (c :: s) else strstr needle s

theorem strstr_eq_none {needle s : List Char} : strstr needle s = none ↔ ¬ needle <:+: s := by
  induction s with
  | nil => simp [strstr]
  | cons c s ih =>
      rw [strstr, List.infix_cons_iff]
      by_cases hp : needle <+: c :: s
      · simp [hp]
      · rw [if_neg hp, ih]
        simp [hp]

/-- What is found starts with the needle, and no earlier place does. -/
theorem strstr_eq_some {needle s found : List Char} (h : strstr needle s = some found) :
    needle <+: found ∧ ∃ before, s = before ++ found ∧
      ∀ before' after', s = before' ++ (needle ++ after') → before.length ≤ before'.length := by
  induction s with
  | nil =>
      obtain ⟨rfl, heq⟩ := Option.ite_none_right_eq_some.mp h
      cases heq
      exact ⟨List.prefix_rfl, [], rfl, fun _ _ _ => Nat.zero_le _⟩
  | cons c s ih =>
      rw [strstr] at h
      by_cases hp : needle <+: c :: s
      · rw [if_pos hp] at h
        cases h
        exact ⟨hp, [], rfl, fun _ _ _ => Nat.zero_le _⟩
      · rw [if_neg hp] at h
        obtain ⟨hstarts, before, rfl, hfirst⟩ := ih h
        refine ⟨hstarts, c :: before, rfl, fun before' after' heq => ?_⟩
        cases before' with
        | nil => exact absurd ⟨after', heq.symm⟩ hp
        | cons c' before' =>
            rw [List.length_cons, List.length_cons]
            exact Nat.succ_le_succ (hfirst before' after' (List.cons.inj heq).2)

end CString
