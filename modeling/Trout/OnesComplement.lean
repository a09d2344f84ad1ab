import Mathlib

/-! Sums in ones' complement: the numbers are 0 to `M`, of which `M` is a second zero, and a carry out of a sum
is added to it again. A sum of words is their sum as natural numbers, reduced modulo `M` to a value that is 0
only for 0, however it is folded and in whatever pieces. -/

namespace OnesComplement

/-- Addition with end-around carry. -/
def add (M a b : Nat) : Nat := if a + b ≤ M then a + b else a + b - M

/-- The sum of words. -/
def sum (M : Nat) (words : List Nat) : Nat := words.foldl (add M) 0

/-- The residue between 1 and `M`, of 0 the number itself. -/
def reduce (M n : Nat) : Nat := if n = 0 then 0 else (n - 1) % M + 1

/-- The carries of a number in base `M + 1` are added to its lowest digit. -/
def carry (M n : Nat) : Nat := n % (M + 1) + n / (M + 1)

variable {M : Nat}

theorem reduce_zero : reduce M 0 = 0 := rfl

theorem reduce_succ (n : Nat) : reduce M (n + 1) = n % M + 1 := rfl

theorem reduce_le (hM : 0 < M) (n : Nat) : reduce M n ≤ M := by
  cases n with
  | zero => exact Nat.zero_le M
  | succ n => exact Nat.mod_lt n hM

theorem reduce_of_le {n : Nat} (h : n ≤ M) : reduce M n = n := by
  cases n with
  | zero => rfl
  | succ n => rw [reduce_succ, Nat.mod_eq_of_lt h]

theorem reduce_eq_zero_iff {n : Nat} : reduce M n = 0 ↔ n = 0 := by
  cases n with
  | zero => exact iff_of_true rfl rfl
  | succ n => exact iff_of_false (Nat.succ_ne_zero _) (Nat.succ_ne_zero _)

theorem reduce_modEq (n : Nat) : reduce M n ≡ n [MOD M] := by
  cases n with
  | zero => exact rfl
  | succ n =>
      apply Nat.ModEq.add_right
      exact Nat.mod_modEq n M

/-- Numbers that are congruent and vanish together have one residue. -/
theorem reduce_congr {a b : Nat} (h : a ≡ b [MOD M]) (hzero : a = 0 ↔ b = 0) : reduce M a = reduce M b := by
  cases a with
  | zero => rw [hzero.mp rfl]
  | succ a =>
      cases b with
      | zero => exact absurd (hzero.mpr rfl) (Nat.succ_ne_zero a)
      | succ b =>
          have hmod : a % M = b % M := Nat.ModEq.add_right_cancel' 1 h
          rw [reduce_succ, reduce_succ, hmod]

theorem reduce_reduce_add (a b : Nat) : reduce M (reduce M a + b) = reduce M (a + b) := by
  apply reduce_congr
  · exact (reduce_modEq a).add_right b
  · rw [Nat.add_eq_zero_iff, Nat.add_eq_zero_iff, reduce_eq_zero_iff]

theorem reduce_eq_max_iff (hM : 0 < M) {n : Nat} : reduce M n = M ↔ n ≠ 0 ∧ M ∣ n := by
  constructor
  · intro h
    refine ⟨?_, ?_⟩
    · rintro rfl
      rw [reduce_zero] at h
      omega
    · have hmod := reduce_modEq (M := M) n
      rw [h] at hmod
      exact (hmod.dvd_iff (dvd_refl M)).mp (dvd_refl M)
  · rintro ⟨hn, hdvd⟩
    calc reduce M n = reduce M M := by
          apply reduce_congr
          · exact (Nat.modEq_zero_iff_dvd.mpr hdvd).trans (Nat.modEq_zero_iff_dvd.mpr (dvd_refl M)).symm
          · exact iff_of_false hn (by omega)
      _ = M := reduce_of_le (le_refl M)

/-- The complement of a sum makes it the second zero. -/
theorem reduce_complement (hM : 0 < M) (n : Nat) : reduce M (n + (M - reduce M n)) = M := by
  have hle := reduce_le hM n
  apply (reduce_eq_max_iff hM).mpr
  constructor
  · intro hzero
    obtain ⟨rfl, hcomplement⟩ := Nat.add_eq_zero_iff.mp hzero
    rw [reduce_zero] at hcomplement
    omega
  · apply (Nat.modEq_zero_iff_dvd).mp
    calc n + (M - reduce M n) ≡ reduce M n + (M - reduce M n) [MOD M] := ((reduce_modEq n).symm).add_right _
      _ = M := by omega
      _ ≡ 0 [MOD M] := Nat.modEq_zero_iff_dvd.mpr (dvd_refl M)

/-- A factor that is prime to `M`, such as the base's digit shift, keeps the second zero. -/
theorem reduce_mul_eq_max_iff (hM : 0 < M) {k n : Nat} (hk : 0 < k) (hcoprime : M.Coprime k) :
    reduce M (k * n) = M ↔ reduce M n = M := by
  rw [reduce_eq_max_iff hM, reduce_eq_max_iff hM, hcoprime.dvd_mul_left, Nat.mul_ne_zero_iff]
  constructor
  · rintro ⟨⟨-, hn⟩, hdvd⟩
    exact ⟨hn, hdvd⟩
  · rintro ⟨hn, hdvd⟩
    exact ⟨⟨hk.ne', hn⟩, hdvd⟩

/-! ### Sums -/

theorem add_eq_reduce {a b : Nat} (ha : a ≤ M) (hb : b ≤ M) : add M a b = reduce M (a + b) := by
  rw [add]
  by_cases h : a + b ≤ M
  · rw [if_pos h, reduce_of_le h]
  · rw [if_neg h]
    calc a + b - M = reduce M (a + b - M) := (reduce_of_le (by omega)).symm
      _ = reduce M (a + b) := by
          apply reduce_congr
          · have hmod : a + b - M + M ≡ a + b - M [MOD M] := Nat.add_modEq_right
            rw [Nat.sub_add_cancel (by omega)] at hmod
            exact hmod.symm
          · omega

theorem foldl_add_eq_reduce (hM : 0 < M) {words : List Nat} (hwords : ∀ w ∈ words, w ≤ M) {first : Nat} (hfirst : first ≤ M) :
    words.foldl (add M) first = reduce M (first + words.sum) := by
  induction words generalizing first with
  | nil => rw [List.foldl_nil, List.sum_nil, Nat.add_zero, reduce_of_le hfirst]
  | cons w words ih =>
      have hw := hwords w List.mem_cons_self
      rw [List.foldl_cons, add_eq_reduce hfirst hw, List.sum_cons,
        ih (fun v hv => hwords v (List.mem_cons_of_mem w hv)) (reduce_le hM _), reduce_reduce_add, Nat.add_assoc]

theorem sum_eq_reduce (hM : 0 < M) {words : List Nat} (hwords : ∀ w ∈ words, w ≤ M) : sum M words = reduce M words.sum := by
  rw [sum, foldl_add_eq_reduce hM hwords (Nat.zero_le M), Nat.zero_add]

/-! ### Folding -/

theorem carry_modEq (n : Nat) : carry M n ≡ n [MOD M] := by
  have hbase : M + 1 ≡ 1 [MOD M] := Nat.add_modEq_left
  calc carry M n = n % (M + 1) + 1 * (n / (M + 1)) := by rw [carry, Nat.one_mul]
    _ ≡ n % (M + 1) + (M + 1) * (n / (M + 1)) [MOD M] := ((hbase.symm).mul_right _).add_left _
    _ = n := Nat.mod_add_div n (M + 1)

theorem carry_eq_zero_iff (n : Nat) : carry M n = 0 ↔ n = 0 := by
  have hsplit := Nat.mod_add_div n (M + 1)
  rw [carry, Nat.add_eq_zero_iff]
  constructor
  · rintro ⟨hlow, hhigh⟩
    rw [hlow, hhigh, Nat.mul_zero] at hsplit
    exact hsplit.symm
  · rintro rfl
    exact ⟨Nat.zero_mod _, Nat.zero_div _⟩

theorem reduce_carry (n : Nat) : reduce M (carry M n) = reduce M n :=
  reduce_congr (carry_modEq n) (carry_eq_zero_iff n)

/-- Carries that are there make the number smaller. -/
theorem carry_lt (hM : 0 < M) {n : Nat} (h : M < n) : carry M n < n := by
  have hsplit := Nat.mod_add_div n (M + 1)
  have hhigh : 0 < n / (M + 1) := Nat.div_pos h (Nat.succ_pos M)
  have hgrow : n / (M + 1) < (M + 1) * (n / (M + 1)) := by
    rw [Nat.add_mul, Nat.one_mul]
    exact Nat.lt_add_of_pos_left (Nat.mul_pos hM hhigh)
  rw [carry]
  omega

end OnesComplement
