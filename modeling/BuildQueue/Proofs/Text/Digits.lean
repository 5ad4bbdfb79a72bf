import BuildQueue.Text.Decimal
import BuildQueue.Text.Hexadecimal
import Mathlib.Algebra.Order.Ring.Nat
import Mathlib.Data.List.Basic

/-!
# Digits read back

A number that is written in digits is read back from them, be they just as many as it needs, padded
with zeros, or of a fixed number.
-/

namespace BuildQueue

/-! ## Decimal digits -/

namespace Decimal

theorem digit?_of_isDigit {c : Char} (h : c.isDigit = true) :
    digit? c = some (c.toNat - '0'.toNat) := if_pos h

theorem value_eq_ofDigitChars {cs : List Char} (h : ∀ c ∈ cs, c.isDigit = true) :
    value cs = Nat.ofDigitChars 10 cs 0 := by
  refine List.foldl_ext _ _ 0 fun n c hc ↦ ?_
  rw [digit?_of_isDigit (h c hc)]
  rfl

theorem isDigit_of_mem_ofNat {n : Nat} {c : Char} (h : c ∈ ofNat n) : c.isDigit = true :=
  Nat.isDigit_of_mem_toDigits (by decide) (by decide) h

@[simp] theorem value_ofNat (n : Nat) : value (ofNat n) = n := by
  rw [value_eq_ofDigitChars fun _ ↦ isDigit_of_mem_ofNat]
  exact Nat.ofDigitChars_ten_toDigits

theorem ofNat_ne_nil (n : Nat) : ofNat n ≠ [] := Nat.toDigits_ne_nil

theorem ofInt_ne_nil (n : Int) : ofInt n ≠ [] := by
  unfold ofInt
  split
  · exact List.cons_ne_nil _ _
  · exact ofNat_ne_nil _

/-- Only zero starts with the digit zero. -/
theorem eq_zero_of_ofNat {n : Nat} {cs : List Char} (h : ofNat n = '0' :: cs) : n = 0 := by
  induction n using Nat.strongRecOn generalizing cs with
  | ind n ih =>
    unfold ofNat at h
    by_cases hlt : n < 10
    · rw [Nat.toDigits_of_lt_base hlt] at h
      exact Nat.digitChar_eq_zero.1 (List.cons.inj h).1
    · rw [Nat.toDigits_of_base_le (by decide) (Nat.not_lt.1 hlt)] at h
      obtain ⟨c, high, hhigh⟩ := List.exists_cons_of_ne_nil (ofNat_ne_nil (n / 10))
      unfold ofNat at hhigh
      rw [hhigh, List.cons_append] at h
      obtain ⟨rfl, -⟩ := List.cons.inj h
      have hzero : n / 10 = 0 := ih (n / 10) (by omega) hhigh
      omega

theorem isDigit_of_mem_padded {width n : Nat} {c : Char} (h : c ∈ padded width n) :
    c.isDigit = true := by
  rcases List.mem_append.1 h with hzero | hdigit
  · rw [List.eq_of_mem_replicate hzero]
    decide
  · exact isDigit_of_mem_ofNat hdigit

@[simp] theorem value_padded (width n : Nat) : value (padded width n) = n := by
  rw [value_eq_ofDigitChars fun _ ↦ isDigit_of_mem_padded, padded, Nat.ofDigitChars_append,
    Nat.ofDigitChars_replicate_zero, Nat.mul_zero, Nat.ofDigitChars_ten_toDigits]

theorem padded_ne_nil (width n : Nat) : padded width n ≠ [] :=
  List.append_ne_nil_of_right_ne_nil _ (ofNat_ne_nil n)

theorem length_padded {width n : Nat} (hwidth : 0 < width) (h : n < 10 ^ width) :
    (padded width n).length = width := by
  have hle := (Nat.length_toDigits_le_iff (b := 10) (by decide) hwidth).2 h
  rw [padded, List.length_append, List.length_replicate, Nat.sub_add_cancel hle]

theorem isDigit_of_mem_fixed {width n : Nat} {c : Char} (h : c ∈ fixed width n) :
    c.isDigit = true := by
  induction width generalizing n with
  | zero => cases h
  | succ width ih =>
    rcases List.mem_append.1 h with hhigh | hlow
    · exact ih hhigh
    · rw [List.mem_singleton.1 hlow, Nat.isDigit_digitChar]
      exact decide_eq_true (Nat.mod_lt n (by decide))

/-- Digits of a fixed number keep a number that fits. -/
theorem value_fixed {width n : Nat} (h : n < 10 ^ width) : value (fixed width n) = n := by
  have hvalue : ∀ width n, n < 10 ^ width → Nat.ofDigitChars 10 (fixed width n) 0 = n := by
    intro width
    induction width with
    | zero =>
      intro n hn
      exact (Nat.lt_one_iff.1 hn).symm
    | succ width ih =>
      intro n hn
      have hhigh : n / 10 < 10 ^ width := Nat.div_lt_of_lt_mul (by omega)
      rw [fixed, Nat.ofDigitChars_append, ih _ hhigh,
        Nat.ofDigitChars_cons_digitChar_of_lt_ten (Nat.mod_lt n (by decide)), Nat.ofDigitChars_nil]
      exact Nat.div_add_mod n 10
  rw [value_eq_ofDigitChars fun _ ↦ isDigit_of_mem_fixed, hvalue width n h]

end Decimal

/-! ## Hexadecimal digits -/

namespace Hexadecimal

theorem digit?_digitChar {d : Nat} (h : d < 16) : digit? d.digitChar = some d := by
  have hall : ∀ d < 16, digit? d.digitChar = some d := by decide
  exact hall d h

theorem isSome_digit?_of_value? {cs : List Char} {n : Nat} (h : value? cs = some n) :
    ∀ c ∈ cs, (digit? c).isSome = true := by
  unfold value? at h
  generalize 0 = start at h
  induction cs generalizing start with
  | nil => simp
  | cons c cs ih =>
    rw [List.foldlM_cons, Option.bind_eq_bind, Option.bind_eq_some_iff] at h
    obtain ⟨m, hm, hcs⟩ := h
    obtain ⟨d, hd, -⟩ := Option.map_eq_some_iff.1 hm
    intro c' hc'
    rcases List.mem_cons.1 hc' with rfl | hc'
    · rw [hd]
      rfl
    · exact ih m hcs c' hc'

/-- Two digits after two zeros give a number that fits in them. -/
theorem value?_pair {n : Nat} (h : n < 256) : value? (['0', '0'] ++ pair n) = some n := by
  have hhigh : digit? (n / 16 % 16).digitChar = some (n / 16 % 16) :=
    digit?_digitChar (Nat.mod_lt _ (by decide))
  have hlow : digit? (n % 16).digitChar = some (n % 16) :=
    digit?_digitChar (Nat.mod_lt _ (by decide))
  have hzero : digit? '0' = some 0 := by decide
  simp only [value?, pair, List.cons_append, List.nil_append, List.foldlM_cons, List.foldlM_nil,
    hzero, hhigh, hlow, Option.map_some, Option.bind_eq_bind, Option.bind_some, Option.pure_def,
    Option.some.injEq]
  omega

end Hexadecimal

end BuildQueue
