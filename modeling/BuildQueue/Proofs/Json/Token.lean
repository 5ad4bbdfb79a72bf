import BuildQueue.Json.Token
import BuildQueue.Json.Writer
import BuildQueue.Proofs.Text.Digits
import BuildQueue.Proofs.Text.Reader
import Mathlib.Tactic.SplitIfs

/-!
# JSON tokens read back

A string is read back from its escaped form, whatever characters it has, and an integer from its
digits. A token that is a word or a number ends where no letter and no part of a number follows.
-/

namespace BuildQueue.Json

/-! ## Strings -/

/-- Half of a surrogate pair is no character. -/
theorem not_surrogate (c : Char) :
    isHighSurrogate c.toNat = false ∧ isLowSurrogate c.toNat = false := by
  have hvalid : c.toNat < 0xD800 ∨ 0xDFFF < c.toNat ∧ c.toNat < 0x110000 := c.valid
  unfold isHighSurrogate isLowSurrogate
  simp only [Bool.and_eq_false_iff, decide_eq_false_iff_not]
  omega

theorem charsOfPoints?_cons (c : Char) (points : List Nat) :
    charsOfPoints? (c.toNat :: points) = (charsOfPoints? points).map (c :: ·) := by
  obtain ⟨hhigh, hlow⟩ := not_surrogate c
  cases points with
  | nil => simp [charsOfPoints?, hhigh, hlow]
  | cons point points => simp [charsOfPoints?, hhigh, hlow]

/-- Characters are read back from their code points. -/
theorem charsOfPoints?_map_toNat (cs : List Char) :
    charsOfPoints? (cs.map Char.toNat) = some cs := by
  induction cs with
  | nil => rfl
  | cons c cs ih =>
    rw [List.map_cons, charsOfPoints?_cons, ih]
    rfl

theorem Text.ofPoints_map_toNat (s : String) :
    Text.ofPoints (s.toList.map Char.toNat) = some s := by
  rw [ofPoints, charsOfPoints?_map_toNat, Option.map_some, String.ofList_toList]

theorem scanText?_escaped {e : Char} {n : Nat} (h : escaped? e = some n) (cs : List Char) :
    scanText? ('\\' :: e :: cs) = (scanText? cs).map fun (ns, rest) ↦ (n :: ns, rest) := by
  have hu : e ≠ 'u' := by
    rintro rfl
    cases h
  rw [scanText?]
  · rw [h]
    cases scanText? cs <;> rfl
  · rintro a b c d cs rfl
    exact absurd rfl hu

theorem scanText?_plain {c : Char} (hquote : c ≠ '"') (hbackslash : c ≠ '\\')
    (hblank : 0x20 ≤ c.toNat) (cs : List Char) :
    scanText? (c :: cs) = (scanText? cs).map fun (ns, rest) ↦ (c.toNat :: ns, rest) := by
  rw [scanText?]
  · rw [if_neg (not_or.2 ⟨Nat.not_lt.2 hblank, hbackslash⟩)]
    cases scanText? cs <;> rfl
  · exact hquote
  · rintro _ _ _ _ _ rfl
    exact absurd rfl hbackslash
  · rintro _ _ rfl
    exact absurd rfl hbackslash

theorem scanText?_unicode {n : Nat} (h : n < 256) (cs : List Char) :
    scanText? (['\\', 'u', '0', '0'] ++ Hexadecimal.pair n ++ cs) =
      (scanText? cs).map fun (ns, rest) ↦ (n :: ns, rest) := by
  have hvalue : Hexadecimal.value? ['0', '0', Nat.digitChar (n / 16 % 16), Nat.digitChar (n % 16)] =
      some n := Hexadecimal.value?_pair h
  simp only [Hexadecimal.pair, List.cons_append, List.nil_append, scanText?, hvalue]
  cases scanText? cs <;> rfl

/-- A character is read back from what stands for it in a string. -/
theorem scanText?_writeChar (c : Char) (cs : List Char) :
    scanText? (writeChar c ++ cs) = (scanText? cs).map fun (ns, rest) ↦ (c.toNat :: ns, rest) := by
  unfold writeChar
  -- Seven characters have an escape of their own.
  iterate 7
    split
    next h =>
      rw [h]
      exact scanText?_escaped rfl cs
  split
  next h => exact scanText?_unicode (by omega) cs
  next hquote hbackslash _ _ _ _ _ hblank =>
    exact scanText?_plain hquote hbackslash (Nat.not_lt.1 hblank) cs

theorem scanText?_flatMap (cs rest : List Char) :
    scanText? (cs.flatMap writeChar ++ '"' :: rest) = some (cs.map Char.toNat, rest) := by
  induction cs with
  | nil => rfl
  | cons c cs ih =>
    rw [List.flatMap_cons, List.append_assoc, scanText?_writeChar, ih]
    rfl

/-! ## Numbers -/

namespace Number

theorem mem_ofInt {n : Int} {c : Char} (h : c ∈ Decimal.ofInt n) : c = '-' ∨ c.isDigit = true := by
  unfold Decimal.ofInt at h
  split at h
  · exact (List.mem_cons.1 h).imp_right Decimal.isDigit_of_mem_ofNat
  · exact .inr (Decimal.isDigit_of_mem_ofNat h)

/-- The digits of an integer and its sign are parts of numbers, and no exponent marks. -/
theorem isNumeric_of_mem_ofInt {n : Int} {c : Char} (h : c ∈ Decimal.ofInt n) :
    isNumeric c = true ∧ c ≠ 'e' ∧ c ≠ 'E' := by
  rcases mem_ofInt h with rfl | hdigit
  · decide
  · refine ⟨?_, ?_, ?_⟩
    · unfold isNumeric
      rw [hdigit]
      rfl
    · rintro rfl
      cases hdigit
    · rintro rfl
      cases hdigit

theorem digits?_of_isDigit {cs : List Char} (hne : cs ≠ []) (h : ∀ c ∈ cs, c.isDigit = true) :
    digits? cs = some (cs, []) := by
  have htake : cs.takeWhile Char.isDigit = cs := List.takeWhile_eq_self_iff.2 h
  have hdrop : cs.dropWhile Char.isDigit = [] := List.dropWhile_eq_nil_iff.2 h
  unfold digits?
  rw [htake, hdrop]
  cases cs with
  | nil => exact absurd rfl hne
  | cons c cs => rfl

theorem whole?_ofNat (n : Nat) : whole? (Decimal.ofNat n) = some (Decimal.ofNat n, []) := by
  have hdigits : digits? (Decimal.ofNat n) = some (Decimal.ofNat n, []) :=
    digits?_of_isDigit (Decimal.ofNat_ne_nil n) fun _ ↦ Decimal.isDigit_of_mem_ofNat
  unfold whole?
  split
  next cs hzero =>
    obtain rfl := Decimal.eq_zero_of_ofNat hzero
    obtain rfl : [] = cs := (List.cons.inj hzero).2
    rfl
  next => exact hdigits

theorem magnitude?_ofNat (negative : Bool) (n : Nat) :
    magnitude? negative (Decimal.ofNat n) =
      some {
        negative
        whole := Decimal.ofNat n
        fraction := []
        exponent := 0
        pointed := false } := by
  simp [magnitude?, whole?_ofNat, fraction?, exponent?]

/-- An integer is read back from its digits. -/
theorem ofChars?_ofInt (n : Int) : ofChars? (Decimal.ofInt n) = some (.integer n) := by
  unfold Decimal.ofInt ofChars?
  split
  next hneg =>
    have hne : n.natAbs ≠ 0 := by omega
    have hn : n = -(n.natAbs : Int) := by omega
    generalize n.natAbs = m at *
    simp [parts?, magnitude?_ofNat, hne, hn]
  next hnonneg =>
    have hn : (n.natAbs : Int) = n := by omega
    have hparts : parts? (Decimal.ofNat n.natAbs) = magnitude? false (Decimal.ofNat n.natAbs) := by
      unfold parts?
      split
      next cs hminus =>
        have hdigit : '-'.isDigit = true :=
          Decimal.isDigit_of_mem_ofNat (n := n.natAbs) (by simp [hminus])
        cases hdigit
      next => rfl
    simp [hparts, magnitude?_ofNat, hn]

end Number

/-! ## First tokens -/

/-- Neither a word nor a number goes on here. -/
def Delimited (rest : List Char) : Prop :=
  ∀ c ∈ rest.head?, Number.isNumeric c = false ∧ c.isAlpha = false

theorem delimited_nil : Delimited [] := by
  intro c hc
  cases hc

theorem delimited_cons {c : Char} (hnumeric : Number.isNumeric c = false)
    (halpha : c.isAlpha = false) (rest : List Char) : Delimited (c :: rest) := by
  intro d hd
  obtain rfl : c = d := by simpa using hd
  exact ⟨hnumeric, halpha⟩

namespace Token

theorem first?_punctuation {c : Char} {token : Token} (h : punctuation? c = some token)
    (cs : List Char) : first? c cs = some (token, cs) := by
  unfold first?
  rw [h]

theorem first?_string (s : String) (rest : List Char) :
    first? '"' (s.toList.flatMap writeChar ++ '"' :: rest) = some (.string (some s), rest) := by
  have hscan : (scanText? (s.toList.flatMap writeChar ++ '"' :: rest)).map
      (fun (ns, rest) ↦ (string (.ofPoints ns), rest)) = some (.string (some s), rest) := by
    rw [scanText?_flatMap, ← Text.ofPoints_map_toNat]
    rfl
  exact hscan

theorem punctuation?_of_isNumeric {c : Char} (h : Number.isNumeric c = true) :
    punctuation? c = none ∧ c ≠ '"' ∧ isBlank c = false := by
  refine ⟨?_, ?_, ?_⟩
  · unfold punctuation?
    split
    case h_7 => rfl
    all_goals cases h
  · rintro rfl
    cases h
  · rw [Bool.eq_false_iff]
    intro hblank
    simp only [isBlank, Bool.or_eq_true, decide_eq_true_eq] at hblank
    rcases hblank with ((rfl | rfl) | rfl) | rfl
    all_goals cases h

/-- An integer is the first token of its digits and whatever is delimited from them. -/
theorem first?_integer {n : Int} {c : Char} {cs : List Char} (h : Decimal.ofInt n = c :: cs)
    {rest : List Char} (hrest : Delimited rest) :
    isBlank c = false ∧ first? c (cs ++ rest) = some (.number (.integer n), rest) := by
  have hnumeric (d : Char) (hd : d ∈ c :: cs) : Number.isNumeric d = true :=
    (Number.isNumeric_of_mem_ofInt (h ▸ hd)).1
  obtain ⟨hpunctuation, hquote, hblank⟩ :=
    punctuation?_of_isNumeric (hnumeric c List.mem_cons_self)
  have hexponent : c ≠ 'e' ∧ c ≠ 'E' :=
    (Number.isNumeric_of_mem_ofInt (n := n) (h ▸ List.mem_cons_self)).2
  obtain ⟨htake, hdrop⟩ := takeWhile_append_of_head?
    (fun d hd ↦ hnumeric d (List.mem_cons_of_mem c hd)) fun d hd ↦ (hrest d hd).1
  refine ⟨hblank, ?_⟩
  unfold first?
  rw [hpunctuation, htake, hdrop, ← h, Number.ofChars?_ofInt]
  simp [hquote, hexponent, hnumeric c List.mem_cons_self]

theorem first?_word {c : Char} {cs : List Char} {token : Token} (h : word? (c :: cs) = some token)
    {rest : List Char} (hrest : Delimited rest) :
    isBlank c = false ∧ first? c (cs ++ rest) = some (token, rest) := by
  have hword : c :: cs ∈ ["null".toList, "true".toList, "false".toList] := by
    unfold word? at h
    split_ifs at h with hnull htrue hfalse
    · simp [hnull]
    · simp [htrue]
    · simp [hfalse]
  have hfirst (halpha : cs.all Char.isAlpha = true) (hc : punctuation? c = none ∧ c ≠ '"' ∧
      Number.isNumeric c = false ∧ isBlank c = false) :
      isBlank c = false ∧ first? c (cs ++ rest) = some (token, rest) := by
    obtain ⟨hpunctuation, hquote, hnumeric, hblank⟩ := hc
    obtain ⟨htake, hdrop⟩ := takeWhile_append_of_head? (List.all_eq_true.1 halpha)
      fun d hd ↦ (hrest d hd).2
    refine ⟨hblank, ?_⟩
    unfold first?
    rw [hpunctuation, htake, hdrop, h]
    simp [hquote, hnumeric]
  simp only [List.mem_cons, List.not_mem_nil, or_false] at hword
  rcases hword with hword | hword | hword
  all_goals
    obtain ⟨rfl, rfl⟩ := List.cons.inj hword
    exact hfirst rfl (by decide)

end Token

end BuildQueue.Json
