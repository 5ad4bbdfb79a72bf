import BuildQueue.Proofs.Text.Digits
import BuildQueue.Proofs.Text.Reader
import BuildQueue.Proofs.Time.Calendar
import BuildQueue.Time.Rfc3339

/-!
# Instants read back

Every instant is read back from its RFC 3339 form, from the earliest to the latest and to the
nanosecond.
-/

namespace BuildQueue.Rfc3339

open Reader (bind_of_some peek?_eq)

variable {cs rest : List Char}

/-! ## Fields -/

/-- A digit is no blank. -/
theorem isBlank_of_isDigit {c : Char} (h : c.isDigit = true) : isBlank c = false := by
  have hrange : 48 ≤ c.toNat ∧ c.toNat ≤ 57 := by
    simp only [Char.isDigit, Bool.and_eq_true, decide_eq_true_eq] at h
    exact h
  have hall : ∀ n, 48 ≤ n → n ≤ 57 → isBlank (Char.ofNat n) = false := by
    intro n hlow hhigh
    interval_cases n <;> rfl
  rw [← Char.ofNat_toNat c]
  exact hall _ hrange.1 hrange.2

theorem skipBlanks_cons {c : Char} (h : isBlank c = false) :
    skipBlanks (c :: cs) = some ((), c :: cs) :=
  Reader.skipWhile_of_head? (by simpa using h)

theorem skipBlanks_of_isDigit (hne : cs ≠ []) (h : ∀ c ∈ cs, c.isDigit = true) :
    skipBlanks (cs ++ rest) = some ((), cs ++ rest) := by
  refine Reader.skipWhile_of_head? fun c hc ↦ isBlank_of_isDigit (h c ?_)
  rw [List.head?_append_of_ne_nil _ hne] at hc
  exact List.mem_of_head? hc

/-- A number as wide as it may be is read back. -/
theorem number_append {width : Nat} (hne : cs ≠ []) (hdigits : ∀ c ∈ cs, c.isDigit = true)
    (hwidth : cs.length = width) :
    number width (cs ++ rest) = some (Decimal.value cs, rest) := by
  unfold number
  rw [bind_of_some (skipBlanks_of_isDigit hne hdigits),
    bind_of_some (Reader.some?_append hne hdigits hwidth.le (.inl hwidth))]
  rfl

theorem number_fixed {n : Nat} (h : n < 100) :
    number 2 (Decimal.fixed 2 n ++ rest) = some (n, rest) := by
  have hne : Decimal.fixed 2 n ≠ [] :=
    List.append_ne_nil_of_right_ne_nil _ (List.cons_ne_nil _ _)
  rw [number_append hne (fun _ ↦ Decimal.isDigit_of_mem_fixed) (Decimal.length_fixed 2 n),
    Decimal.value_fixed h]

theorem longNumber_padded {width n : Nat} (hrest : ∀ c ∈ rest.head?, c.isDigit = false) :
    longNumber (Decimal.padded width n ++ rest) = some (n, rest) := by
  have hdigits : ∀ c ∈ Decimal.padded width n, c.isDigit = true :=
    fun _ ↦ Decimal.isDigit_of_mem_padded
  unfold longNumber
  rw [bind_of_some (Reader.takeWhile_append hdigits hrest)]
  refine (congrFun (g := (pure n : Reader Nat)) ?_ rest).trans rfl
  split
  next hnil => exact absurd hnil (Decimal.padded_ne_nil width n)
  next => rw [Decimal.value_padded]

theorem separator_cons {c : Char} (h : isBlank c = false) :
    separator c (c :: cs) = some ((), cs) := by
  unfold separator
  rw [bind_of_some (skipBlanks_cons h), Reader.char_cons]

/-! ## Dates -/

theorem year_minus (n : Nat) (hrest : ∀ c ∈ rest.head?, c.isDigit = false) :
    year ('-' :: (Decimal.padded 4 n ++ rest)) = some (-(n : Int), rest) := by
  unfold year
  rw [bind_of_some (skipBlanks_cons (by decide)), bind_of_some (peek?_eq _)]
  change (Reader.char '-' >>= _) _ = _
  rw [bind_of_some (Reader.char_cons '-'), bind_of_some (longNumber_padded hrest)]
  rfl

theorem year_plus (n : Nat) (hrest : ∀ c ∈ rest.head?, c.isDigit = false) :
    year ('+' :: (Decimal.padded 4 n ++ rest)) = some ((n : Int), rest) := by
  unfold year
  rw [bind_of_some (skipBlanks_cons (by decide)), bind_of_some (peek?_eq _)]
  change (Reader.char '+' >>= _) _ = _
  rw [bind_of_some (Reader.char_cons '+'), bind_of_some (longNumber_padded hrest)]
  rfl

/-- Four digits have no sign before them. -/
theorem year_padded {n : Nat} (h : n < 10000) :
    year (Decimal.padded 4 n ++ rest) = some ((n : Int), rest) := by
  have hne := Decimal.padded_ne_nil 4 n
  have hdigits : ∀ c ∈ Decimal.padded 4 n, c.isDigit = true :=
    fun _ ↦ Decimal.isDigit_of_mem_padded
  have hwidth : (Decimal.padded 4 n).length = 4 := Decimal.length_padded (by decide) h
  unfold year
  rw [bind_of_some (skipBlanks_of_isDigit hne hdigits), bind_of_some (peek?_eq _),
    List.head?_append_of_ne_nil _ hne]
  -- The sign is looked for before anything is taken, so the reader is settled first.
  refine (congrFun (g := (do return (← number 4 : Nat) : Reader Int)) ?_ _).trans ?_
  · split
    next hminus => exact absurd (hdigits _ (List.mem_of_head? hminus)) (by decide)
    next hplus => exact absurd (hdigits _ (List.mem_of_head? hplus)) (by decide)
    next => rfl
  · rw [bind_of_some (number_append hne hdigits hwidth), Decimal.value_padded]
    rfl

theorem year_writeYear (y : Int) (hrest : ∀ c ∈ rest.head?, c.isDigit = false) :
    year (writeYear y ++ rest) = some (y, rest) := by
  unfold writeYear
  by_cases hneg : y < 0
  · have hback : -(y.natAbs : Int) = y := by omega
    rw [if_pos hneg, List.cons_append, year_minus _ hrest, hback]
  · have hback : (y.natAbs : Int) = y := by omega
    rw [if_neg hneg]
    by_cases hlong : 9999 < y
    · rw [if_pos hlong, List.cons_append, year_plus _ hrest, hback]
    · rw [if_neg hlong, year_padded (by omega), hback]

theorem date_writeDate {d : Date} (h : d.isValid = true) :
    date (writeDate d ++ rest) = some (d, rest) := by
  have hmonth : d.month < 100 ∧ d.day < 100 := by
    unfold Date.isValid Date.daysInMonth at h
    simp only [Bool.and_eq_true, decide_eq_true_eq] at h
    split at h <;> split at h <;> omega
  unfold date writeDate
  simp only [List.append_assoc, List.cons_append]
  rw [bind_of_some (year_writeYear d.year (by simp)), bind_of_some (separator_cons (by decide)),
    bind_of_some (number_fixed hmonth.1), bind_of_some (separator_cons (by decide)),
    bind_of_some (number_fixed hmonth.2)]
  rfl

/-! ## Times of day -/

/-- Digits after a point are read back if nothing is lost of the number. -/
theorem fraction_fixed {width scaled nanos : Nat} (hwidth : width ≠ 0) (hle : width ≤ 9)
    (hscaled : scaled < 10 ^ width) (hnanos : scaled * 10 ^ (9 - width) = nanos)
    (hrest : ∀ c ∈ rest.head?, c.isDigit = false) :
    fraction ('.' :: Decimal.fixed width scaled ++ rest) = some (nanos, rest) := by
  have hlength := Decimal.length_fixed width scaled
  have hne : Decimal.fixed width scaled ≠ [] := by
    intro hnil
    rw [hnil] at hlength
    exact hwidth hlength.symm
  have hdigits : ∀ c ∈ Decimal.fixed width scaled, c.isDigit = true :=
    fun _ ↦ Decimal.isDigit_of_mem_fixed
  unfold fraction
  rw [List.cons_append, bind_of_some (peek?_eq _)]
  change (Reader.char '.' >>= _) _ = _
  rw [bind_of_some (Reader.char_cons '.'),
    bind_of_some (Reader.some?_append hne hdigits (hlength.trans_le hle) (.inr hrest)),
    bind_of_some (Reader.skipWhile_of_head? hrest), Decimal.value_fixed hscaled, hlength]
  exact congrArg (fun n ↦ some (n, rest)) hnanos

theorem fraction_writeFraction {nanos : Nat} (h : nanos < 1000000000)
    (hrest : ∀ c ∈ rest.head?, c.isDigit = false ∧ c ≠ '.') :
    fraction (writeFraction nanos ++ rest) = some (nanos, rest) := by
  have hend : ∀ c ∈ rest.head?, c.isDigit = false := fun c hc ↦ (hrest c hc).1
  unfold writeFraction
  split
  next hzero =>
    unfold fraction
    rw [List.nil_append, bind_of_some (peek?_eq _), hzero]
    refine (congrFun (g := (pure 0 : Reader Nat)) ?_ rest).trans rfl
    split
    next hpoint => exact absurd rfl (hrest _ hpoint).2
    next => rfl
  next =>
    split
    next => exact fraction_fixed (by decide) (by decide) (by omega) (by omega) hend
    next =>
      split
      next => exact fraction_fixed (by decide) (by decide) (by omega) (by omega) hend
      next => exact fraction_fixed (by decide) (by decide) (by omega) (by omega) hend

theorem time_write {second nanos : Nat} (hsecond : second < 86400) (hnanos : nanos < 1000000000)
    (hrest : ∀ c ∈ rest.head?, c.isDigit = false ∧ c ≠ '.') :
    time (writeTime second ++ (writeFraction nanos ++ rest)) =
      some (second * nanosPerSecond + nanos, rest) := by
  have hhour : second / 3600 < 100 := by omega
  have hminute : second / 60 % 60 < 100 := by omega
  have hlow : second % 60 < 100 := by omega
  have hfields : second / 3600 < 24 ∧ second / 60 % 60 < 60 ∧ second % 60 < 60 := by omega
  unfold time writeTime
  simp only [List.append_assoc, List.cons_append]
  rw [bind_of_some (number_fixed hhour), bind_of_some (separator_cons (by decide)),
    bind_of_some (number_fixed hminute), bind_of_some (separator_cons (by decide)),
    bind_of_some (number_fixed hlow), bind_of_some (fraction_writeFraction hnanos hrest),
    if_pos hfields]
  have htotal : second / 3600 * 3600 + second / 60 % 60 * 60 + second % 60 = second := by omega
  rw [htotal]
  rfl

theorem offset_utc : offset ['Z'] = some (0, []) := by
  rfl

/-! ## Instants -/

theorem stamp_write {d : Date} (h : d.isValid = true) {second nanos : Nat}
    (hsecond : second < 86400) (hnanos : nanos < 1000000000) :
    stamp (writeDate d ++ 'T' :: writeTime second ++ writeFraction nanos ++ ['Z']) =
      some ((d, second * nanosPerSecond + nanos, 0), []) := by
  have hend : skipBlanks [] = some ((), []) := rfl
  unfold stamp
  simp only [List.append_assoc, List.cons_append]
  rw [bind_of_some (date_writeDate h), bind_of_some (Reader.satisfy_cons (by decide)),
    bind_of_some (time_write hsecond hnanos (by simp)), bind_of_some offset_utc, bind_of_some hend]
  rfl

/-- Every instant is read back from its written form. -/
theorem parse?_write (t : Instant) : parse? (write t) = some t := by
  obtain ⟨nanos, hlowest, hhighest⟩ := t
  obtain ⟨seconds, hseconds⟩ : ∃ seconds, nanos / 1000000000 = seconds := ⟨_, rfl⟩
  have hvalid := Date.isValid_ofDays (seconds / 86400)
  have hyear : isRepresentedYear (Date.ofDays (seconds / 86400)).year = true := by
    have hlow : -96465292 ≤ seconds / 86400 := by omega
    have hhigh : seconds / 86400 ≤ 95026236 := by omega
    obtain ⟨hfirst, hlast⟩ := Date.year_ofDays hlow hhigh
    unfold isRepresentedYear
    simp [hfirst, hlast]
  have hsecond : (seconds % 86400).toNat < 86400 := by omega
  have hnanos : (nanos % 1000000000).toNat < 1000000000 := by omega
  have htotal : ((seconds / 86400) * 86400 - 0) * 1000000000 +
      ((seconds % 86400).toNat * 1000000000 + (nanos % 1000000000).toNat : Nat) = nanos := by
    omega
  have hback : Instant.ofNanos? nanos = some ⟨nanos, hlowest, hhighest⟩ :=
    dif_pos ⟨hlowest, hhighest⟩
  have hread : stamp.parse? (write ⟨nanos, hlowest, hhighest⟩) =
      some (Date.ofDays (seconds / 86400),
        (seconds % 86400).toNat * 1000000000 + (nanos % 1000000000).toNat, 0) := by
    unfold Reader.parse? write Instant.seconds Instant.subsecond secondsPerDay
    rw [hseconds, stamp_write hvalid hsecond hnanos]
    rfl
  unfold parse?
  rw [hread]
  simp only [Option.bind_eq_bind, Option.bind_some, hvalid, hyear, Bool.and_self, if_true,
    Date.toDays_ofDays]
  unfold secondsPerDay nanosPerSecond
  rw [← hback]
  exact congrArg Instant.ofNanos? htotal

end BuildQueue.Rfc3339
