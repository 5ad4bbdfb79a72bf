import BuildQueue.Proofs.Json.Reader

/-!
# Blanks in JSON

Blanks between the tokens of a JSON text say nothing: a text that can be read is read as the same
value without them. So two texts that can be read and differ in their blanks alone are read alike.
Blanks within strings are characters like any other.
-/

namespace BuildQueue.Json

/-- A text without its blanks, from within a string or from outside of all. -/
def squeeze : Bool → List Char → List Char
  | _, [] => []
  | true, '\\' :: c :: cs => '\\' :: c :: squeeze true cs
  | true, c :: cs => c :: squeeze (c != '"') cs
  | false, c :: cs => if Token.isBlank c then squeeze false cs else c :: squeeze (c = '"') cs

/-- The text without the blanks between its tokens. -/
def withoutBlanks (cs : List Char) : List Char := squeeze false cs

theorem withoutBlanks_blank {c : Char} (h : Token.isBlank c = true) (cs : List Char) :
    withoutBlanks (c :: cs) = withoutBlanks cs := by
  rw [withoutBlanks, squeeze, if_pos h]
  rfl

theorem withoutBlanks_cons {c : Char} (hblank : Token.isBlank c = false) (hquote : c ≠ '"')
    (cs : List Char) : withoutBlanks (c :: cs) = c :: withoutBlanks cs := by
  rw [withoutBlanks, squeeze, if_neg (by simp [hblank]), decide_eq_false hquote]
  rfl

theorem withoutBlanks_append {cs : List Char}
    (h : ∀ c ∈ cs, Token.isBlank c = false ∧ c ≠ '"') (rest : List Char) :
    withoutBlanks (cs ++ rest) = cs ++ withoutBlanks rest := by
  induction cs with
  | nil => rfl
  | cons c cs ih =>
    obtain ⟨hblank, hquote⟩ := h c List.mem_cons_self
    rw [List.cons_append, withoutBlanks_cons hblank hquote,
      ih fun d hd ↦ h d (List.mem_cons_of_mem c hd), List.cons_append]

/-! ## Strings -/

theorem squeeze_plain {c : Char} (hquote : c ≠ '"') (hbackslash : c ≠ '\\') (cs : List Char) :
    squeeze true (c :: cs) = c :: squeeze true cs := by
  rw [squeeze]
  · rw [bne_iff_ne.2 hquote]
  · rintro _ _ rfl
    exact absurd rfl hbackslash

theorem squeeze_hexadecimal {cs : List Char} {n : Nat} (h : Hexadecimal.value? cs = some n)
    (rest : List Char) : squeeze true (cs ++ rest) = cs ++ squeeze true rest := by
  have hdigits := Hexadecimal.isSome_digit?_of_value? h
  clear h
  induction cs with
  | nil => rfl
  | cons c cs ih =>
    have hc : (Hexadecimal.digit? c).isSome = true := hdigits c List.mem_cons_self
    have hquote : c ≠ '"' := by
      rintro rfl
      cases hc
    have hbackslash : c ≠ '\\' := by
      rintro rfl
      cases hc
    rw [List.cons_append, squeeze_plain hquote hbackslash,
      ih fun d hd ↦ hdigits d (List.mem_cons_of_mem c hd), List.cons_append]

/-- A string keeps its blanks. -/
theorem scanText?_squeeze {cs rest : List Char} {ns : List Nat}
    (h : scanText? cs = some (ns, rest)) :
    scanText? (squeeze true cs) = some (ns, withoutBlanks rest) := by
  fun_induction scanText? cs generalizing ns with
  | case1 => cases h
  | case2 cs =>
    cases h
    rfl
  | case3 a b c d cs ih =>
    simp only [Option.bind_eq_bind, Option.bind_eq_some_iff, Prod.exists, Option.pure_def,
      Option.some.injEq, Prod.mk.injEq] at h
    obtain ⟨n, hn, ms, r, hr, rfl, rfl⟩ := h
    have hdigits := squeeze_hexadecimal hn cs
    simp only [List.cons_append, List.nil_append] at hdigits
    rw [squeeze, hdigits, scanText?, hn, ih hr]
    rfl
  | case4 e cs _ ih =>
    simp only [Option.bind_eq_bind, Option.bind_eq_some_iff, Prod.exists, Option.pure_def,
      Option.some.injEq, Prod.mk.injEq] at h
    obtain ⟨n, hn, ms, r, hr, rfl, rfl⟩ := h
    rw [squeeze, scanText?_escaped hn, ih hr]
    rfl
  | case5 => cases h
  | case6 c cs hquote _ _ hplain ih =>
    simp only [Option.bind_eq_bind, Option.bind_eq_some_iff, Prod.exists, Option.pure_def,
      Option.some.injEq, Prod.mk.injEq] at h
    obtain ⟨ms, r, hr, rfl, rfl⟩ := h
    obtain ⟨hblank, hbackslash⟩ := not_or.1 hplain
    rw [squeeze_plain hquote hbackslash, scanText?_plain hquote hbackslash (Nat.not_lt.1 hblank),
      ih hr]
    rfl

/-! ## First tokens -/

namespace Token

/-- A word or a number. -/
def IsLiteral : Token → Prop
  | .null | .boolean _ | .number _ => True
  | _ => False

theorem not_literal_of_punctuation? {c : Char} {token : Token} (h : punctuation? c = some token) :
    c ≠ '"' ∧ Number.isNumeric c = false ∧ c.isAlpha = false := by
  unfold punctuation? at h
  split at h
  case h_7 => cases h
  all_goals decide

/-- Neither parts of numbers nor letters are blanks or quotes. -/
theorem not_blank_of_literal {p : Char → Bool} (hp : p = Number.isNumeric ∨ p = Char.isAlpha)
    {c : Char} (h : p c = true) : isBlank c = false ∧ c ≠ '"' := by
  constructor
  · rw [Bool.eq_false_iff]
    intro hblank
    simp only [isBlank, Bool.or_eq_true, decide_eq_true_eq] at hblank
    rcases hp with rfl | rfl <;> rcases hblank with ((rfl | rfl) | rfl) | rfl
    all_goals cases h
  · rintro rfl
    rcases hp with rfl | rfl
    all_goals cases h

theorem isLiteral_of_word? {cs : List Char} {token : Token} (h : word? cs = some token) :
    token.IsLiteral := by
  unfold word? at h
  split_ifs at h
  all_goals
    cases h
    trivial

/-- A first token is one character, a string, or a literal that ends where its kind of character
does. -/
theorem first?_cases {c : Char} {cs rest : List Char} {token : Token}
    (h : first? c cs = some (token, rest)) :
    (punctuation? c = some token ∧ rest = cs) ∨
    (c = '"' ∧ ∃ ns, scanText? cs = some (ns, rest) ∧ token = .string (.ofPoints ns)) ∨
    (c ≠ '"' ∧ punctuation? c = none ∧ token.IsLiteral ∧ ∃ p : Char → Bool,
      (p = Number.isNumeric ∨ p = Char.isAlpha) ∧ rest = cs.dropWhile p ∧
      ∀ later : List Char, (∀ d ∈ later.head?, p d = false) →
        first? c (cs.takeWhile p ++ later) = some (token, later)) := by
  have htake (p : Char → Bool) (d : Char) (hd : d ∈ cs.takeWhile p) : p d = true :=
    List.mem_takeWhile_imp hd
  unfold first? at h ⊢
  cases hpunctuation : punctuation? c with
  | some other =>
    simp only [hpunctuation, Option.some.injEq, Prod.mk.injEq] at h
    obtain ⟨rfl, rfl⟩ := h
    exact .inl ⟨rfl, rfl⟩
  | none =>
    simp only [hpunctuation] at h ⊢
    by_cases hquote : c = '"'
    · rw [if_pos hquote] at h
      obtain ⟨⟨ns, rest'⟩, hscan, heq⟩ := Option.map_eq_some_iff.1 h
      cases heq
      exact .inr (.inl ⟨hquote, ns, hscan, rfl⟩)
    · rw [if_neg hquote] at h
      refine .inr (.inr ⟨hquote, trivial, ?_⟩)
      by_cases hnumeric : (Number.isNumeric c && c != 'e' && c != 'E') = true
      · rw [if_pos hnumeric] at h
        obtain ⟨n, hn, heq⟩ := Option.map_eq_some_iff.1 h
        cases heq
        refine ⟨trivial, Number.isNumeric, .inl rfl, rfl, fun later hlater ↦ ?_⟩
        obtain ⟨htaken, hdropped⟩ := takeWhile_append_of_head? (htake _) hlater
        rw [if_neg hquote, if_pos hnumeric, htaken, hdropped, hn]
        rfl
      · rw [if_neg hnumeric] at h
        obtain ⟨word, hword, heq⟩ := Option.map_eq_some_iff.1 h
        cases heq
        refine ⟨isLiteral_of_word? hword, Char.isAlpha, .inr rfl, rfl, fun later hlater ↦ ?_⟩
        obtain ⟨htaken, hdropped⟩ := takeWhile_append_of_head? (htake _) hlater
        rw [if_neg hquote, if_neg hnumeric, htaken, hdropped, hword]
        rfl

end Token

/-! ## Whole texts -/

namespace Reading

/-- A text that can be read on starts with a blank or a token that may come. -/
theorem readOn?_cases {r : Reading} {c : Char} {cs : List Char} {j : Json}
    (h : r.readOn? (c :: cs) = some j) (hblank : Token.isBlank c = false) :
    ∃ token rest r', Token.first? c cs = some (token, rest) ∧ r.next token = some r' ∧
      r'.readOn? rest = some j := by
  cases hfirst : Token.first? c cs with
  | none =>
    rw [readOn?, Token.ofChars?_cons hblank, hfirst] at h
    cases h
  | some first =>
    obtain ⟨token, rest⟩ := first
    rw [r.readOn?_token hblank hfirst] at h
    obtain ⟨r', hnext, hrest⟩ := Option.bind_eq_some_iff.1 h
    exact ⟨token, rest, r', rfl, hnext, hrest⟩

/-- After a value comes a comma or the end of a container. -/
theorem mem_of_proceed {j : Json} {stack : List Frame} {token : Token} {r : Reading}
    (h : proceed j stack token = some r) :
    token = .comma ∨ token = .closeBracket ∨ token = .closeBrace := by
  unfold proceed at h
  split at h
  case h_5 => cases h
  all_goals simp

/-- After a value no word and no number goes on. -/
theorem delimited_of_after {j j' : Json} {stack : List Frame} {cs : List Char}
    (h : (after j stack).readOn? cs = some j') : Delimited (withoutBlanks cs) := by
  induction cs with
  | nil => exact delimited_nil
  | cons c cs ih =>
    cases hblank : Token.isBlank c with
    | true =>
      rw [readOn?_blank _ hblank] at h
      rw [withoutBlanks_blank hblank]
      exact ih h
    | false =>
      obtain ⟨token, rest, r', hfirst, hnext, -⟩ := readOn?_cases h hblank
      have htoken := mem_of_proceed hnext
      rcases Token.first?_cases hfirst with ⟨hc, -⟩ | ⟨-, ns, -, rfl⟩ | ⟨-, -, hliteral, -⟩
      · obtain ⟨hquote, hnumeric, halpha⟩ := Token.not_literal_of_punctuation? hc
        rw [withoutBlanks_cons hblank hquote]
        exact delimited_cons hnumeric halpha _
      · simp at htoken
      · rcases htoken with rfl | rfl | rfl
        all_goals cases hliteral

/-- A literal is followed by what follows a value. -/
theorem next_of_isLiteral {r r' : Reading} {token : Token} (hliteral : token.IsLiteral)
    (h : r.next token = some r') : ∃ j stack, r' = after j stack := by
  have hvalue (stack : List Frame) (h : start stack token = some r') :
      ∃ j stack, r' = after j stack := by
    cases token <;> simp_all [Token.IsLiteral, start]
    all_goals exact ⟨_, _, h.symm⟩
  cases r with
  | value stack => exact hvalue stack h
  | items stack =>
    refine hvalue (.array [] :: stack) ?_
    rw [← h, accepts_items]
    rintro rfl
    cases hliteral
  | after j stack =>
    rcases mem_of_proceed h with rfl | rfl | rfl
    all_goals cases hliteral
  | _ => cases token <;> simp_all [Token.IsLiteral, next]

/-- What is read in the end does not depend on blanks. -/
theorem readOn?_withoutBlanks {r : Reading} {cs : List Char} {j : Json}
    (h : r.readOn? cs = some j) : r.readOn? (withoutBlanks cs) = some j := by
  induction hlength : cs.length using Nat.strongRecOn generalizing r cs with
  | ind n ih =>
    cases cs with
    | nil => exact h
    | cons c cs =>
      rw [List.length_cons] at hlength
      cases hblank : Token.isBlank c with
      | true =>
        rw [readOn?_blank _ hblank] at h
        rw [withoutBlanks_blank hblank]
        exact ih cs.length (by omega) h rfl
      | false =>
        obtain ⟨token, rest, r', hfirst, hnext, hrest⟩ := readOn?_cases h hblank
        have hshorter := Token.length_of_first? hfirst
        have hread : r'.readOn? (withoutBlanks rest) = some j := ih rest.length (by omega) hrest rfl
        have hstep {cs' : List Char}
            (hfirst' : Token.first? c cs' = some (token, withoutBlanks rest)) :
            r.readOn? (c :: cs') = some j := by
          rw [r.readOn?_token hblank hfirst', hnext]
          exact hread
        rcases Token.first?_cases hfirst with
          ⟨hc, rfl⟩ | ⟨rfl, ns, hscan, rfl⟩ | ⟨hquote, -, hliteral, p, hp, rfl, hlater⟩
        · have hquote : c ≠ '"' := by
            rintro rfl
            cases hc
          rw [withoutBlanks_cons hblank hquote]
          exact hstep (Token.first?_punctuation hc _)
        · have hsqueezed : (scanText? (squeeze true cs)).map
              (fun scanned ↦ (Token.string (.ofPoints scanned.1), scanned.2)) =
                some (.string (.ofPoints ns), withoutBlanks rest) := by
            rw [scanText?_squeeze hscan]
            rfl
          exact hstep hsqueezed
        · obtain ⟨k, stack, rfl⟩ := next_of_isLiteral hliteral hnext
          have hdelimited := delimited_of_after hrest
          have hends (d : Char) (hd : d ∈ (withoutBlanks (cs.dropWhile p)).head?) :
              p d = false := by
            obtain ⟨hnumeric, halpha⟩ := hdelimited d hd
            rcases hp with rfl | rfl
            · exact hnumeric
            · exact halpha
          have htaken (d : Char) (hd : d ∈ cs.takeWhile p) : Token.isBlank d = false ∧ d ≠ '"' :=
            Token.not_blank_of_literal hp (List.mem_takeWhile_imp hd)
          have hsqueezed : withoutBlanks cs = cs.takeWhile p ++ withoutBlanks (cs.dropWhile p) := by
            rw [← withoutBlanks_append htaken, List.takeWhile_append_dropWhile]
          rw [withoutBlanks_cons hblank hquote, hsqueezed]
          exact hstep (hlater _ hends)

end Reading

/-- A text that can be read is read as the same value without its blanks. -/
theorem parse?_withoutBlanks {cs : List Char} {j : Json} (h : parse? cs = some j) :
    parse? (withoutBlanks cs) = some j := Reading.readOn?_withoutBlanks h

end BuildQueue.Json
