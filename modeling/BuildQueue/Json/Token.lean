import BuildQueue.Json.Number
import BuildQueue.Json.Text

/-!
# JSON tokens

A JSON text is a row of tokens with blanks between them.
-/

namespace BuildQueue.Json

/-- A token of a JSON text. -/
inductive Token where
  | openBracket
  | closeBracket
  | openBrace
  | closeBrace
  | comma
  | colon
  | null
  | boolean (b : Bool)
  | number (n : Number)
  | string (s : Text)
  deriving DecidableEq, Repr

namespace Token

def isBlank (c : Char) : Bool := c = ' ' || c = '\n' || c = '\r' || c = '\t'

def punctuation? : Char → Option Token
  | '[' => some openBracket
  | ']' => some closeBracket
  | '\x7b' => some openBrace
  | '\x7d' => some closeBrace
  | ',' => some comma
  | ':' => some colon
  | _ => none

/-- A token that is a word. -/
def word? (cs : List Char) : Option Token :=
  if cs = "null".toList then some null
  else if cs = "true".toList then some (boolean true)
  else if cs = "false".toList then some (boolean false)
  else none

/-- The first token of a text that does not start with a blank, and what follows it. -/
def first? (c : Char) (cs : List Char) : Option (Token × List Char) :=
  match punctuation? c with
  | some token => some (token, cs)
  | none =>
    if c = '"' then
      (scanText? cs).map fun (ns, rest) ↦ (string (.ofPoints ns), rest)
    else if Number.isNumeric c && c != 'e' && c != 'E' then
      (Number.ofChars? (c :: cs.takeWhile Number.isNumeric)).map fun n ↦
        (number n, cs.dropWhile Number.isNumeric)
    else
      (word? (c :: cs.takeWhile Char.isAlpha)).map fun token ↦ (token, cs.dropWhile Char.isAlpha)

theorem length_dropWhile_le (p : Char → Bool) (cs : List Char) :
    (cs.dropWhile p).length ≤ cs.length :=
  (List.dropWhile_sublist p).length_le

end Token

theorem length_of_scanText? {cs : List Char} {ns : List Nat} {rest : List Char}
    (h : scanText? cs = some (ns, rest)) : rest.length ≤ cs.length := by
  fun_induction scanText? cs generalizing ns with
  | case1 => simp at h
  | case2 cs => simp_all
  | case3 a b c d cs ih =>
    simp only [Option.bind_eq_bind, Option.bind_eq_some_iff, Prod.exists, Option.pure_def,
      Option.some.injEq, Prod.mk.injEq] at h
    obtain ⟨_, _, ms, r, hr, _, rfl⟩ := h
    have := ih hr
    simp only [List.length_cons]
    omega
  | case4 e cs _ ih =>
    simp only [Option.bind_eq_bind, Option.bind_eq_some_iff, Prod.exists, Option.pure_def,
      Option.some.injEq, Prod.mk.injEq] at h
    obtain ⟨_, _, ms, r, hr, _, rfl⟩ := h
    have := ih hr
    simp only [List.length_cons]
    omega
  | case5 => simp at h
  | case6 c cs _ _ _ _ ih =>
    simp only [Option.bind_eq_bind, Option.bind_eq_some_iff, Prod.exists, Option.pure_def,
      Option.some.injEq, Prod.mk.injEq] at h
    obtain ⟨ms, r, hr, _, rfl⟩ := h
    have := ih hr
    simp only [List.length_cons]
    omega

namespace Token

/-- A token leaves less than the text it starts. -/
theorem length_of_first? {c : Char} {cs : List Char} {token : Token} {rest : List Char}
    (h : first? c cs = some (token, rest)) : rest.length ≤ cs.length := by
  unfold first? at h
  split at h
  · simp_all
  split at h
  · simp only [Option.map_eq_some_iff, Prod.exists, Prod.mk.injEq] at h
    obtain ⟨ns, r, hr, _, rfl⟩ := h
    exact length_of_scanText? hr
  split at h
  · simp only [Option.map_eq_some_iff, Prod.mk.injEq] at h
    obtain ⟨_, _, _, rfl⟩ := h
    exact length_dropWhile_le _ cs
  · simp only [Option.map_eq_some_iff, Prod.mk.injEq] at h
    obtain ⟨_, _, _, rfl⟩ := h
    exact length_dropWhile_le _ cs

/-- The tokens of a text. -/
def ofChars? : List Char → Option (List Token)
  | [] => some []
  | c :: cs =>
    if isBlank c then ofChars? cs
    else
      match _h : first? c cs with
      | none => none
      | some (token, rest) => (ofChars? rest).map (token :: ·)
termination_by cs => cs.length
decreasing_by
  · simp
  · have := length_of_first? ‹_›
    simp only [List.length_cons]
    omega

end Token

end BuildQueue.Json
