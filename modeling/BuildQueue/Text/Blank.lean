/-!
# Blanks

The characters that separate words: spaces within a line, and line breaks.
-/

namespace BuildQueue

/-- A space within a line. -/
def isSpace (c : Char) : Bool :=
  c = '\t' || c = ' ' || c = '\u00a0' || c = '\u1680' || ('\u2000' ≤ c && c ≤ '\u200a') ||
    c = '\u202f' || c = '\u205f' || c = '\u3000'

def isLineBreak (c : Char) : Bool :=
  ('\n' ≤ c && c ≤ '\r') || c = '\u0085' || c = '\u2028' || c = '\u2029'

def isBlank (c : Char) : Bool := isSpace c || isLineBreak c

end BuildQueue
