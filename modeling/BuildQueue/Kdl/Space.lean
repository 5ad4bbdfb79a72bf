import BuildQueue.Text.Blank
import BuildQueue.Text.Reader

/-!
# Space in KDL

What may stand between the words of a document: spaces, comments, line breaks, and backslashes that
continue a line.
-/

namespace BuildQueue.Kdl

/-- A line break; a carriage return and a line feed together are one. -/
def lineBreak : Reader Unit :=
  Reader.literal ['\r', '\n'] <|> discard (Reader.satisfy isLineBreak)

/-- A comment to the end of the line. -/
def lineComment : Reader Unit := do
  Reader.literal ['/', '/']
  Reader.skipWhile fun c ↦ !isLineBreak c
  lineBreak <|> Reader.atEnd

/-- The rest of a block comment inside so many others. -/
def skipBlock : Nat → Reader Unit
  | _, [] => none
  | 0, '*' :: '/' :: cs => some ((), cs)
  | depth + 1, '*' :: '/' :: cs => skipBlock depth cs
  | depth, '/' :: '*' :: cs => skipBlock (depth + 1) cs
  | depth, _ :: cs => skipBlock depth cs

/-- A comment that may stand within a line. -/
def blockComment : Reader Unit := do
  Reader.literal ['/', '*']
  skipBlock 0

/-- A space or a block comment. -/
def space : Reader Unit := discard (Reader.satisfy isSpace) <|> blockComment

/-- A backslash that continues the line after the break. -/
def continuation : Reader Unit := do
  Reader.char '\\'
  let _ ← Reader.many space
  lineComment <|> lineBreak <|> Reader.atEnd

/-- Space between the words of a node, if any. -/
def gap : Reader Unit := discard (Reader.many (space <|> continuation))

/-- Space between the words of a node, which has to be there. -/
def gapNeeded : Reader Unit := do
  space <|> continuation
  gap

/-- Space between nodes. -/
def lineSpace : Reader Unit :=
  discard (Reader.many (space <|> continuation <|> lineBreak <|> lineComment))

/-- The mark that comments out what follows. -/
def slashdash : Reader Unit := do
  Reader.literal ['/', '-']
  lineSpace

end BuildQueue.Kdl
