import BuildQueue.Kdl.Space
import BuildQueue.Text.Hexadecimal

/-!
# KDL strings

A string is a bare word, stands between quotes, or stands between quotes and hashes, where nothing
is an escape. After three quotes and a line break it has many lines: the blanks before the closing
quotes are taken off every line, and lines of blanks only are empty.
-/

namespace BuildQueue.Kdl

/-- A character that must not stand in a document as it is. -/
def isForbidden (c : Char) : Bool :=
  c.toNat ≤ 0x08 || (0x0E ≤ c.toNat && c.toNat ≤ 0x1F) || c = '\x7f' ||
    c = '\u200e' || c = '\u200f' || ('\u202a' ≤ c && c ≤ '\u202e') ||
    ('\u2066' ≤ c && c ≤ '\u2069') || c = '\ufeff'

/-! ## Bare words -/

def isWordChar (c : Char) : Bool :=
  !isBlank c && !isForbidden c &&
    c ∉ ['\\', '/', '(', ')', '\x7b', '\x7d', ';', '[', ']', '"', '#', '=']

/-- Words that start like a number are no strings. -/
def startsLikeNumber : List Char → Bool
  | '+' :: '.' :: c :: _ => c.isDigit
  | '-' :: '.' :: c :: _ => c.isDigit
  | '+' :: c :: _ => c.isDigit
  | '-' :: c :: _ => c.isDigit
  | '.' :: c :: _ => c.isDigit
  | c :: _ => c.isDigit
  | [] => true

/-- Words that are reserved for the values written with a hash. -/
def reserved : List String := ["true", "false", "null", "inf", "nan"]

def bareWord : Reader String := do
  let word ← Reader.takeWhile isWordChar
  if startsLikeNumber word || String.ofList word ∈ reserved then failure
  return String.ofList word

/-! ## Characters between quotes -/

/-- A character of a string. A blank counts as such only where it is written as itself. -/
inductive Piece where
  | plain (c : Char)
  | escaped (c : Char)
  | lineBreak
  deriving DecidableEq

namespace Piece

def toChar : Piece → Char
  | plain c => c
  | escaped c => c
  | lineBreak => '\n'

def isSpace : Piece → Bool
  | plain c => BuildQueue.isSpace c
  | _ => false

end Piece

/-- What an escape of one character stands for. -/
def escaped? : Char → Option Char
  | '"' => some '"'
  | '\\' => some '\\'
  | 'b' => some '\x08'
  | 'f' => some '\x0c'
  | 'n' => some '\n'
  | 'r' => some '\r'
  | 't' => some '\t'
  | 's' => some ' '
  | _ => none

/-- A character by its number, of one to six hexadecimal digits. -/
def codePoint : Reader Char := do
  Reader.literal ['u', '\x7b']
  let ds ← Reader.some? (fun c ↦ (Hexadecimal.digit? c).isSome) 6
  Reader.char '\x7d'
  match Hexadecimal.value? ds with
  | none => failure
  | some n => if n.isValidChar then return Char.ofNat n else failure

/-- What follows the backslash of an escape; one before blanks removes them. -/
def escape : Reader (List Piece) := do
  match ← Reader.optional? codePoint with
  | some c => return [.escaped c]
  | none =>
    let c ← Reader.satisfy fun c ↦ (escaped? c).isSome || isBlank c
    match escaped? c with
    | some c => return [.escaped c]
    | none =>
      Reader.skipWhile isBlank
      return []

/-- One character written as itself; a line break only in a string of many lines. -/
def plainPiece (manyLines : Bool) : Reader Piece := fun cs ↦
  match lineBreak cs with
  | some (_, rest) => if manyLines then some (.lineBreak, rest) else none
  | none => (Reader.satisfy (fun c ↦ !isForbidden c) cs).map fun (c, rest) ↦ (.plain c, rest)

/-- One character of a string, or an escape. -/
def quotedPiece (manyLines : Bool) : Reader (List Piece) := do
  match ← Reader.peek? with
  | some '\\' => do Reader.char '\\'; escape
  | _ => return [← plainPiece manyLines]

/-- Pieces up to the closing mark. -/
def piecesUntil (close : List Char) (piece : Reader (List Piece)) : Nat → Reader (List Piece)
  | 0 => failure
  | fuel + 1 =>
    (do Reader.literal close; return []) <|> do
      let first ← piece
      return first ++ (← piecesUntil close piece fuel)

/-- Pieces up to the closing mark; each takes something of the text. -/
def pieces (close : List Char) (piece : Reader (List Piece)) : Reader (List Piece) := fun cs ↦
  piecesUntil close piece (cs.length + 1) cs

/-! ## Many lines -/

/-- The lines of a string; there is always at least one. -/
def splitLines : List Piece → List (List Piece)
  | [] => [[]]
  | .lineBreak :: ps => [] :: splitLines ps
  | p :: ps =>
    match splitLines ps with
    | line :: lines => (p :: line) :: lines
    | [] => [[p]]

/-- A line without the margin; one of blanks only is empty. -/
def dedentLine (margin line : List Piece) : Option (List Piece) :=
  if line.all Piece.isSpace then some []
  else if margin.isPrefixOf line then some (line.drop margin.length)
  else none

/-- The text of many lines; the last one is blank and is the margin of all. -/
def dedent (ps : List Piece) : Option (List Char) := do
  let lines := splitLines ps
  let margin := lines.getLast?.getD []
  if margin.all Piece.isSpace then
    let texts ← lines.dropLast.mapM (dedentLine margin)
    return (['\n'] : List Char).intercalate (texts.map (·.map Piece.toChar))
  else none

/-! ## Strings -/

/-- The rest of a string after its opening quote and the hashes before it. -/
def quotedRest (hashes : List Char) (piece : Bool → Reader (List Piece)) : Reader String := do
  match ← Reader.optional? (do Reader.literal ['"', '"']; lineBreak) with
  | some _ =>
    let ps ← pieces ('"' :: '"' :: '"' :: hashes) (piece true)
    match dedent ps with
    | some cs => return String.ofList cs
    | none => failure
  | none =>
    let ps ← pieces ('"' :: hashes) (piece false)
    return String.ofList (ps.map Piece.toChar)

def quoted : Reader String := do
  Reader.char '"'
  quotedRest [] quotedPiece

def raw : Reader String := do
  let hashes ← Reader.takeWhile (· = '#')
  if hashes.isEmpty then failure
  Reader.char '"'
  quotedRest hashes fun manyLines ↦ do return [← plainPiece manyLines]

def string : Reader String := quoted <|> raw <|> bareWord

end BuildQueue.Kdl
