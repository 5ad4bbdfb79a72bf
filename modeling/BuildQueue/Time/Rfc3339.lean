import BuildQueue.Text.Blank
import BuildQueue.Text.Decimal
import BuildQueue.Text.Reader
import BuildQueue.Time.Calendar
import BuildQueue.Time.Instant

/-!
# RFC 3339

An instant is written in UTC, with as many fractional digits as it needs in groups of three. Years
outside four digits have a sign. Reading is more lenient: fields may lack their leading zero, blanks
may stand before fields and signs, and any offset may be given.
-/

namespace BuildQueue

/-- Seconds in a day. -/
def secondsPerDay : Int := 86400

namespace Rfc3339

/-! ## Writing -/

def writeYear (year : Int) : List Char :=
  if year < 0 then '-' :: Decimal.padded 4 year.natAbs
  else if 9999 < year then '+' :: Decimal.padded 4 year.natAbs
  else Decimal.padded 4 year.natAbs

/-- The fewest groups of three digits that give the fraction exactly. -/
def writeFraction (nanos : Nat) : List Char :=
  if nanos = 0 then []
  else if nanos % 1000000 = 0 then '.' :: Decimal.fixed 3 (nanos / 1000000)
  else if nanos % 1000 = 0 then '.' :: Decimal.fixed 6 (nanos / 1000)
  else '.' :: Decimal.fixed 9 nanos

def writeDate (d : Date) : List Char :=
  writeYear d.year ++ '-' :: Decimal.fixed 2 d.month ++ '-' :: Decimal.fixed 2 d.day

def writeTime (second : Nat) : List Char :=
  Decimal.fixed 2 (second / 3600) ++ ':' :: Decimal.fixed 2 (second / 60 % 60) ++
    ':' :: Decimal.fixed 2 (second % 60)

def write (t : Instant) : List Char :=
  writeDate (Date.ofDays (t.seconds / secondsPerDay)) ++
    'T' :: writeTime (t.seconds % secondsPerDay).toNat ++ writeFraction t.subsecond ++ ['Z']

/-! ## Reading -/

def skipBlanks : Reader Unit := Reader.skipWhile isBlank

/-- A number of at most so many digits, with blanks before it. -/
def number (width : Nat) : Reader Nat := do
  skipBlanks
  return Decimal.value (← Reader.some? Char.isDigit width)

/-- A number of any length. -/
def longNumber : Reader Nat := do
  match ← Reader.takeWhile Char.isDigit with
  | [] => failure
  | ds => return Decimal.value ds

/-- A year of up to four digits, or one of any length after a sign. -/
def year : Reader Int := do
  skipBlanks
  match ← Reader.peek? with
  | some '-' => do Reader.char '-'; return -(← longNumber : Nat)
  | some '+' => do Reader.char '+'; return (← longNumber : Nat)
  | _ => return (← number 4 : Nat)

/-- A separator with blanks before it. -/
def separator (c : Char) : Reader Unit := do
  skipBlanks
  Reader.char c

def date : Reader Date := do
  let year ← year
  separator '-'
  let month ← number 2
  separator '-'
  let day ← number 2
  return { year, month, day }

/-- Digits after a point; those beyond nine are cut off. -/
def fraction : Reader Nat := do
  match ← Reader.peek? with
  | some '.' =>
    Reader.char '.'
    let ds ← Reader.some? Char.isDigit 9
    Reader.skipWhile Char.isDigit
    return Decimal.value ds * Nat.pow 10 (9 - ds.length)
  | _ => return 0

/-- The time of day in nanoseconds. -/
def time : Reader Nat := do
  let hour ← number 2
  separator ':'
  let minute ← number 2
  separator ':'
  let second ← number 2
  let nanos ← fraction
  if hour < 24 ∧ minute < 60 ∧ second < 60 then
    return (hour * 3600 + minute * 60 + second) * nanosPerSecond + nanos
  else failure

/-- Two digits that must be there. -/
def twoDigits : Reader Nat := do
  let a ← Reader.satisfy Char.isDigit
  let b ← Reader.satisfy Char.isDigit
  return Decimal.value [a, b]

/-- The offset from UTC in seconds. -/
def numericOffset : Reader Int := do
  let sign ← Reader.satisfy fun c ↦ c = '+' || c = '-' || c = '\u2212'
  let hours ← twoDigits
  Reader.skipWhile fun c ↦ c = ':' || isBlank c
  let minutes ← twoDigits
  if hours < 24 ∧ minutes < 60 then
    let seconds := (hours * 3600 + minutes * 60 : Nat)
    return if sign = '+' then seconds else -seconds
  else failure

/-- Takes a word in either case. -/
def word : List Char → Reader Unit
  | [] => pure ()
  | c :: cs => do
    let _ ← Reader.satisfy (·.toLower = c)
    word cs

def offset : Reader Int := do
  skipBlanks
  (do word ['u', 't', 'c']; return 0) <|> (do word ['z']; return 0) <|> numericOffset

/-- A local date and time with its offset. -/
def stamp : Reader (Date × Nat × Int) := do
  let date ← date
  let _ ← Reader.satisfy fun c ↦ c = 't' || c = 'T' || c = ' '
  let time ← time
  let offset ← offset
  skipBlanks
  return (date, time, offset)

/-- The first and the last year whose days are represented. -/
def isRepresentedYear (year : Int) : Bool := -262143 ≤ year && year ≤ 262142

def parse? (cs : List Char) : Option Instant := do
  let (date, time, offset) ← stamp.parse? cs
  if date.isValid && isRepresentedYear date.year then
    Instant.ofNanos? ((date.toDays * secondsPerDay - offset) * nanosPerSecond + time)
  else none

end Rfc3339

end BuildQueue
