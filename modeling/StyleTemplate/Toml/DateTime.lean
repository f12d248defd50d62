/-
  **Dates and times.**

  A date-time has a date, a time of day, or both, and with both there may be an
  offset from universal time.  It is written in one canonical form: `T` between
  date and time, a fraction of a second without zeros at its end, and `Z` for
  universal time.
-/
import StyleTemplate.Number.Digits
import StyleTemplate.Toml.Reader

namespace StyleTemplate.Toml

/-! ### Data -/

structure Date where
  year : Nat
  month : Nat
  day : Nat
deriving DecidableEq, Repr

structure Time where
  hour : Nat
  minute : Nat
  second : Nat
  nanosecond : Nat
deriving DecidableEq, Repr

inductive Offset where
  | universal
  /-- So many minutes ahead of universal time, or behind it if negative. -/
  | minutes (ahead : Int)
deriving DecidableEq, Repr

inductive DateTime where
  | date (date : Date)
  | time (time : Time)
  | both (date : Date) (time : Time) (offset? : Option Offset)
deriving DecidableEq, Repr

/-! ### Writing -/

/-- A number with zeros in front, up to a width. -/
def padded (width n : Nat) : String :=
  let digits := Nat.toDigits 10 n
  String.ofList (List.replicate (width - digits.length) '0' ++ digits)

def Date.text (d : Date) : String :=
  padded 4 d.year ++ "-" ++ padded 2 d.month ++ "-" ++ padded 2 d.day

def Time.text (t : Time) : String :=
  let fraction := (padded 9 t.nanosecond).toList.reverse.dropWhile (· == '0')
  padded 2 t.hour ++ ":" ++ padded 2 t.minute ++ ":" ++ padded 2 t.second ++
    (if t.nanosecond = 0 then "" else "." ++ String.ofList fraction.reverse)

def Offset.text : Offset → String
  | universal => "Z"
  | minutes ahead =>
    let size := ahead.natAbs
    (if ahead < 0 then "-" else "+") ++ padded 2 (size / 60) ++ ":" ++ padded 2 (size % 60)

def DateTime.text : DateTime → String
  | date d => d.text
  | time t => t.text
  | both d t offset? => d.text ++ "T" ++ t.text ++ (offset?.map Offset.text).getD ""

/-! ### Reading -/

def daysOfMonth (year month : Nat) : Nat :=
  if month = 2 then
    if year % 4 = 0 ∧ (year % 100 ≠ 0 ∨ year % 400 = 0) then 29 else 28
  else if month = 4 ∨ month = 6 ∨ month = 9 ∨ month = 11 then 30
  else 31

namespace Reader

/-- A number of a given count of digits. -/
def number (count : Nat) : Reader Nat :=
  ofDigits 10 <$> digits count

def date : Reader Date := do
  let year ← number 4
  skip '-'
  let month ← number 2
  check (1 ≤ month && month ≤ 12)
  skip '-'
  let day ← number 2
  check (1 ≤ day && day ≤ daysOfMonth year month)
  return { year, month, day }

/-- The hour and the minute of a time of day or of an offset. -/
def hourAndMinute : Reader (Nat × Nat) := do
  let hour ← number 2
  check (hour ≤ 23)
  skip ':'
  let minute ← number 2
  check (minute ≤ 59)
  return (hour, minute)

/-- A fraction of a second in nanoseconds; what lies beyond them is cut off. -/
def fraction : Reader Nat := do
  skip '.'
  let places ← run Char.isDigit
  check (!places.isEmpty)
  return ofDigits 10 ((places ++ List.replicate 9 '0').take 9)

def time : Reader Time := do
  let (hour, minute) ← hourAndMinute
  skip ':'
  let second ← number 2
  check (second ≤ 60)
  let nanosecond := (← attempt fraction).getD 0
  return { hour, minute, second, nanosecond }

def offset : Reader Offset := do
  if ← accepts (symbol fun c => c == 'Z' || c == 'z') then
    return .universal
  else
    let sign ← symbol fun c => c == '+' || c == '-'
    let (hour, minute) ← hourAndMinute
    let size : Int := hour * 60 + minute
    return .minutes (if sign == '-' then -size else size)

/-- A time behind a date, with the symbol between them. -/
def timeOfDate : Reader (Time × Option Offset) := do
  discard (symbol fun c => c == 'T' || c == 't' || c == ' ')
  return (← time, ← attempt offset)

def dateTime : Reader DateTime := do
  match ← attempt date with
  | some d =>
    match ← attempt timeOfDate with
    | some (t, offset?) => return .both d t offset?
    | none => return .date d
  | none => return .time (← time)

end Reader

def DateTime.ofText? (text : String) : Option DateTime :=
  (Reader.dateTime text.toList).bind fun (dateTime, rest) =>
    if rest.isEmpty then some dateTime else none

end StyleTemplate.Toml
