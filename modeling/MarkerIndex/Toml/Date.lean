/-!
Dates and times. A value may hold a date, a time, or both, and with both an offset from universal
time; seconds may be left out. The year has four digits and the other parts two.
-/

namespace MarkerIndex.Toml

/-- Why a text is no date: the part that is wrong, and what was expected. -/
structure DateProblem where
  part : Option String
  expected : Option String
  deriving DecidableEq

namespace DateProblem

def message (p : DateProblem) : String :=
  "invalid " ++ p.part.getD "datetime" ++ ((p.expected.map (", expected " ++ ·)).getD "")

end DateProblem

/-- A token of a date: a run of digits, or one other character. -/
inductive DateToken
  | digits (run : List Char)
  | mark (c : Char)
  deriving DecidableEq

namespace DateToken

def ofChars : Nat → List Char → List DateToken
  | 0, _ => []
  | _ + 1, [] => []
  | fuel + 1, c :: rest =>
    if c.isDigit then
      let more := rest.takeWhile Char.isDigit
      digits (c :: more) :: ofChars fuel (rest.drop more.length)
    else mark c :: ofChars fuel rest

end DateToken

namespace Date

abbrev Reader (α : Type) := List DateToken → Except DateProblem (α × List DateToken)

/-- Reads a run of digits. -/
def number (part : Option String) (expected : String) : Reader (List Char)
  | .digits run :: rest => .ok (run, rest)
  | _ => .error ⟨part, some expected⟩

/-- Reads one of some characters. -/
def mark (choices : List Char) (part : Option String) (expected : String) : Reader Unit
  | .mark c :: rest => if choices.contains c then .ok ((), rest) else .error ⟨part, some expected⟩
  | _ => .error ⟨part, some expected⟩

def digitCount (part : String) (run : List Char) (count : Nat) (expected : String) :
    Except DateProblem Unit :=
  if run.length = count then .ok () else .error ⟨some part, some ("a " ++ expected)⟩

def value (run : List Char) : Nat :=
  run.foldl (fun n c => 10 * n + (c.toNat - '0'.toNat)) 0

def twoDigits (n : Nat) : String :=
  (if n < 10 then "0" else "") ++ toString n

/-- Checks that a number lies between two others. -/
def within (part what : String) (low high n : Nat) : Except DateProblem Unit :=
  if low ≤ n ∧ n ≤ high then .ok ()
  else
    .error ⟨some part, some (what ++ " between " ++ twoDigits low ++ " and " ++ twoDigits high)⟩

def isLeapYear (year : Nat) : Bool :=
  year % 4 = 0 && (year % 100 ≠ 0 || year % 400 = 0)

def daysIn (year month : Nat) : Nat :=
  if month = 2 then (if isLeapYear year then 29 else 28)
  else if [4, 6, 9, 11].contains month then 30
  else 31

/-- Reads the rest of a date behind the hyphen that follows the year. -/
def monthAndDay (year : List Char) : Reader Unit := fun ts => do
  let part := "date"
  let (month, ts) ← number (some part) "month" ts
  let ((), ts) ← mark ['-'] (some part) "`-` (MM-DD)" ts
  let (day, ts) ← number (some part) "day" ts
  digitCount part year 4 "four-digit year (YYYY)"
  digitCount part month 2 "two-digit month (MM)"
  digitCount part day 2 "two-digit day (DD)"
  within part "month" 1 12 (value month)
  within part "day" 1 (daysIn (value year) (value month)) (value day)
  return ((), ts)

/-- Reads what a mark announces, if it is there. -/
def behind (c : Char) (part expected : String) : Reader (Option (List Char)) := fun ts =>
  match ts with
  | .mark first :: rest =>
    if first = c then do
      let (run, rest) ← number (some part) expected rest
      return (some run, rest)
    else .ok (none, ts)
  | _ => .ok (none, ts)

/-- Reads a time. -/
def time : Reader Unit := fun ts => do
  let part := "time"
  let (hour, ts) ← number (some part) "hour" ts
  let ((), ts) ← mark [':'] (some part) "`:` (HH:MM)" ts
  let (minute, ts) ← number (some part) "minute" ts
  let (second, ts) ← behind ':' part "second" ts
  let (_, ts) ← if second.isSome then behind '.' part "nanosecond" ts else .ok (none, ts)
  digitCount part hour 2 "two-digit hour (HH)"
  digitCount part minute 2 "two-digit minute (MM)"
  if let some second := second then digitCount part second 2 "two-digit second (SS)"
  within part "hour" 0 23 (value hour)
  within part "minute" 0 59 (value minute)
  if let some second := second then within part "second" 0 60 (value second)
  return ((), ts)

/-- Reads an offset from universal time, if anything follows. -/
def offset : Reader Unit := fun ts =>
  let part := "offset"
  match ts with
  | [] => .ok ((), [])
  | .mark c :: rest =>
    if c = 'Z' || c = 'z' then .ok ((), rest)
    else if c = '+' || c = '-' then do
      let (hours, rest) ← number (some part) "hour" rest
      let ((), rest) ← mark [':'] (some part) "`:` (HH:MM)" rest
      let (minutes, rest) ← number (some part) "minute" rest
      digitCount part hours 2 "two-digit hour (HH)"
      digitCount part minutes 2 "two-digit minute (MM)"
      within part "hours" 0 23 (value hours)
      within part "minutes" 0 59 (value minutes)
      return ((), rest)
    else .error ⟨some part, some "`Z`, +OFFSET, -OFFSET"⟩
  | _ => .error ⟨some part, some "`Z`, +OFFSET, -OFFSET"⟩

/-- Reads a date with all that may follow it, behind the hyphen after the year. -/
def fromMonth (year : List Char) : Reader Unit := fun ts => do
  let ((), ts) ← monthAndDay year ts
  if ts.isEmpty then return ((), [])
  let ((), ts) ← mark ['T', 't', ' '] (some "date-time") "`T` between date and time" ts
  let ((), ts) ← time ts
  offset ts

/-- Checks that a text is a date, a time, or both. -/
def check (cs : List Char) : Except DateProblem Unit := do
  let ts := DateToken.ofChars cs.length cs
  let (first, rest) ← number none "year or hour" ts
  let ((), left) ← match rest with
    | .mark '-' :: rest => fromMonth first rest
    | .mark ':' :: _ => time ts
    | _ => .error ⟨none, some "`-` (YYYY-MM) or `:` (HH:MM)"⟩
  if left.isEmpty then return else .error ⟨none, none⟩

end Date

end MarkerIndex.Toml
