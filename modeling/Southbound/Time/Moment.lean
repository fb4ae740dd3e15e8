import Southbound.Text.Blank

/-!
# Moments

A `Moment` is a date of the Gregorian calendar, carried on in both directions,
with a second of its day and nanoseconds, in universal time.  A leap second is
the last second of a minute with its nanoseconds counted on beyond a second.

`Moment.ofText?` reads the date and time of RFC 3339 with any offset from
universal time, and `Moment.display` writes it with the fewest of zero, three,
six or nine digits of a fraction that are exact.  The reader is generous: blanks
may stand before every number and sign, numbers may have fewer digits, the year
may have a sign and then more digits, a space may stand for the `T`, and `UTC`
for the `Z`.
-/

namespace Southbound

/-! ## Dates -/

/-- Whether a year has a 29th of February. -/
def isLeapYear (year : Int) : Bool :=
  year % 4 = 0 ∧ (year % 100 ≠ 0 ∨ year % 400 = 0)

/-- How many days a month has. -/
def monthLength (year : Int) (month : Nat) : Nat :=
  if month = 2 then (if isLeapYear year then 29 else 28)
  else if month = 4 ∨ month = 6 ∨ month = 9 ∨ month = 11 then 30
  else 31

theorem one_le_monthLength (year : Int) (month : Nat) : 1 ≤ monthLength year month := by
  unfold monthLength
  repeat' split
  all_goals omega

/-- A day of the calendar. -/
structure Date where
  /-- The year; the year before year one is zero. -/
  year : Int
  month : Nat
  /-- The day of the month, from one. -/
  day : Nat
  month_mem : 1 ≤ month ∧ month ≤ 12
  /-- There is such a day in it. -/
  day_mem : 1 ≤ day ∧ day ≤ monthLength year month
deriving DecidableEq, Repr

/-- The day with the given numbers, if there is one. -/
def Date.of? (year : Int) (month day : Nat) : Option Date :=
  if hm : 1 ≤ month ∧ month ≤ 12 then
    if hd : 1 ≤ day ∧ day ≤ monthLength year month then some ⟨year, month, day, hm, hd⟩
    else none
  else none

def Date.next (d : Date) : Date :=
  if h : d.day < monthLength d.year d.month then
    { d with day := d.day + 1, day_mem := ⟨by omega, h⟩ }
  else if h : d.month < 12 then
    ⟨d.year, d.month + 1, 1, ⟨by omega, h⟩, Nat.le_refl _, one_le_monthLength ..⟩
  else ⟨d.year + 1, 1, 1, by decide, Nat.le_refl _, one_le_monthLength ..⟩

def Date.previous (d : Date) : Date :=
  if h : 1 < d.day then
    { d with day := d.day - 1, day_mem := ⟨by omega, by have := d.day_mem; omega⟩ }
  else if h : 1 < d.month then
    ⟨d.year, d.month - 1, monthLength d.year (d.month - 1),
      ⟨by omega, by have := d.month_mem; omega⟩, one_le_monthLength .., Nat.le_refl _⟩
  else ⟨d.year - 1, 12, 31, by decide, by decide, Nat.le_refl _⟩

/-- Whether a day lies in the years that can be written. -/
def Date.inRange (d : Date) : Bool := -262143 ≤ d.year ∧ d.year ≤ 262142

/-! ## Moments -/

/-- A moment, to the nanosecond. -/
structure Moment where
  date : Date
  second : Nat
  nano : Nat
  second_lt : second < 86400
  /-- A leap second lasts for one more second. -/
  nano_lt : nano < 2000000000
  /-- Only the last second of a minute has a leap second after it. -/
  leap : 1000000000 ≤ nano → second % 60 = 59
deriving DecidableEq, Repr

/-- The moment of a local time, for an offset in minutes from universal time
that is shorter than a day. -/
def Moment.ofLocal (date : Date) (second nano : Nat) (offset : Int)
    (hs : second < 86400) (hn : nano < 2000000000)
    (hl : 1000000000 ≤ nano → second % 60 = 59)
    (ho : -1440 < offset ∧ offset < 1440) : Moment :=
  let shifted : Int := second - 60 * offset
  if h₁ : shifted < 0 then
    ⟨date.previous, (shifted + 86400).toNat, nano, by omega, hn,
      fun h => by have := hl h; omega⟩
  else if h₂ : 86400 ≤ shifted then
    ⟨date.next, (shifted - 86400).toNat, nano, by omega, hn,
      fun h => by have := hl h; omega⟩
  else ⟨date, shifted.toNat, nano, by omega, hn, fun h => by have := hl h; omega⟩

/-! ## Their texts -/

/-- A number with at least `width` decimal digits. -/
def padded (width n : Nat) : String :=
  let ds := Nat.toDigits 10 n
  String.ofList (List.replicate (width - ds.length) '0' ++ ds)

/-- A year: four digits, or a sign and four digits or more. -/
def displayYear (year : Int) : String :=
  if 0 ≤ year ∧ year ≤ 9999 then padded 4 year.toNat
  else (if year < 0 then "-" else "+") ++ padded 4 year.natAbs

/-- A fraction of a second in the fewest groups of three digits. -/
def displayFraction (nano : Nat) : String :=
  if nano = 0 then ""
  else if nano % 1000000 = 0 then "." ++ padded 3 (nano / 1000000)
  else if nano % 1000 = 0 then "." ++ padded 6 (nano / 1000)
  else "." ++ padded 9 nano

def Moment.display (m : Moment) : String :=
  let leap := 1000000000 ≤ m.nano
  displayYear m.date.year ++ "-" ++ padded 2 m.date.month ++ "-" ++ padded 2 m.date.day ++ "T" ++
    padded 2 (m.second / 3600) ++ ":" ++ padded 2 (m.second / 60 % 60) ++ ":" ++
    padded 2 (m.second % 60 + if leap then 1 else 0) ++
    displayFraction (if leap then m.nano - 1000000000 else m.nano) ++ "Z"

/-! ## Reading -/

/-- One decimal digit or more, but no more than `width` of them, and what
follows. -/
def takeNumber (width : Nat) (cs : List Char) : Option (Nat × List Char) :=
  match (cs.take width).takeWhile Char.isDigit with
  | [] => none
  | ds => some (Nat.ofDigitChars 10 ds 0, cs.drop ds.length)

/-- Blanks, then a number of two digits at most. -/
def takeSmall (cs : List Char) : Option (Nat × List Char) := takeNumber 2 (skipBlanks cs)

def takeYear (cs : List Char) : Option (Int × List Char) :=
  match skipBlanks cs with
  | '-' :: cs => (takeNumber cs.length cs).map fun r => (-(r.1 : Int), r.2)
  | '+' :: cs => (takeNumber cs.length cs).map fun r => ((r.1 : Int), r.2)
  | cs => (takeNumber 4 cs).map fun r => ((r.1 : Int), r.2)

def takeMark (mark : Char) (cs : List Char) : Option (List Char) :=
  match skipBlanks cs with
  | c :: cs => if c = mark then some cs else none
  | [] => none

/-- The nanoseconds that the digits of a fraction write.  Digits after the
ninth are passed over. -/
def takeFraction : List Char → Option (Nat × List Char)
  | '.' :: cs =>
    match cs.takeWhile Char.isDigit with
    | [] => none
    | ds =>
      let nine := ds.take 9
      some (Nat.ofDigitChars 10 nine 0 * Nat.pow 10 (9 - nine.length), cs.dropWhile Char.isDigit)
  | cs => some (0, cs)

def takeTwoDigits : List Char → Option (Nat × List Char)
  | a :: b :: cs =>
    if a.isDigit && b.isDigit then some (Nat.ofDigitChars 10 [a, b] 0, cs) else none
  | _ => none

/-- The hours and minutes of an offset, in minutes, with colons or blanks
between them. -/
def takeHoursMinutes (cs : List Char) : Option (Nat × List Char) := do
  let (hours, cs) ← takeTwoDigits cs
  let (minutes, cs) ← takeTwoDigits (cs.dropWhile fun c => c = ':' || isBlankChar c)
  if minutes < 60 then return (60 * hours + minutes, cs) else none

/-- An offset from universal time, in minutes. -/
def takeOffset : List Char → Option (Int × List Char)
  | [] => none
  | c :: cs =>
    if c = 'Z' || c = 'z' then some (0, cs)
    else if c = '+' then (takeHoursMinutes cs).map fun r => ((r.1 : Int), r.2)
    else if c = '-' || c = '−' then (takeHoursMinutes cs).map fun r => (-(r.1 : Int), r.2)
    else if ((c :: cs).take 3).map Char.toLower = ['u', 't', 'c'] then some (0, cs.drop 2)
    else none

def Moment.ofText? (s : String) : Option Moment := do
  let (year, cs) ← takeYear s.toList
  let (month, cs) ← takeSmall (← takeMark '-' cs)
  let (day, cs) ← takeSmall (← takeMark '-' cs)
  let cs ← match cs with
    | c :: cs => if c = 'T' || c = 't' || c = ' ' then some cs else none
    | [] => none
  let (hour, cs) ← takeSmall cs
  let (minute, cs) ← takeSmall (← takeMark ':' cs)
  let (second, cs) ← takeSmall (← takeMark ':' cs)
  let (fraction, cs) ← takeFraction cs
  let (offset, cs) ← takeOffset (skipBlanks cs)
  guard ((skipBlanks cs).isEmpty)
  let date ← Date.of? year month day
  guard date.inRange
  let second' := 3600 * hour + 60 * minute + min second 59
  let nano := fraction + if second = 60 then 1000000000 else 0
  if h : hour < 24 ∧ minute < 60 ∧ second ≤ 60 ∧ fraction < 1000000000 ∧
      -1440 < offset ∧ offset < 1440 then
    let m := Moment.ofLocal date second' nano offset (by omega) (by simp only [nano]; split <;> omega)
      (fun hn => by
        have : second = 60 := by simp only [nano] at hn; split at hn <;> omega
        omega)
      (by omega)
    if m.date.inRange then return m else none
  else none

example : (Moment.ofText? "2000-03-01T00:00:00+00:01").map Moment.display =
    some "2000-02-29T23:59:00Z" := by decide +kernel

example : (Moment.ofText? "1969-12-31 23:59:60.50Z").map Moment.display =
    some "1969-12-31T23:59:60.500Z" := by decide +kernel

end Southbound
