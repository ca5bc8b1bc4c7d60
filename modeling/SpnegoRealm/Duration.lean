import SpnegoRealm.Text.Blank

/-! # Spans of time and their text

A span is whole seconds below two to the sixty-fourth and nanoseconds below one thousand
million. Its text is a sequence of numbers with units, added up: `1h 30m`, `250ms`, `1.5 s`.
Blanks may stand anywhere outside a unit, even between the digits of a number. A fraction has
to come out exact: in whole nanoseconds for minutes and shorter units, in whole seconds for
longer ones. Every intermediate amount has to fit in sixty-four bits.
-/

namespace SpnegoRealm

/-- A span of time. -/
structure Duration where
  seconds : Nat
  nanoseconds : Nat
  deriving DecidableEq, Repr, Inhabited

namespace Duration

/-- A span of whole seconds. -/
def ofSeconds (seconds : Nat) : Duration := ⟨seconds, 0⟩

/-- The empty span. -/
def zero : Duration := ofSeconds 0

/-- The least number of milliseconds that is not shorter than a span. -/
def milliseconds (span : Duration) : Nat :=
  span.seconds * 1000 + (span.nanoseconds + 999999) / 1000000

/-- The first amount that does not fit in sixty-four bits. -/
def wordLimit : Nat := UInt64.size

/-- An amount that fits in sixty-four bits. -/
def word? (amount : Nat) : Option Nat :=
  if amount < wordLimit then some amount else none

/-- A unit is a number of nanoseconds, for the units up to a minute, or of seconds. -/
inductive UnitOfTime where
  | nanosecond
  | microsecond
  | millisecond
  | second
  | minute
  | hour
  | day
  | week
  | month
  | year
  deriving DecidableEq, Repr

/-- The unit that a word names. Case matters: `m` is a minute and `M` a month. -/
def UnitOfTime.ofName? (name : String) : Option UnitOfTime :=
  if ["nanos", "nsec", "ns"].contains name then some .nanosecond
  else if ["usec", "us", "µs"].contains name then some .microsecond
  else if ["millis", "msec", "ms"].contains name then some .millisecond
  else if ["seconds", "second", "secs", "sec", "s"].contains name then some .second
  else if ["minutes", "minute", "min", "mins", "m"].contains name then some .minute
  else if ["hours", "hour", "hrs", "hr", "h"].contains name then some .hour
  else if ["days", "day", "d"].contains name then some .day
  else if ["weeks", "week", "wks", "wk", "w"].contains name then some .week
  else if ["months", "month", "M"].contains name then some .month
  else if ["years", "year", "yrs", "yr", "y"].contains name then some .year
  else none

/-- The seconds in a unit that is at least a second long. -/
def UnitOfTime.seconds? : UnitOfTime → Option Nat
  | .nanosecond | .microsecond | .millisecond => none
  | .second => some 1
  | .minute => some 60
  | .hour => some 3600
  | .day => some 86400
  | .week => some 604800
  | .month => some 2630016
  | .year => some 31557600

/-- The nanoseconds in a unit whose fractions are counted in nanoseconds; a nanosecond has no
fractions. -/
def UnitOfTime.fractionNanoseconds? : UnitOfTime → Option Nat
  | .microsecond => some 1000
  | .millisecond => some 1000000
  | .second => some 1000000000
  | .minute => some 60000000000
  | _ => none

/-- Add seconds and nanoseconds to a span. -/
def plus? (span : Duration) (seconds nanoseconds : Nat) : Option Duration := do
  let fine ← word? (span.nanoseconds + nanoseconds)
  let coarse ← word? (span.seconds + (seconds + fine / 1000000000))
  return ⟨coarse, fine % 1000000000⟩

/-- A fraction in lowest digits as written: its digits over a power of ten. -/
structure Fraction where
  numerator : Nat
  denominator : Nat
  deriving DecidableEq, Repr

/-- An exact quotient. -/
def exactQuotient? (dividend divisor : Nat) : Option Nat :=
  if dividend % divisor = 0 then some (dividend / divisor) else none

/-- Add a number of units, with the fraction if one was written. -/
def plusUnits? (span : Duration) (whole : Nat) (fraction : Option Fraction)
    (unit : UnitOfTime) : Option Duration := do
  let span ←
    match unit.seconds? with
    | some length => span.plus? (← word? (whole * length)) 0
    | none =>
      let length := unit.fractionNanoseconds?.getD 1
      span.plus? 0 (← word? (whole * length))
  match fraction with
  | none => return span
  | some ⟨numerator, denominator⟩ =>
    match unit.fractionNanoseconds?, unit.seconds? with
    | some length, _ =>
      span.plus? 0 (← exactQuotient? (← word? (numerator * length)) denominator)
    | none, some length =>
      span.plus? (← exactQuotient? (← word? (numerator * length)) denominator) 0
    | none, none => none

/-- The letters that units are made of. -/
def isUnitLetter (c : Char) : Bool :=
  c.isAlpha || c == 'µ'

/-- The value of a decimal digit. -/
def digitValue (c : Char) : Nat := c.toNat - '0'.toNat

/-- What precedes a unit: the whole number, the fraction if one is written, and the characters
from the unit on. -/
structure Numeral where
  whole : Nat
  fraction : Option Fraction
  rest : List Char

/-- Read the digits of a fraction up to the first letter of the unit. -/
def readFraction (sofar : Fraction) : List Char → Option (Fraction × List Char)
  | [] => some (sofar, [])
  | c :: rest =>
    if c.isDigit then do
      let denominator ← word? (sofar.denominator * 10)
      let numerator ← word? (sofar.numerator * 10 + digitValue c)
      readFraction ⟨numerator, denominator⟩ rest
    else if Text.isBlank c then
      readFraction sofar rest
    else if isUnitLetter c then
      some (sofar, c :: rest)
    else
      none

/-- Read the further digits of a number up to the first letter of its unit. -/
def readNumeral (whole : Nat) : List Char → Option Numeral
  | [] => some ⟨whole, none, []⟩
  | c :: rest =>
    if c.isDigit then do
      let longer ← word? (whole * 10 + digitValue c)
      readNumeral longer rest
    else if Text.isBlank c then
      readNumeral whole rest
    else if isUnitLetter c then
      some ⟨whole, none, c :: rest⟩
    else if c = '.' then do
      let (fraction, rest) ← readFraction ⟨0, 1⟩ rest
      if fraction.denominator = 1 then none
      else return ⟨whole, some fraction, rest⟩
    else
      none

/-- Reading a fraction leaves no more characters than there were. -/
theorem readFraction_length {sofar fraction : Fraction} {characters rest : List Char}
    (read : readFraction sofar characters = some (fraction, rest)) :
    rest.length ≤ characters.length := by
  induction characters generalizing sofar with
  | nil => simp [readFraction] at read; simp [read]
  | cons c tail hypothesis =>
    simp only [readFraction, Option.bind_eq_bind] at read
    split at read
    · simp only [Option.bind_eq_some_iff] at read
      obtain ⟨_, _, _, _, read⟩ := read
      exact Nat.le_succ_of_le (hypothesis read)
    · split at read
      · exact Nat.le_succ_of_le (hypothesis read)
      · split at read
        · simp only [Option.some.injEq, Prod.mk.injEq] at read
          simp [← read.2]
        · simp at read

/-- Reading a numeral leaves no more characters than there were. -/
theorem readNumeral_length {whole : Nat} {characters : List Char} {numeral : Numeral}
    (read : readNumeral whole characters = some numeral) :
    numeral.rest.length ≤ characters.length := by
  induction characters generalizing whole with
  | nil => simp [readNumeral] at read; simp [← read]
  | cons c tail hypothesis =>
    simp only [readNumeral, Option.bind_eq_bind] at read
    split at read
    · simp only [Option.bind_eq_some_iff] at read
      obtain ⟨_, _, read⟩ := read
      exact Nat.le_succ_of_le (hypothesis read)
    · split at read
      · exact Nat.le_succ_of_le (hypothesis read)
      · split at read
        · simp only [Option.some.injEq] at read
          simp [← read]
        · split at read
          · simp only [Option.bind_eq_some_iff] at read
            obtain ⟨⟨fraction, rest⟩, inner, read⟩ := read
            dsimp only at read
            split at read
            · simp at read
            · simp only [Option.pure_def, Option.some.injEq] at read
              simpa [← read] using Nat.le_succ_of_le (readFraction_length inner)
          · simp at read

/-- What may follow a unit: nothing, a blank or a digit. -/
def endsUnit : List Char → Bool
  | [] => true
  | c :: _ => Text.isBlank c || c.isDigit

/-- Add the remaining numbers with units to a span. -/
def readFrom (span : Duration) (characters : List Char) : Option Duration :=
  match _shape : characters.dropWhile Text.isBlank with
  | [] => some span
  | c :: afterDigit =>
    if c.isDigit then
      match _numeralRead : readNumeral (digitValue c) afterDigit with
      | none => none
      | some numeral =>
        let name := numeral.rest.takeWhile isUnitLetter
        let rest := numeral.rest.dropWhile isUnitLetter
        if endsUnit rest then do
          let unit ← UnitOfTime.ofName? (String.ofList name)
          let longer ← span.plusUnits? numeral.whole numeral.fraction unit
          readFrom longer rest
        else
          none
    else
      none
termination_by characters.length
decreasing_by
  have bound := readNumeral_length _numeralRead
  have dropped := (List.dropWhile_suffix (l := numeral.rest) isUnitLetter).length_le
  have blanks := (List.dropWhile_suffix (l := characters) Text.isBlank).length_le
  simp only [_shape, List.length_cons] at blanks
  show (numeral.rest.dropWhile isUnitLetter).length < characters.length
  omega

/-- Read the text of a span; at least one number has to stand in it. A lone zero needs no
unit. -/
def ofText? (text : String) : Option Duration :=
  if text = "0" then some zero
  else if Text.isBlankText text then none
  else readFrom zero text.toList

end Duration

end SpnegoRealm
