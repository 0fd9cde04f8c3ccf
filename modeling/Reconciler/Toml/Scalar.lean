import Reconciler.Toml.Chars

/-! # Numbers, dates and booleans

A value without quotes and brackets is one word. Underscores may stand between digits. Integers have 64
bits with a sign; a float that would round to positive infinity is refused. Dates are those of the
calendar; a time may follow its date after a space.
-/

namespace Reconciler.Toml

/-- Characters of words. -/
def isWordChar (char : Char) : Bool :=
  char.isAlphanum || char == '+' || char == '-' || char == '_' || char == '.' || char == ':'

/-- Digits in groups: at least one digit, and an underscore only between two digits. -/
def isGrouped (digit : Char → Bool) : List Char → Bool
  | [] => false
  | [last] => digit last
  | first :: '_' :: rest => digit first && isGrouped digit rest
  | first :: rest => digit first && isGrouped digit rest

def withoutGroups (word : List Char) : List Char := word.filter (· != '_')

/-- The sign of a number, if it has one, and the rest. -/
def signed : List Char → Bool × List Char
  | '-' :: rest => (true, rest)
  | '+' :: rest => (false, rest)
  | word => (false, word)

/-- Digits without a leading zero, except zero itself. -/
def isWhole (word : List Char) : Bool :=
  isGrouped isDigit word && (word.head? != some '0' || word.length == 1)

/-- Integers from here on do not fit into 64 bits with a sign. -/
def wordLimit : Nat := Nat.pow 2 63

def isDecimal (word : List Char) : Bool :=
  let (negative, digits) := signed word
  isWhole digits && numberOf 10 (withoutGroups digits) < wordLimit + (if negative then 1 else 0)

/-- Hexadecimal, octal and binary numbers have no sign. -/
def isBased : List Char → Bool
  | '0' :: 'x' :: digits =>
      isGrouped isHexDigit digits && numberOf 16 (withoutGroups digits) < wordLimit
  | '0' :: 'o' :: digits =>
      isGrouped (fun char => '0' ≤ char && char ≤ '7') digits &&
        numberOf 8 (withoutGroups digits) < wordLimit
  | '0' :: 'b' :: digits =>
      isGrouped (fun char => char == '0' || char == '1') digits &&
        numberOf 2 (withoutGroups digits) < wordLimit
  | _ => false

/-- From here on a number is nearer to infinity than to the largest float. -/
def overflow : Nat := Nat.pow 2 1024 - Nat.pow 2 970

/-- Whether `significand * 10 ^ exponent` rounds to infinity. Exponents far from the limit are told
apart by the number of digits. -/
def roundsToInfinity (significand : Nat) (exponent : Int) : Bool :=
  let magnitude : Int := (Nat.toDigits 10 significand).length + exponent
  if significand == 0 || magnitude < 300 then false
  else if 320 < magnitude then true
  else overflow * Nat.pow 10 (-exponent).toNat ≤ significand * Nat.pow 10 exponent.toNat

/-- Split a word before the first character that passes the test. -/
def cutAt (test : Char → Bool) (word : List Char) : List Char × List Char :=
  (word.takeWhile (!test ·), word.dropWhile (!test ·))

/-- A fraction or an exponent, or both, makes a float. -/
def isFloat (word : List Char) : Bool :=
  let (negative, body) := signed word
  let (mantissa, tail) := cutAt (fun char => char == 'e' || char == 'E') body
  let (whole, fraction) := cutAt (· == '.') mantissa
  let (minus, power) := signed (tail.drop 1)
  let places := withoutGroups (fraction.drop 1)
  let shift : Int := numberOf 10 (withoutGroups power)
  isWhole whole && (!fraction.isEmpty || !tail.isEmpty) &&
    (fraction.isEmpty || isGrouped isDigit (fraction.drop 1)) &&
    (tail.isEmpty || isGrouped isDigit power) &&
    (negative || !roundsToInfinity (numberOf 10 (withoutGroups whole ++ places))
      ((if minus then -shift else shift) - places.length))

def isSpecialFloat (word : List Char) : Bool :=
  let (_, body) := signed word
  body == ['i', 'n', 'f'] || body == ['n', 'a', 'n']

/-- The number written by exactly `width` digits. -/
def fixed? (width : Nat) (word : List Char) : Option Nat :=
  if word.length == width && word.all isDigit then some (numberOf 10 word) else none

def isLeap (year : Nat) : Bool := year % 4 == 0 && (year % 100 != 0 || year % 400 == 0)

def monthLength (year month : Nat) : Nat :=
  if month == 2 then (if isLeap year then 29 else 28)
  else if month == 4 || month == 6 || month == 9 || month == 11 then 30
  else 31

/-- A day of the calendar, as in `1979-05-27`. -/
def isDate (word : List Char) : Bool :=
  match fixed? 4 (word.take 4), fixed? 2 ((word.drop 5).take 2), fixed? 2 (word.drop 8) with
  | some year, some month, some day =>
      (word.drop 4).head? == some '-' && (word.drop 7).head? == some '-' &&
        1 ≤ month && month ≤ 12 && 1 ≤ day && day ≤ monthLength year month
  | _, _, _ => false

/-- An hour and a minute, as in `07:32`. -/
def isHourMinute (word : List Char) : Bool :=
  match fixed? 2 (word.take 2), fixed? 2 (word.drop 3) with
  | some hour, some minute => (word.drop 2).head? == some ':' && hour ≤ 23 && minute ≤ 59
  | _, _ => false

/-- A time of day with seconds and perhaps a part of a second. Leap seconds count. -/
def isTime (word : List Char) : Bool :=
  let (clock, part) := cutAt (· == '.') word
  match fixed? 2 (clock.drop 6) with
  | some second =>
      isHourMinute (clock.take 5) && (clock.drop 5).head? == some ':' && second ≤ 60 &&
        (part.isEmpty || (1 < part.length && (part.drop 1).all isDigit))
  | none => false

/-- A time of day with or without its distance from universal time. -/
def isZonedTime (word : List Char) : Bool :=
  let (clock, zone) := cutAt (fun char => char == 'Z' || char == 'z' || char == '+' || char == '-') word
  isTime clock &&
    match zone with
    | [] => true
    | [letter] => letter == 'Z' || letter == 'z'
    | sign :: offset => (sign == '+' || sign == '-') && isHourMinute offset

def isDateTime (word : List Char) : Bool :=
  isDate (word.take 10) &&
    match word.drop 10 with
    | [] => true
    | mark :: time => (mark == 'T' || mark == 't') && isZonedTime time

/-- Every value of one word but the booleans. -/
def isPlainWord (word : List Char) : Bool :=
  isDecimal word || isBased word || isFloat word || isSpecialFloat word || isDateTime word ||
    isTime word

/-- The first word of a text, and the rest. A space joins a date and the time after it. -/
def word (text : List Char) : List Char × List Char :=
  let (first, rest) := (text.takeWhile isWordChar, text.dropWhile isWordChar)
  match rest with
  | ' ' :: next =>
      let time := next.takeWhile isWordChar
      if isDate first && isZonedTime time then (first ++ 'T' :: time, next.dropWhile isWordChar)
      else (first, rest)
  | _ => (first, rest)

end Reconciler.Toml
