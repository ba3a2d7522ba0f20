import Stencil.Toml.Basic

/-!
Scalars written without quotes: booleans, integers, floats, and dates and
times. Underscores may stand between digits. Integers and floats must be within
the range of 128-bit words and of finite floats, as the library that `Toml.Basic`
speaks of requires it.
-/

namespace Stencil.Toml

def ungroup? (isDigit : Char → Bool) : List Char → Option (List Char)
  | [] => none
  | [c] => if isDigit c then some [c] else none
  | c :: '_' :: rest => if isDigit c then (ungroup? isDigit rest).map (c :: ·) else none
  | c :: rest => if isDigit c then (ungroup? isDigit rest).map (c :: ·) else none

/-- The integer, if a signed or an unsigned word of 128 bits holds it. -/
def wideInteger? (value : Int) : Option Value :=
  if -(Nat.pow 2 127 : Int) ≤ value ∧ value < Nat.pow 2 128 then some (.integer value) else none

def signed (text : List Char) : Bool × List Char :=
  match text with
  | '-' :: rest => (true, rest)
  | '+' :: rest => (false, rest)
  | all => (false, all)

/-- The digits of a decimal whole number; no zero stands in front of others. -/
def wholeDigits? (text : List Char) : Option (List Char) :=
  match ungroup? Char.isDigit text with
  | some digits => if digits.length > 1 ∧ digits.head? = some '0' then none else some digits
  | none => none

def basedInteger? (base : Nat) (text : List Char) : Option Value :=
  match ungroup? (fun c => (Text.baseDigitValue? base c).isSome) text with
  | some digits => wideInteger? (Text.digitsValue base digits)
  | none => none

def integer? (text : List Char) : Option Value :=
  match text with
  | '0' :: 'x' :: rest => basedInteger? 16 rest
  | '0' :: 'o' :: rest => basedInteger? 8 rest
  | '0' :: 'b' :: rest => basedInteger? 2 rest
  | _ =>
    let (negative, rest) := signed text
    match wholeDigits? rest with
    | some digits =>
      let size : Int := Text.digitsValue 10 digits
      wideInteger? (if negative then -size else size)
    | none => none

def exponent? (text : List Char) : Option Int :=
  let (negative, rest) := signed text
  (ungroup? Char.isDigit rest).map fun digits =>
    let size : Int := Text.digitsValue 10 digits
    if negative then -size else size

/-- A float: a whole part with a fraction, an exponent or both, or one of the
names of the special floats. -/
def float? (text : List Char) : Option Value :=
  let (negative, rest) := signed text
  if rest = "inf".toList ∨ rest = "nan".toList then some .float
  else
    let isMark (c : Char) : Bool := c == 'e' || c == 'E'
    let mantissa := rest.takeWhile (fun c => !isMark c)
    let tail := rest.drop mantissa.length
    let whole := mantissa.takeWhile (· != '.')
    let fraction := mantissa.drop whole.length
    if fraction = [] ∧ tail = [] then none
    else do
      let wholeDigits ← wholeDigits? whole
      let fractionDigits ←
        match fraction with
        | [] => some []
        | _ :: digits => ungroup? Char.isDigit digits
      let exponent ←
        match tail with
        | [] => some 0
        | _ :: digits => exponent? digits
      let digits := wholeDigits ++ fractionDigits
      let _ ← Binary64.ofDecimal? negative (Text.digitsValue 10 digits)
        (exponent - fractionDigits.length)
      return .float

def fixedDigits? (count : Nat) (text : List Char) : Option Nat :=
  if text.length = count then Text.natOfDigits? text else none

def isLeapYear (year : Nat) : Bool :=
  year % 4 == 0 && (year % 100 != 0 || year % 400 == 0)

def daysInMonth (year month : Nat) : Nat :=
  if month = 2 then (if isLeapYear year then 29 else 28)
  else if month = 4 ∨ month = 6 ∨ month = 9 ∨ month = 11 then 30
  else 31

/-- Whether the text is a date of the calendar, as in `1979-05-27`. -/
def isDate (text : List Char) : Bool :=
  match fixedDigits? 4 (text.take 4), fixedDigits? 2 ((text.drop 5).take 2),
      fixedDigits? 2 (text.drop 8) with
  | some year, some month, some day =>
    text[4]? == some '-' && text[7]? == some '-' &&
      1 ≤ month && month ≤ 12 && 1 ≤ day && day ≤ daysInMonth year month
  | _, _, _ => false

/-- Whether the text is hours and minutes, as in `07:32`. -/
def isClock (text : List Char) : Bool :=
  match fixedDigits? 2 (text.take 2), fixedDigits? 2 (text.drop 3) with
  | some hour, some minute => text[2]? == some ':' && hour ≤ 23 && minute ≤ 59
  | _, _ => false

/-- Whether the text is a time of day; seconds may be left out, and may have a
fraction. -/
def isTime (text : List Char) : Bool :=
  isClock (text.take 5) &&
    match text.drop 5 with
    | [] => true
    | ':' :: seconds =>
      match fixedDigits? 2 (seconds.take 2), seconds.drop 2 with
      | some n, [] => n ≤ 60
      | some n, '.' :: fraction => n ≤ 60 && fraction != [] && fraction.all Char.isDigit
      | _, _ => false
    | _ => false

/-- Whether the text is a time of day with an offset, or without one. -/
def isTimeWithOffset (text : List Char) : Bool :=
  isTime text ||
    match text.reverse with
    | 'Z' :: rest | 'z' :: rest => isTime rest.reverse
    | _ =>
      let size := text.length - 6
      let offset := text.drop size
      (offset.head? == some '+' || offset.head? == some '-') &&
        isClock (offset.drop 1) && isTime (text.take size)

/-- A date, a time of day, or both with a mark between them. -/
def date? (text : List Char) : Option Value :=
  let isBoth :=
    match text.drop 10 with
    | c :: time => (c == 'T' || c == 't' || c == ' ') && isDate (text.take 10) &&
        isTimeWithOffset time
    | [] => false
  if isDate text || isTime text || isBoth then some .date else none

def scalar? (text : List Char) : Option Value :=
  if text = "true".toList then some (.boolean true)
  else if text = "false".toList then some (.boolean false)
  else integer? text <|> float? text <|> date? text

end Stencil.Toml
