import Stencil.Json.Basic
import Stencil.Text.Basic
import Stencil.Text.Reader

/-!
Reading JSON. Between tokens there may be blanks and line ends. Strings hold no
control characters, and their escapes must denote characters: a surrogate only
counts as half of a pair. An integer that fits a word is an integer, and any
other number is the nearest float, if it is within range. This models the library
that `Json.Basic` speaks of; the results use how strings in double quotes are read
(`Proofs.Reading.Quoted`), and no more of it.
-/

namespace Stencil.Json

open Reader

def blanks : Reader (List Char) :=
  run fun c => c == ' ' || c == '\n' || c == '\t' || c == '\r'

/-- A character by its code point, if there is one. -/
def charOfNat? (n : Nat) : Option Char :=
  if n.isValidChar then some (Char.ofNat n) else none

def fourHexDigits : Reader Nat := do
  let a ← oneOf isHexDigit
  let b ← oneOf isHexDigit
  let c ← oneOf isHexDigit
  let d ← oneOf isHexDigit
  return Text.digitsValue 16 [a, b, c, d]
where
  isHexDigit (c : Char) : Bool := (Text.baseDigitValue? 16 c).isSome

/-- The character of an escape, after its backslash. -/
def escapedChar : Reader Char := do
  let mark ← oneOf fun _ => true
  match mark with
  | '"' => return '"'
  | '\\' => return '\\'
  | '/' => return '/'
  | 'b' => return '\x08'
  | 'f' => return '\x0c'
  | 'n' => return '\n'
  | 'r' => return '\r'
  | 't' => return '\t'
  | 'u' =>
    let first ← fourHexDigits
    if 0xD800 ≤ first ∧ first < 0xDC00 then
      char '\\'
      char 'u'
      let second ← fourHexDigits
      if 0xDC00 ≤ second ∧ second < 0xE000 then
        ofOption (charOfNat? (0x10000 + (first - 0xD800) * 0x400 + (second - 0xDC00)))
      else failure
    else ofOption (charOfNat? first)
  | _ => failure

def stringChar : Reader Char := do
  let c ← oneOf fun c => c != '"' && 0x20 ≤ c.toNat
  if c = '\\' then escapedChar else return c

def stringLiteral : Reader String := do
  char '"'
  let content ← many stringChar
  char '"'
  return String.ofList content

def exponentPart : Reader Int := do
  let _ ← oneOf fun c => c == 'e' || c == 'E'
  let sign ← maybe (oneOf fun c => c == '+' || c == '-')
  let digits ← run1 Char.isDigit
  let size : Int := Text.digitsValue 10 digits
  return if sign = some '-' then -size else size

/-- A number. A whole part of more than one digit does not start with zero. -/
def numberLiteral : Reader Number := do
  let sign ← maybe (char '-')
  let whole ← run1 Char.isDigit
  let fraction ← maybe (char '.' *> run1 Char.isDigit)
  let exponent ← maybe exponentPart
  if whole.length > 1 ∧ whole.head? = some '0' then failure
  else
    let digits := whole ++ fraction.getD []
    let shift : Int := (exponent.getD 0) - ((fraction.getD []).length : Int)
    ofOption (Number.ofLiteral? sign.isSome (Text.digitsValue 10 digits) shift
      (fraction.isNone && exponent.isNone))

/-- Things between brackets with commas between them. -/
def commaSeparated {α : Type} (opening closing : Char) (item : Reader α) : Reader (List α) := do
  char opening
  let _ ← blanks
  let items ← (do
      let first ← item
      let rest ← many (do
        let _ ← blanks
        char ','
        let _ ← blanks
        item)
      return first :: rest) <|> pure []
  let _ ← blanks
  char closing
  return items

def fieldOf (value : Reader Json) : Reader (String × Json) := do
  let key ← stringLiteral
  let _ ← blanks
  char ':'
  let _ ← blanks
  return (key, ← value)

def scalar : Reader Json :=
  (word "null" *> pure Json.null) <|>
  (word "true" *> pure (Json.bool true)) <|>
  (word "false" *> pure (Json.bool false)) <|>
  (Json.string <$> stringLiteral) <|>
  (Json.number <$> numberLiteral)

/-- An array or an object whose parts are read by `part`. -/
def collection (part : Reader Json) : Reader Json :=
  (Json.array <$> commaSeparated '[' ']' part) <|>
  ((fun fields => Json.object (orderFields fields)) <$>
    commaSeparated '\x7b' '\x7d' (fieldOf part))

/-- A value with so many arrays and objects inside each other at most. -/
def valueWithin : Nat → Reader Json
  | 0, text => scalar text
  | depth + 1, text => (scalar <|> collection (valueWithin depth)) text

/-- The value that a text writes, if it is JSON with so many arrays and objects
inside each other at most. -/
def readWithin? (depth : Nat) (text : String) : Option Json :=
  let document : Reader Json := blanks *> valueWithin depth <* blanks
  document.readAll? text.toList

/-- The value that a text writes, if it is JSON. -/
def read? (text : String) : Option Json := readWithin? text.length text

end Stencil.Json
