import Stencil.Json.Reader
import Stencil.Settings.Basic
import Stencil.Toml.Scalar

/-!
TOML documents and the settings that they write. Keys are bare or quoted, strings
come in four forms, arrays and inline tables may span lines and end in a comma,
and comments run to the end of their line. A document that breaks a rule anywhere
is refused whole. That much is the library that `Toml.Basic` speaks of.

A settings file is such a document. Keys that are absent take their defaults, keys
that are unknown are passed over, and a value of a wrong kind makes the whole file
invalid.
-/

namespace Stencil.Toml

open Reader

def blanks : Reader (List Char) := run fun c => c == ' ' || c == '\t'

/-- Control characters other than the tab stand nowhere in a document. -/
def isPlain (c : Char) : Bool := c == '\t' || (0x20 ≤ c.toNat && c.toNat != 0x7F)

/-- A line end: a line feed, alone or after a carriage return. -/
def newline : Reader Unit := maybe (char '\r') *> char '\n'

def comment : Reader Unit := do
  char '#'
  let _ ← run isPlain
  return ()

def spacing : Reader Unit := do
  let _ ← many ((oneOf (fun c => c == ' ' || c == '\t') *> pure ()) <|> newline <|>
    (comment *> (newline <|> atEnd)))
  return ()

/-- The character of a code point written with so many hexadecimal digits. -/
def codePoint (count : Nat) : Reader Char := fun text =>
  let digits := text.take count
  if digits.length = count ∧ digits.all (fun c => (Text.baseDigitValue? 16 c).isSome) then
    (Json.charOfNat? (Text.digitsValue 16 digits)).map fun c => (c, text.drop count)
  else none

/-- The character of an escape, after its backslash. -/
def escapedChar : Reader Char := do
  let mark ← oneOf fun _ => true
  match mark with
  | '"' => return '"'
  | '\\' => return '\\'
  | 'b' => return '\x08'
  | 'e' => return '\x1b'
  | 'f' => return '\x0c'
  | 'n' => return '\n'
  | 'r' => return '\r'
  | 't' => return '\t'
  | 'x' => codePoint 2
  | 'u' => codePoint 4
  | 'U' => codePoint 8
  | _ => failure

def basicChar : Reader Char := do
  let c ← oneOf fun c => c != '"' && isPlain c
  if c = '\\' then escapedChar else return c

def basicString : Reader String := do
  char '"'
  let content ← many basicChar
  char '"'
  return String.ofList content

def literalString : Reader String := do
  char '\''
  let content ← run fun c => c != '\'' && isPlain c
  char '\''
  return String.ofList content

/-- A backslash at the end of a line takes the blanks and line ends after it. -/
def lineContinuation : Reader Unit := do
  char '\\'
  let _ ← blanks
  newline
  let _ ← many ((oneOf (fun c => c == ' ' || c == '\t') *> pure ()) <|> newline)
  return ()

/-- A part of a string over several lines: characters between three quotes,
where one or two quotes in a row are text. -/
def multilinePart (quote : Char) (plain : Reader (List Char)) : Reader (List Char) :=
  (newline *> pure ['\n']) <|> plain <|>
  (do
    char quote
    char quote
    notAhead (char quote)
    return [quote, quote]) <|>
  (do
    char quote
    notAhead (char quote)
    return [quote])

/-- A string over several lines. A line end right after the opening quotes does
not belong to it; one or two quotes before the closing ones do. -/
def multilineString (quote : Char) (plain : Reader (List Char)) : Reader String := do
  chars [quote, quote, quote]
  let _ ← maybe newline
  let parts ← many (multilinePart quote plain)
  let closing ← run (· == quote)
  if 3 ≤ closing.length ∧ closing.length ≤ 5 then
    return String.ofList (parts.flatten ++ closing.drop 3)
  else failure

def multilineBasic : Reader String :=
  multilineString '"' ((lineContinuation *> pure []) <|> ((fun c => [c]) <$> basicChar))

def multilineLiteral : Reader String :=
  multilineString '\'' ((fun c => [c]) <$> oneOf fun c => c != '\'' && isPlain c)

def stringValue : Reader String :=
  multilineBasic <|> basicString <|> multilineLiteral <|> literalString

def isBareKeyChar (c : Char) : Bool := c.isAlphanum || c == '_' || c == '-'

def simpleKey : Reader String :=
  (String.ofList <$> run1 isBareKeyChar) <|> basicString <|> literalString

/-- How many arrays and inline tables may stand inside each other, and how many
keys may have dots between them. -/
def maxDepth : Nat := 80

def dottedKey : Reader (List String) := do
  let first ← simpleKey
  let rest ← many (blanks *> char '.' *> blanks *> simpleKey)
  if rest.length < maxDepth then return first :: rest else failure

/-- A scalar without quotes. A blank belongs to it between a date and a time. -/
def bareScalar : Reader Value := do
  let isPart (c : Char) : Bool := c.isAlphanum || c == '_' || c == '-' || c == '+' || c == '.' ||
    c == ':'
  let text ← run1 isPart
  if isDate text then
    (do
      char ' '
      let time ← run1 isPart
      ofOption (date? (text ++ ' ' :: time))) <|> ofOption (scalar? text)
  else ofOption (scalar? text)

/-- Things with commas between them; a comma may follow the last one. -/
def commaSeparated {α : Type} (opening closing : Char) (item : Reader α) : Reader (List α) := do
  char opening
  spacing
  let items ← (do
      let first ← item
      spacing
      let rest ← many (do
        char ','
        spacing
        let next ← item
        spacing
        return next)
      let _ ← maybe (char ',')
      return first :: rest) <|> pure []
  spacing
  char closing
  return items

/-- A key, an equals sign and a value; `gap` reads what may stand around the
equals sign. -/
def assignment (gap : Reader Unit) (value : Reader Value) : Reader (List String × Value) := do
  let key ← dottedKey
  gap
  char '='
  gap
  return (key, ← value)

def scalar : Reader Value := (Value.string <$> stringValue) <|> bareScalar

/-- An array or an inline table whose parts are read by `part`. -/
def collection (part : Reader Value) : Reader Value :=
  (Value.array <$> commaSeparated '[' ']' part) <|>
  (do
    let assignments ← commaSeparated '\x7b' '\x7d' (assignment spacing part)
    Value.table <$> ofOption (tableOf? assignments))

/-- A value with so many arrays and inline tables inside each other at most. -/
def valueWithin : Nat → Reader Value
  | 0, text => scalar text
  | depth + 1, text => (scalar <|> collection (valueWithin depth)) text

/-- The keys of a header between its brackets. -/
def headerPath : Reader (List String) := blanks *> dottedKey <* blanks

/-- One line without its line end, if it says something. -/
def line : Reader (Option Line) := do
  let _ ← blanks
  let said ← maybe (
    (do
      word "[["
      let path ← headerPath
      word "]]"
      return Line.elementHeader path) <|>
    (do
      char '['
      let path ← headerPath
      char ']'
      return Line.header path) <|>
    ((fun (key, v) => Line.assignment key v) <$>
      assignment (blanks *> pure ()) (valueWithin maxDepth)))
  let _ ← blanks
  let _ ← maybe comment
  return said

def document : Reader (List Line) := do
  let _ ← maybe (char '\ufeff')
  let first ← line
  let rest ← many (newline *> line)
  return (first :: rest).filterMap id

/-- The fields of a document, if it breaks no rule. -/
def read? (text : String) : Option (List (String × Value)) :=
  (readAll? document text.toList).bind documentOf?

end Stencil.Toml

namespace Stencil.Settings

/-- A limit: an integer that fits an unsigned word. -/
def limit? : Toml.Value → Option Nat
  | .integer (.ofNat n) => if n < Nat.pow 2 64 then some n else none
  | _ => none

/-- A policy: its word, or a table with that word as its only key, which holds
nothing. -/
def policy? : Toml.Value → Option MissingPolicy
  | .string text => MissingPolicy.ofWord? text
  | .table [(key, .table [])] | .table [(key, .array [])] => MissingPolicy.ofWord? key
  | _ => none

/-- The value of a key read by `read?`, or the default where it is absent. -/
def fieldOr? {α : Type} (read? : Toml.Value → Option α) (default : α) (key : String)
    (fields : List (String × Toml.Value)) : Option α :=
  match field? key fields with
  | none => some default
  | some v => read? v

def ofFields? (fields : List (String × Toml.Value)) : Option Settings := do
  let base : Settings := {}
  let missing ← fieldOr? policy? base.missing "missing_helper" fields
  let maxPartialDepth ← fieldOr? limit? base.maxPartialDepth "max_partial_depth" fields
  let maxOutputBytes ← fieldOr? (fun v => (limit? v).map some) base.maxOutputBytes
    "max_output_bytes" fields
  return { missing, maxPartialDepth, maxOutputBytes }

/-- The settings that a file writes, if it is valid. -/
def ofToml? (text : String) : Option Settings :=
  (Toml.read? text).bind ofFields?

def toToml (s : Settings) : String :=
  "missing_helper = \"" ++ s.missing.word ++ "\"\n" ++
  "max_partial_depth = " ++ Text.numeral s.maxPartialDepth ++ "\n" ++
  match s.maxOutputBytes with
  | some n => "max_output_bytes = " ++ Text.numeral n ++ "\n"
  | none => ""

end Stencil.Settings
