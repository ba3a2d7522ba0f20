import Stencil.Value

/-!
Values as JSON, and JSON as text. A JSON value is a value as it stands. A value
becomes JSON by dropping the mark of safe text and by resolving deferred values,
wherever they stand; inside the result of a deferred value the count of
evaluations in a row starts again.

The text has no spaces. Strings escape the double quote, the backslash and control
characters; all other characters stand for themselves. No result rests on how it is written.
-/

namespace Stencil.Value

mutual
/-- The value with the same data as a JSON value. -/
def ofJson : Json → Value
  | .null => .null
  | .bool b => .bool b
  | .number n => .number n
  | .string s => .string s
  | .array items => .array (ofJsonItems items)
  | .object fields => .object (ofJsonFields fields)
termination_by structural j => j

def ofJsonItems : List Json → List Value
  | [] => []
  | j :: rest => ofJson j :: ofJsonItems rest
termination_by structural js => js

def ofJsonFields : List (String × Json) → List (String × Value)
  | [] => []
  | (key, j) :: rest => (key, ofJson j) :: ofJsonFields rest
termination_by structural fields => fields
end

mutual
/-- The JSON value of a value, with at most `budget` evaluations in a row left
at this place, and the tally of all evaluations made. -/
def toJsonWithin (budget : Nat) (v : Value) : Json × Tally :=
  match v with
  | .null => (.null, .zero)
  | .bool b => (.bool b, .zero)
  | .number n => (.number n, .zero)
  | .string s => (.string s, .zero)
  | .safe s => (.string s, .zero)
  | .array items =>
    let (items, tally) := toJsonItems items
    (.array items, tally)
  | .object fields =>
    let (fields, tally) := toJsonFields fields
    (.object fields, tally)
  | .lazy _ result =>
    match budget with
    | 0 => (.null, ⟨0, 1⟩)
    | budget + 1 =>
      let (json, tally) := toJsonWithin budget result
      (json, (Tally.mk 1 0).add tally)
  | .endless _ => (.null, ⟨budget, 1⟩)
termination_by structural v

def toJsonItems (items : List Value) : List Json × Tally :=
  match items with
  | [] => ([], .zero)
  | v :: rest =>
    let (json, first) := toJsonWithin maxLazyDepth v
    let (jsons, others) := toJsonItems rest
    (json :: jsons, first.add others)
termination_by structural items

def toJsonFields (fields : List (String × Value)) : List (String × Json) × Tally :=
  match fields with
  | [] => ([], .zero)
  | (key, v) :: rest =>
    let (json, first) := toJsonWithin maxLazyDepth v
    let (jsons, others) := toJsonFields rest
    ((key, json) :: jsons, first.add others)
termination_by structural fields
end

/-- The JSON value of a value and the tally of the evaluations made. -/
def toJson (v : Value) : Json × Tally := v.toJsonWithin maxLazyDepth

end Stencil.Value

namespace Stencil.Json

def twoHexDigits (n : Nat) : List Char :=
  [Nat.digitChar (n / 16), Nat.digitChar (n % 16)]

def writeChar (c : Char) : List Char :=
  match c with
  | '"' => ['\\', '"']
  | '\\' => ['\\', '\\']
  | '\n' => ['\\', 'n']
  | '\r' => ['\\', 'r']
  | '\t' => ['\\', 't']
  | c => if c.toNat < 0x20 then ['\\', 'u', '0', '0'] ++ twoHexDigits c.toNat else [c]

def writeString (s : String) : String :=
  "\"" ++ String.ofList (s.toList.flatMap writeChar) ++ "\""

mutual
def write : Json → String
  | .null => "null"
  | .bool b => if b then "true" else "false"
  | .number n => n.text
  | .string s => writeString s
  | .array items => "[" ++ String.intercalate "," (writeItems items) ++ "]"
  | .object fields => "\x7b" ++ String.intercalate "," (writeFields fields) ++ "\x7d"
termination_by structural j => j

def writeItems : List Json → List String
  | [] => []
  | j :: rest => j.write :: writeItems rest
termination_by structural js => js

def writeFields : List (String × Json) → List String
  | [] => []
  | (key, j) :: rest => (writeString key ++ ":" ++ j.write) :: writeFields rest
termination_by structural fields => fields
end

end Stencil.Json
