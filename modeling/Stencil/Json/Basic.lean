import Stencil.Fields
import Stencil.Number

/-!
JSON values. The fields of an object stand in ascending order of their keys, one
field for each key. On a page a value has a text, and a block takes it as true or
not; both differ from what values do in generated programs.

JSON is no part of the engine: its values, their numbers, and how they are written
and read are those of a library, which the modules under `Json` model together with
`Number`. The text and the truth of a value on a page are those of the library that
`Source.Basic` speaks of. What is proved of the JSON form of template data rests on
the shape of the values and on the equality of numbers by kind and value alone. What
a page shows rests on the texts below: none of null, the words of booleans, numbers
and strings as they are, the items of an array in brackets with commas and spaces
between them, and one text for all objects.
-/

namespace Stencil

inductive Json where
  | null
  | bool (value : Bool)
  | number (value : Number)
  | string (value : String)
  | array (items : List Json)
  | object (fields : List (String × Json))

namespace Json

instance : Inhabited Json := ⟨.null⟩

mutual
/-- Equality of values, numbers compared as `Number.same` does. -/
def same : Json → Json → Bool
  | .null, .null => true
  | .bool a, .bool b => a == b
  | .number a, .number b => a.same b
  | .string a, .string b => a == b
  | .array a, .array b => sameItems a b
  | .object a, .object b => sameFields a b
  | _, _ => false
termination_by structural j => j

def sameItems : List Json → List Json → Bool
  | [], [] => true
  | a :: as, b :: bs => a.same b && sameItems as bs
  | _, _ => false
termination_by structural js => js

def sameFields : List (String × Json) → List (String × Json) → Bool
  | [], [] => true
  | (k, a) :: as, (l, b) :: bs => k == l && a.same b && sameFields as bs
  | _, _ => false
termination_by structural fields => fields
end

mutual
/-- The text of a value on a page. -/
def shown : Json → String
  | .null => ""
  | .bool b => if b then "true" else "false"
  | .number n => n.text
  | .string s => s
  | .array items => "[" ++ String.intercalate ", " (shownItems items) ++ "]"
  | .object _ => "[object]"
termination_by structural j => j

def shownItems : List Json → List String
  | [] => []
  | j :: rest => j.shown :: shownItems rest
termination_by structural js => js
end

/-- Whether a block takes a value as true. Arrays and objects count by having
elements; among the floats those too small for the full precision count as
zero. Zero counts as true if that is asked for. -/
def holds (countZero : Bool) : Json → Bool
  | .null => false
  | .bool b => b
  | .number n =>
    countZero ||
    match n with
    | .integer value _ => value != 0
    | .float value => value.isNormal
  | .string s => s != ""
  | .array items => !items.isEmpty
  | .object fields => !fields.isEmpty

end Json

end Stencil
