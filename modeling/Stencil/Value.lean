import Stencil.Json.Basic
import Stencil.Text.Outline

/-!
Values of template data. Besides the data of JSON there is text that is safe to
show without escaping, and there are deferred values, which give their result
when they are resolved. Every deferred value has an identity; two of them are
equal when they are the same one, whatever their results.

A key selects a field of an object or, written as a decimal index, an element of
an array. A path is a list of keys with dots between them; empty keys between,
before and after dots do not count.

A deferred value may give another deferred value. At most a fixed number of
evaluations are made in a row, and a chain that has not settled by then counts as
null. Outlines show the constructor of a value and what it holds; they show no
result of a deferred value, as that is not known before it is evaluated.
-/

namespace Stencil

/-- A value in scope during rendering. The fields of an object stand in
ascending order of keys, one for each key. -/
inductive Value where
  | null
  | bool (value : Bool)
  | number (value : Number)
  | string (value : String)
  /-- Text that escaping leaves unchanged. -/
  | safe (text : String)
  | array (items : List Value)
  | object (fields : List (String × Value))
  /-- A deferred value that gives `result` each time it is evaluated. -/
  | lazy (identity : Nat) (result : Value)
  /-- A deferred value that gives another one of its kind each time it is
  evaluated, and so never settles. -/
  | endless (identity : Nat)

namespace Value

instance : Inhabited Value := ⟨.null⟩

/-- The value of a float that need not be finite: only finite ones have a
number, and the others are null. -/
def ofFloat : Option Binary64 → Value
  | some x => .number (.float x)
  | none => .null

def isLazy : Value → Bool
  | .lazy _ _ | .endless _ => true
  | _ => false

def isNull : Value → Bool
  | .null => true
  | _ => false

/-- Whether the value counts as true in a condition: null, `false`, zero and
the empty plain text do not, everything else does. -/
def isTruthy : Value → Bool
  | .null => false
  | .bool b => b
  | .number n => !n.isZero
  | .string s => s != ""
  | .safe _ | .array _ | .object _ | .lazy _ _ | .endless _ => true

/-- Whether a condition treats the value as an empty one: null, `false` and
the empty array. Zero and the empty text are not empty in this sense. -/
def isEmpty : Value → Bool
  | .null | .bool false => true
  | .array items => items.isEmpty
  | _ => false

/-- The text of a plain or safe string. -/
def asText? : Value → Option String
  | .string s | .safe s => some s
  | _ => none

def items? : Value → Option (List Value)
  | .array items => some items
  | _ => none

mutual
/-- The text of a value. Elements of an array are joined by commas; objects
and deferred values have a fixed text. -/
def text : Value → String
  | .null => ""
  | .bool b => if b then "true" else "false"
  | .number n => n.text
  | .string s => s
  | .safe s => s
  | .array items => String.intercalate "," (texts items)
  | .object _ => "[object]"
  | .lazy _ _ | .endless _ => "[function]"
termination_by structural v => v

def texts : List Value → List String
  | [] => []
  | v :: rest => v.text :: texts rest
termination_by structural vs => vs
end

/-- The value as it is shown in HTML: nothing where it is falsy, safe text
unchanged, and the escaped text of everything else. -/
def escape (v : Value) : String :=
  if v.isTruthy then
    match v with
    | .safe s => s
    | v => Text.escapeHtml v.text
  else ""

mutual
/-- Equality of values: by structure, numbers as `Number.same` compares them,
deferred values by identity. -/
def same : Value → Value → Bool
  | .null, .null => true
  | .bool a, .bool b => a == b
  | .number a, .number b => a.same b
  | .string a, .string b => a == b
  | .safe a, .safe b => a == b
  | .array a, .array b => sameItems a b
  | .object a, .object b => sameFields a b
  | .lazy a _, .lazy b _ => a == b
  | .endless a, .endless b => a == b
  | _, _ => false
termination_by structural v => v

def sameItems : List Value → List Value → Bool
  | [], [] => true
  | a :: as, b :: bs => a.same b && sameItems as bs
  | _, _ => false
termination_by structural vs => vs

def sameFields : List (String × Value) → List (String × Value) → Bool
  | [], [] => true
  | (k, a) :: as, (l, b) :: bs => k == l && a.same b && sameFields as bs
  | _, _ => false
termination_by structural fields => fields
end

/-- The index that a key writes: decimal digits after at most one plus sign,
below `2 ^ 64`. -/
def index? (key : String) : Option Nat :=
  let digits :=
    match key.toList with
    | '+' :: rest => rest
    | all => all
  match Text.natOfDigits? digits with
  | some n => if n < Nat.pow 2 64 then some n else none
  | none => none

/-- The part of a value that a key selects. -/
def get? (v : Value) (key : String) : Option Value :=
  match v with
  | .object fields => field? key fields
  | .array items => (index? key).bind fun i => items[i]?
  | _ => none

/-- The pieces of a text between its dots. -/
def splitDots : List Char → List (List Char)
  | [] => [[]]
  | c :: rest =>
    if c = '.' then [] :: splitDots rest
    else
      match splitDots rest with
      | [] => [[c]]
      | piece :: pieces => (c :: piece) :: pieces

/-- The keys of a path. -/
def keys (path : String) : List String :=
  ((splitDots path.toList).filter (· ≠ [])).map String.ofList

/-- The part of a value that a path leads to. -/
def lookup? (v : Value) (path : String) : Option Value :=
  (keys path).foldlM get? v

/-- The outline of safe text. -/
def safeOutline (text : String) : Outline :=
  .apply "SafeString" [.text text]

mutual
def outline : Value → Outline
  | .null => .word "Null"
  | .bool b => .apply "Bool" [.bool b]
  | .number n => .apply "Number" [.word ("Number(" ++ n.text ++ ")")]
  | .string s => .apply "String" [.text s]
  | .safe s => .apply "Safe" [safeOutline s]
  | .array items => .apply "Array" [.list (outlines items)]
  | .object fields => .apply "Object" [.map (fieldOutlines fields)]
  | .lazy _ _ | .endless _ => .word "LazyValue(..)"
termination_by structural v => v

def outlines : List Value → List Outline
  | [] => []
  | v :: rest => v.outline :: outlines rest
termination_by structural vs => vs

def fieldOutlines : List (String × Value) → List (String × Outline)
  | [] => []
  | (key, v) :: rest => (key, v.outline) :: fieldOutlines rest
termination_by structural fields => fields
end

end Value

/-- The greatest number of evaluations in a row. -/
def maxLazyDepth : Nat := 16

/-- What resolving a value gave, how many evaluations that took, and whether
the value settled within the bound. -/
structure Resolution where
  value : Value
  calls : Nat
  settled : Bool

/-- How many evaluations were made, and how many chains did not settle. -/
structure Tally where
  calls : Nat
  unsettled : Nat
  deriving DecidableEq

namespace Tally

def zero : Tally := ⟨0, 0⟩

def add (a b : Tally) : Tally := ⟨a.calls + b.calls, a.unsettled + b.unsettled⟩

end Tally

namespace Value

/-- Resolves with at most `budget` evaluations. -/
def resolveWithin (budget : Nat) (v : Value) : Resolution :=
  match v with
  | .lazy _ result =>
    match budget with
    | 0 => ⟨.null, 0, false⟩
    | budget + 1 =>
      let resolution := resolveWithin budget result
      { resolution with calls := resolution.calls + 1 }
  | .endless _ => ⟨.null, budget, false⟩
  | v => ⟨v, 0, true⟩
termination_by structural v

/-- Resolves a value; the result is never deferred. -/
def resolve (v : Value) : Resolution := v.resolveWithin maxLazyDepth

end Value

/-- The tally of one resolution. -/
def Resolution.tally (r : Resolution) : Tally :=
  ⟨r.calls, if r.settled then 0 else 1⟩

end Stencil
