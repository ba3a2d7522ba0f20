import Stencil.Store

/-!
What names lead to on a page. Some helpers every page knows without any registry:
there are those that render their body, and the others give a value, which is
shown like any other value. These are helpers of the library that `Source.Basic`
speaks of; what follows is what the engine offers to it.

All helpers of the environment and of the caller can be called, apart from those
whose names stand for blocks of pages. Every partial has a stand-in, a small source
that calls the dispatcher of partials with the name of the partial and the value in
scope.
-/

namespace Stencil

/-- A helper that pages know by themselves. -/
inductive Native where
  /-- The body if the argument holds, or the other way round. -/
  | choose (expected : Bool)
  | each
  | within
  | raw
  | log
  | lookup
  | equal (expected : Bool)
  /-- Whether the arguments stand in one of these orders. -/
  | compare (orders : List Ordering)
  | both
  | either
  | negate
  | length

namespace Native

def ofName? : String → Option Native
  | "if" => some (.choose true)
  | "unless" => some (.choose false)
  | "each" => some .each
  | "with" => some .within
  | "raw" => some .raw
  | "log" => some .log
  | "lookup" => some .lookup
  | "eq" => some (.equal true)
  | "ne" => some (.equal false)
  | "gt" => some (.compare [.gt])
  | "gte" => some (.compare [.gt, .eq])
  | "lt" => some (.compare [.lt])
  | "lte" => some (.compare [.lt, .eq])
  | "and" => some .both
  | "or" => some .either
  | "not" => some .negate
  | "len" => some .length
  | _ => none

/-- The words for how serious a logged message is, in small letters. -/
def logLevels : List String := ["error", "warn", "info", "debug", "trace"]

/-- Whether a message can be logged at a level; without one it always can.
Capital letters in the word make no difference. -/
def acceptsLevel : Option Json → Bool
  | some (.string level) => logLevels.contains level.toLower
  | _ => true

end Native

namespace Json

/-- An element of an array by a number, or a field of an object by a string. -/
def select (collection index : Json) : Json :=
  match collection, index with
  | .array items, .number n => ((n.toNat?.bind fun i => items[i]?).getD .null)
  | .object fields, .string key => (field? key fields).getD .null
  | _, _ => .null

/-- How two values of one kind are ordered. -/
def order? : Json → Json → Option Ordering
  | .number a, .number b => some (a.order b)
  | .string a, .string b => some (if a < b then .lt else if a = b then .eq else .gt)
  | .bool a, .bool b => some (Ord.compare a b)
  | _, _ => none

/-- How many elements, fields or bytes a value has. -/
def extent : Json → Nat
  | .array items => items.length
  | .object fields => fields.length
  | .string s => s.utf8ByteSize
  | _ => 0

/-- The parts of a value as fields: those of an object, and the elements of an
array or the characters of a string by their index. -/
def parts : Json → List (String × Json)
  | .object fields => fields
  | .array items => items.zipIdx.map fun (item, i) => (Text.numeral i, item)
  | .string s => s.toList.zipIdx.map fun (c, i) => (Text.numeral i, .string c.toString)
  | _ => []

/-- A value with fields put over its parts; without any it stays what it is. -/
def merge (base : Json) (fields : List (String × Json)) : Json :=
  if fields.isEmpty then base else .object (orderFields (base.parts ++ fields))

end Json

namespace Native

/-- The value that a helper without a body gives for its arguments; none where
an argument is missing or the helper gives no value. -/
def value? (helper : Native) (arguments : List Json) : Option Json :=
  match helper, arguments with
  | .lookup, collection :: index :: _ => some (collection.select index)
  | .equal expected, a :: b :: _ => some (.bool (a.same b == expected))
  | .compare orders, a :: b :: _ => some (.bool ((a.order? b).any orders.contains))
  | .both, a :: b :: _ => some (.bool (a.holds false && b.holds false))
  | .either, a :: b :: _ => some (.bool (a.holds false || b.holds false))
  | .negate, a :: _ => some (.bool (!a.holds false))
  | .length, a :: _ => some (.number (.ofNat a.extent))
  | _, _ => none

end Native

namespace Page

/-- The name under which a page knows its own template. -/
def ownName : String := "__source"

/-- The name of the helper that renders a partial of the registries. -/
def dispatcher : String := "__runtime_partial"

/-- The names of two registries, in ascending order, each once. -/
def unionNames (first second : List String) : List String :=
  ((first ++ second).foldl (fun names name => names.register name ()) Registry.empty).names

def helperNames (store : Store) (frame : Frame) : List String :=
  let overrides := (frame.options.helpers.map fun r => (store.helpersOf r).names).getD []
  (unionNames (store.helpersOf frame.environment.helpers).names overrides).filter fun name =>
    (Builtin.ofName? name).isNone

/-- Whether a partial of this name can be referred to on a page. -/
def isReferable (name : String) : Bool :=
  name != ownName && !name.toList.any fun c => c == '"' || c == '\x7b' || c == '\x7d'

/-- The names of partials that a page can refer to. -/
def partialNames (store : Store) (frame : Frame) : List String :=
  let overrides := (frame.options.partials.map fun r => (store.partialsOf r).names).getD []
  (unionNames (store.partialsOf frame.environment.partials).names overrides).filter isReferable

/-- The source that stands in for a partial. -/
def standInSource (name : String) : String :=
  "\x7b\x7b" ++ dispatcher ++ " \"" ++ name ++ "\" this\x7d\x7d"

/-- What stands in for a partial, if its name can be written in a source. -/
def standIn? (name : String) : Option (List Source.Element) :=
  Source.read? (standInSource name)

/-- What a name calls on a page. -/
inductive Callee where
  | registered (name : String)
  | dispatcher
  | native (helper : Native)

/-- What a name calls on a page; the registries go before the page's own
helpers. -/
def callee? (store : Store) (frame : Frame) (name : String) : Option Callee :=
  if name = dispatcher then some .dispatcher
  else if (helperNames store frame).contains name then some (.registered name)
  else (Native.ofName? name).map .native

/-- The elements that stand for a partial on a page. -/
def partial? (store : Store) (page : Page) (name : String) : Option (List Source.Element) :=
  if name = ownName then some page.elements
  else if (partialNames store page.frame).contains name then standIn? name
  else none

end Page

end Stencil
