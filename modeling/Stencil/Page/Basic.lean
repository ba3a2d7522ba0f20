import Stencil.Template

/-!
Pages in the making: what their paths see, and how they are written. A page shows
the JSON form of its context. Blocks open scopes inside each other; a scope stands
at a place in the data or has a value of its own, and it may set variables and
give names. A path starts from the innermost scope, from one further out, from a
named value, or from the data of the whole page.

Every line of an included partial starts with the blanks that its inclusion gives
it, and these are written together with the text after them. So the pen knows
whether a line has just ended, and whether the next text starts with the indent.
Text of helpers and partials of the registries does not go through the pen.

The modules under `Page`, with `Render.Page`, model how the library that
`Source.Basic` speaks of renders a template. What is proved of pages rests on these
ways of it: the data of a page is the JSON form of its context, a name of one key
shows that field of it, and what is shown is escaped as HTML; the helpers that were
registered go before those that pages know by themselves, and a partial is looked up
when it is included; the elements and arguments are taken in their order, and the
first one that fails ends the page with a failure that tells the reason as a text;
and pages reach registries and programs only through the helpers and partials that
the engine offers them.
-/

namespace Stencil

/-- What a name that a block gives stands for. -/
inductive Named where
  /-- The value of the block's own scope. -/
  | here
  | value (value : Json)

structure Scope where
  /-- The keys that lead from the data to the scope. -/
  place : List String := []
  /-- The value of a scope that is no part of the data. -/
  own : Option Json := none
  names : List (String × Named) := []
  locals : List (String × Json) := []

/-- What a path, a literal or a call stands for. -/
inductive Found where
  | literal (value : Json)
  /-- A part of the data, and where it stands. -/
  | place (value : Json) (keys : List String)
  /-- A value that is no part of the data. -/
  | derived (value : Json)
  | missing

namespace Found

/-- The value found; nothing found is null. -/
def value : Found → Json
  | .literal value | .place value _ | .derived value => value
  | .missing => .null

def place? : Found → Option (List String)
  | .place _ keys => some keys
  | _ => none

def scope : Found → Scope
  | .place _ keys => { place := keys }
  | found => { own := some found.value }

end Found

/-- Where keys lead. -/
inductive Reach where
  | found (value : Json)
  | absent
  /-- A key that is no index was looked up in an array. -/
  | refused

namespace Json

def step (key : String) : Json → Reach
  | .array items =>
    match Value.index? key with
    | none => .refused
    | some i =>
      match items[i]? with
      | some item => .found item
      | none => .absent
  | .object fields =>
    match field? key fields with
    | some value => .found value
    | none => .absent
  | _ => .absent

def follow : List String → Json → Reach
  | [], value => .found value
  | key :: keys, value =>
    match step key value with
    | .found next => follow keys next
    | reach => reach

end Json

/-- A page in the making: the render it belongs to, the elements of its
template, its data, and its scopes, the innermost first. -/
structure Page where
  frame : Frame
  elements : List Source.Element
  data : Json
  scopes : List Scope
  /-- The blanks that every line starts with. -/
  indent : String := ""

namespace Page

/-- The page before any block is open. -/
def start (frame : Frame) (elements : List Source.Element) (data : Json) : Page :=
  { frame, elements, data, scopes := [{}] }

def innermost (page : Page) : Scope := page.scopes.headD {}

/-- The scope so many levels out; there is none beyond the outermost, and then
the innermost serves. -/
def scopeAt (page : Page) (level : Nat) : Scope :=
  (page.scopes[level]?).getD page.innermost

def enter (page : Page) (scope : Scope) : Page :=
  { page with scopes := scope :: page.scopes }

/-- What a name stands for, and the scope that gives it. -/
def named? (page : Page) (name : String) : Option (Named × Scope) :=
  page.scopes.findSome? fun scope => (scope.names.lookup name).map fun named => (named, scope)

/-- What keys lead to in the data; none where they are refused. -/
def inData (page : Page) (keys : List String) : Option Found :=
  match page.data.follow keys with
  | .found value => some (.place value keys)
  | .absent => some .missing
  | .refused => none

/-- What keys lead to in a value that is no part of the data. -/
def inValue (value : Json) (keys : List String) : Option Found :=
  match value.follow keys with
  | .found value => some (.derived value)
  | .absent => some .missing
  | .refused => none

/-- What keys lead to from a scope. -/
def inScope (page : Page) (scope : Scope) (keys : List String) : Option Found :=
  match scope.own with
  | some value => inValue value keys
  | none => page.inData (scope.place ++ keys)

/-- The variable of the scope so many levels out. -/
def variableAt? (page : Page) (level : Nat) (name : String) : Option Json :=
  (page.scopes[level]?).bind fun scope => scope.locals.lookup name

def keysOf (steps : List Source.Step) : List String :=
  steps.filterMap fun
    | .key name => some name
    | _ => none

/-- What the steps of a path lead to, from some levels further out. A name
given by a block goes before the keys of the data. -/
def fromLevel (page : Page) (level : Nat) (steps : List Source.Step) : Option Found :=
  match steps with
  | .up :: rest => fromLevel page (level + 1) rest
  | .root :: rest => page.inData (keysOf rest)
  | .key name :: rest =>
    match page.named? name with
    | some (.value value, _) => inValue value (keysOf rest)
    | some (.here, scope) => page.inData (scope.place ++ keysOf rest)
    | none => page.inScope (page.scopeAt level) (keysOf steps)
  | steps => page.inScope (page.scopeAt level) (keysOf steps)

def current (page : Page) : Option Found := page.fromLevel 0 []

/-- The value of a variable, after steps that lead out of its level. Without a
name it is the value of the innermost scope. -/
def variableFrom (page : Page) (level : Nat) : List Source.Step → Option Found
  | .up :: rest => variableFrom page (level + 1) rest
  | .key name :: _ =>
    match page.variableAt? level name with
    | some value => some (.derived value)
    | none => some .missing
  | _ => page.current

/-- What a path leads to; none where the path cannot be followed. -/
def find (page : Page) (path : Source.Path) : Option Found :=
  match path.steps with
  | .variable :: rest => page.variableFrom 0 rest
  | steps => page.fromLevel 0 steps

end Page

/-- What is known about the place where a page is continued. -/
structure Pen where
  /-- The text written last ended a line. -/
  endsLine : Bool := false
  /-- Something was written since the last call or inclusion began. -/
  hasWritten : Bool := false
  /-- The next text starts with the indent. -/
  indents : Bool := false

namespace Pen

/-- The text with the indent after each of its line feeds but a last one. -/
def indentLines (indent : List Char) : List Char → List Char
  | [] => []
  | ['\n'] => ['\n']
  | '\n' :: rest => '\n' :: indent ++ indentLines indent rest
  | c :: rest => c :: indentLines indent rest

/-- Writes a text with an indent. An empty text writes nothing. -/
def write (pen : Pen) (indent text : String) : String × Pen :=
  match text.toList with
  | [] => (text, pen)
  | c :: rest =>
    let endsLine := ((c :: rest).getLast?).any Source.isLineEnd
    let pen' : Pen := ⟨endsLine, true, endsLine⟩
    if indent.isEmpty then (text, pen')
    else
      let before := if pen.indents && !Source.isLineEnd c then indent else ""
      (before ++ String.ofList (indentLines indent.toList (c :: rest)), pen')

/-- The pen at the start of a call or an inclusion. -/
def beginPart (pen : Pen) (indents : Bool) : Pen :=
  { pen with hasWritten := false, indents }

/-- The pen after a call or an inclusion, from the pens before it and at its
end: if nothing was written, nothing has changed. -/
def endPart (before after : Pen) : Pen :=
  if after.hasWritten then { after with indents := after.endsLine }
  else { after with hasWritten := before.hasWritten, indents := before.indents }

end Pen

end Stencil
