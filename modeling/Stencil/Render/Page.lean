import Stencil.Json.Writer
import Stencil.Page.Bridge
import Stencil.Render.Helpers

/-!
Pages: templates rendered from source. A failure of a page says that the page
could not be rendered; if a helper or a partial of the registries failed, its
message is the reason. What such a helper or partial gives is not escaped. How a
page goes through its elements is as in the library that `Source.Basic` speaks of;
`Page.Basic` tells which of its ways the results rest on.
-/

namespace Stencil

structure Arguments where
  plain : List Found
  named : List (String × Found)

/-- What a call on a page gives: a value, or text that is shown as it is. -/
inductive Yield where
  | value (value : Json)
  | output (text : String)

/-- The body of a block on a page, and the names that it gives. -/
structure Block where
  names : Option Source.BlockNames
  body : List Source.Element
  alternative : Option (List Source.Element)

namespace Page

def refuse {α : Type} : Render α := Render.fail (.ofPage none)

/-- A part of the render outside the page; a failure there is the reason why
the page fails. -/
def outside {α : Type} (action : Render α) : Render α :=
  action.mapError fun e => .ofPage (some e.message)

/-- The value that a page shows: text, escaped unless it is wanted raw. -/
def display (isRaw : Bool) (value : Json) : String :=
  if isRaw then value.shown else Text.escapeHtml value.shown

def renderSome (page : Page) (worker : Worker) : Option (List Source.Element) → Render String
  | some elements => worker (.page page elements)
  | none => pure ""

/-- The scope of one round of an iteration: it stands at the element if the
whole stands in the data, else it has the element as its own value. -/
def roundScope (whole : Found) (names : Option Source.BlockNames) (key : String) (keyValue : Json)
    (value : Json) (locals : List (String × Json)) : Scope :=
  let named : Named :=
    match whole.place? with
    | some _ => .here
    | none => .value value
  let given :=
    match names with
    | none => []
    | some ⟨name, none⟩ => [(name, named)]
    | some ⟨name, some keyName⟩ => [(keyName, .value keyValue), (name, named)]
  match whole.place? with
  | some place => { place := place ++ [key], names := given, locals }
  | none => { own := some value, names := given, locals }

/-- The body once for each key and value. The variables are the index of the
round, whether it is the first or the last one, and the key if it is wanted. -/
def renderRounds (page : Page) (worker : Worker) (whole : Found) (block : Block)
    (givesKey : Bool) (entries : List (String × Json × Json)) : Render String :=
  let last := entries.length - 1
  Render.concat (fun ((key, keyValue, value), i) =>
      let locals := [
        ("first", Json.bool (i == 0)),
        ("last", .bool (i == last)),
        ("index", .number (.ofNat i))]
      let locals := if givesKey then ("key", keyValue) :: locals else locals
      worker (.page (page.enter (roundScope whole block.names key keyValue value locals))
        block.body))
    entries.zipIdx

def renderEach (page : Page) (worker : Worker) (whole : Found) (block : Block) : Render String :=
  match whole.value with
  | .array (item :: rest) =>
    page.renderRounds worker whole block false
      ((item :: rest).zipIdx.map fun (value, i) => (Text.numeral i, .number (.ofNat i), value))
  | .object (field :: rest) =>
    page.renderRounds worker whole block true
      ((field :: rest).map fun (key, value) => (key, .string key, value))
  | _ => page.renderSome worker block.alternative

/-- The page inside a scope that shares the variables of the innermost one. -/
def enterWithin (page : Page) (scope : Scope) : Page :=
  page.enter { scope with locals := page.innermost.locals }

/-- The body with a value as its scope, where the value holds. -/
def renderWithin (page : Page) (worker : Worker) (found : Found) (block : Option Block) :
    Render String :=
  if found.value.holds false then
    match block with
    | none => pure ""
    | some block =>
      let given :=
        match block.names, found.place? with
        | some ⟨name, none⟩, some _ => [(name, Named.here)]
        | some ⟨name, none⟩, none => [(name, Named.value found.value)]
        | _, _ => []
      worker (.page (page.enterWithin { found.scope with names := given }) block.body)
  else page.renderSome worker (block.bind (·.alternative))

def callNative (page : Page) (worker : Worker) (helper : Native) (arguments : Arguments)
    (block : Option Block) : Render Yield :=
  match helper, arguments.plain with
  | .choose expected, found :: _ =>
    let countZero :=
      match arguments.named.lookup "includeZero" with
      | some given =>
        match given.value with
        | .bool b => b
        | _ => false
      | none => false
    let holds := found.value.holds countZero == expected
    Yield.output <$> page.renderSome worker
      (block.bind fun block => if holds then some block.body else block.alternative)
  | .each, found :: _ =>
    match block with
    | some block => Yield.output <$> page.renderEach worker found block
    | none => pure (.output "")
  | .within, found :: _ => Yield.output <$> page.renderWithin worker found block
  | .raw, _ => Yield.output <$> page.renderSome worker (block.map (·.body))
  | .log, _ =>
    if Native.acceptsLevel ((arguments.named.lookup "level").map (·.value)) then
      pure (.output "")
    else refuse
  | helper, plain =>
    match helper.value? (plain.map Found.value), helper, block with
    | some value, .equal true, some block =>
      Yield.output <$> page.renderSome worker
        (if value.holds false then some block.body else block.alternative)
    | some value, _, _ => pure (.value value)
    | none, _, _ => refuse

/-- What a call gives. A helper of the registries gets the data of the page as
its scope, and its first argument or else that data as its context. -/
def call (page : Page) (reuse : Reuse) (worker : Worker) (callee : Callee) (arguments : Arguments)
    (block : Option Block) : Render Yield :=
  match callee with
  | .native helper => page.callNative worker helper arguments block
  | .registered name => do
    let scope := Value.ofJson page.data
    let context := Value.ofJson ((arguments.plain.head?.map (·.value)).getD page.data)
    let text ← outside
      (page.frame.callHelper worker name scope context (.ofFrame page.frame))
    return .output text
  | .dispatcher =>
    match arguments.plain.map Found.value with
    | .string name :: rest => do
      let context := Value.ofJson (rest.headD page.data)
      let text ← outside (page.frame.invokePartial reuse worker name context)
      return .output text
    | _ => Render.fail (.ofPage (some "partial name missing"))

/-- What a name calls on the page; unknown names fail. -/
def callee (page : Page) (name : String) : Render Callee := do
  let callee ← Render.look (callee? · page.frame name)
  Render.ofOption (.ofPage none) callee

mutual
def operand (page : Page) (reuse : Reuse) (worker : Worker) : Source.Operand → Render Found
  | .word _ => pure .missing
  | .path path => Render.ofOption (.ofPage none) (page.find path)
  | .literal value => pure (.literal value)
  | .call call => page.nestedCall reuse worker call
termination_by structural o => o

/-- The value of a call in parentheses; the text of a helper counts as a
string. -/
def nestedCall (page : Page) (reuse : Reuse) (worker : Worker) : Source.Call → Render Found
  | .mk head plain named => do
    let name ← page.headName reuse worker head
    let plain ← page.operands reuse worker plain
    let named ← page.namedOperands reuse worker named
    let callee ← page.callee name
    match ← page.call reuse worker callee ⟨plain, named⟩ none with
    | .value value => return .derived value
    | .output text => return .derived (.string text)
termination_by structural c => c

/-- The name that the head of a call stands for. -/
def headName (page : Page) (reuse : Reuse) (worker : Worker) : Source.Operand → Render String
  | .word name => pure name
  | .path path => pure path.written
  | .literal value => pure value.shown
  | .call call => do
    let found ← page.nestedCall reuse worker call
    return found.value.shown
termination_by structural o => o

def operands (page : Page) (reuse : Reuse) (worker : Worker) :
    List Source.Operand → Render (List Found)
  | [] => pure []
  | o :: rest => do
    let found ← page.operand reuse worker o
    let others ← page.operands reuse worker rest
    return found :: others
termination_by structural os => os

def namedOperands (page : Page) (reuse : Reuse) (worker : Worker) :
    List (String × Source.Operand) → Render (List (String × Found))
  | [] => pure []
  | (name, o) :: rest => do
    let found ← page.operand reuse worker o
    let others ← page.namedOperands reuse worker rest
    return (name, found) :: others
termination_by structural os => os
end

def arguments (page : Page) (reuse : Reuse) (worker : Worker) (call : Source.Call) :
    Render Arguments := do
  let plain ← page.operands reuse worker call.arguments
  let named ← page.namedOperands reuse worker call.named
  return ⟨plain, named⟩

def write (page : Page) (text : String) : Render String :=
  Render.take fun store =>
    let (written, pen) := store.pen.write page.indent text
    (written, { store with pen })

/-- A part of the page that may write or not; `indents` tells from the pen
before it whether its first text starts with the indent. -/
def part (indents : Pen → Bool) (action : Render String) : Render String := do
  let before ← Render.look (·.pen)
  Render.update fun store => { store with pen := before.beginPart (indents before) }
  let text ← action
  Render.update fun store => { store with pen := before.endPart store.pen }
  return text

/-- A call in place. A value is written; what a block or a helper of the
registries gives stands there already. -/
def renderCall (page : Page) (hasOwnLine isRaw : Bool) (yield : Render Yield) : Render String :=
  part (fun pen => pen.indents || (hasOwnLine && pen.endsLine)) do
    match ← yield with
    | .value value => page.write (display isRaw value)
    | .output text => return text

/-- A value or a call in place. A name alone is a call if it is the name of a
helper, else a value; what is not there shows nothing. -/
def renderExpression (page : Page) (reuse : Reuse) (worker : Worker) (isRaw : Bool)
    (call : Source.Call) : Render String := do
  let name ← page.headName reuse worker call.head
  let known ← Render.look (callee? · page.frame name)
  if call.isBare && known.isNone then
    match ← page.operand reuse worker call.head with
    | .missing => return ""
    | found => page.write (display isRaw found.value)
  else
    let name ← page.headName reuse worker call.head
    let arguments ← page.arguments reuse worker call
    let callee ← page.callee name
    page.renderCall false isRaw (page.call reuse worker callee arguments none)

def renderBlock (page : Page) (reuse : Reuse) (worker : Worker) (call : Source.Call)
    (hasOwnLine : Bool) (block : Block) : Render String := do
  let name ← page.headName reuse worker call.head
  let arguments ← page.arguments reuse worker call
  let callee ← page.callee name
  page.renderCall hasOwnLine false (page.call reuse worker callee arguments (some block))

/-- A partial in place. Inside the scopes of the page it has one of its own: the
first argument or else the value of the innermost scope, with the named
arguments put over it. -/
def renderInclusion (page : Page) (reuse : Reuse) (worker : Worker) (call : Source.Call)
    (indent : Source.Indent) : Render String := do
  let name ← page.headName reuse worker call.head
  let arguments ← page.arguments reuse worker call
  let found ← Render.look (partial? · page name)
  let elements ← Render.ofOption (.ofPage none) found
  let base : Found ←
    match arguments.plain.head? with
    | some found => pure found
    | none => Render.ofOption (.ofPage none) page.current
  let own := base.value.merge (arguments.named.map fun (key, found) => (key, found.value))
  let inside :=
    { page.enterWithin { own := some own } with indent := page.indent ++ indent.blanks }
  part (fun pen => indent.hasOwnLine && (pen.endsLine || !indent.blanks.isEmpty))
    (worker (.page inside elements))

def renderElement (page : Page) (reuse : Reuse) (worker : Worker) :
    Source.Element → Render String
  | .text text => page.write text
  | .expression isRaw call => page.renderExpression reuse worker isRaw call
  | .block call names hasOwnLine body alternative =>
    page.renderBlock reuse worker call hasOwnLine ⟨names, body, alternative⟩
  | .inclusion call indent => page.renderInclusion reuse worker call indent

/-- Fails if a partial that the page could refer to has a name that cannot be
written in a source. -/
def checkPartials : List String → Render Unit
  | [] => pure ()
  | name :: rest =>
    match standIn? name with
    | some _ => checkPartials rest
    | none =>
      Render.fail (.exception ("Partial " ++ name ++ " could not be bridged") (some .grammar))

def render (worker : Worker) (frame : Frame) (elements : List Source.Element) (context : Value) :
    Render String := do
  let helpers ← Render.look (helperNames · frame)
  let partials ← Render.look (partialNames · frame)
  checkPartials partials
  Render.note (.bridged helpers.length partials.length)
  let (data, tally) := context.toJson
  Render.update (·.tally tally)
  Render.withPen (worker (.page (.start frame elements data) elements))

end Page

end Stencil
