import Stencil.Render.Helpers

/-!
The nodes of generated programs. Expressions are evaluated from the inside to
the outside and from left to right; the program of a block is made where it is
written, with the data and the contexts that it has there.
-/

namespace Stencil

/-- The part of a value that a path leads to; nothing there is null. -/
def Value.at (v : Value) : Option String → Value
  | none => v
  | some path => (v.lookup? path).getD .null

namespace Render

def freshProgram : Render Nat :=
  Render.take fun store =>
    (store.freshProgram, { store with freshProgram := store.freshProgram + 1 })

/-- A program that no slot keeps. -/
def newProgram (body : List Node) (data : Option Value) (depths : List Value) : Render Program := do
  let identity ← freshProgram
  return ⟨identity, body, data, depths⟩

/-- Asks the slots of a template for the program of a block. -/
def requestProgram (template : Template) (index : Nat) (body : List Node) (data : Option Value) :
    Render Program := do
  let answer ← Render.look fun store =>
    (store.slotsOf template).request store.freshProgram index body data
  Render.update fun store =>
    { store with
      slots := store.slots.set template.identity answer.slots
      freshProgram := answer.fresh }
  if answer.filled then Render.note (.programCached index)
  return answer.program

end Render

namespace Scene

def value (scene : Scene) (worker : Worker) : Expr → Render Value
  | .this path => pure (scene.this.at path)
  | .scope path => pure (scene.scope.at path)
  | .data path => pure ((scene.data.getD .null).at path)
  | .ancestor index path => pure ((scene.depths[index]?.getD .null).at path)
  | .optionsData path => pure (((scene.options.bind (·.data)).getD .null).at path)
  | .literal value => pure value
  | .hasData => pure (.bool scene.data.isSome)
  | .nesting => pure (.number (.ofNat scene.frame.options.depth))
  | .resolved e => do
    let v ← scene.value worker e
    Render.resolve v
  | .field e key => do
    let v ← scene.value worker e
    return (v.get? key).getD .null
  | .safe e => do
    let v ← scene.value worker e
    return .safe v.text
  | .rendered nodes => do
    let text ← worker (.nodes scene nodes)
    return .string text
  | .missingValue name => scene.frame.resolveMissingValue name
termination_by structural e => e

def value? (scene : Scene) (worker : Worker) : Option Expr → Render (Option Value)
  | none => pure none
  | some e => some <$> scene.value worker e

/-- The program that an expression stands for. -/
def program (scene : Scene) (reuse : Reuse) (worker : Worker) : ProgramExpr → Render Program
  | .cached index body data => do
    let data ← scene.value? worker data
    if reuse.programs then Render.requestProgram scene.frame.template index body data
    else Render.newProgram body (data.filter Value.isTruthy) []
  | .nested body data depths => do
    let data ← scene.value? worker data
    let depths ← depths.mapM (scene.value worker)
    Render.newProgram body data depths
  | .plain body data => do
    let data ← scene.value? worker data
    Render.newProgram body data []
  | .noop => pure scene.frame.template.noop
  | .block => pure ((scene.options.bind (·.block)).getD scene.frame.template.noop)
  | .inverse => pure ((scene.options.map (·.inverse)).getD scene.frame.template.noop)

def program? (scene : Scene) (reuse : Reuse) (worker : Worker) :
    Option ProgramExpr → Render (Option Program)
  | none => pure none
  | some p => some <$> scene.program reuse worker p

/-- What a helper is called with. -/
def helperOptions (scene : Scene) (reuse : Reuse) (worker : Worker) :
    OptionsExpr → Render HelperOptions
  | .mk inherits block inverse data swaps => do
    let fresh := HelperOptions.ofFrame scene.frame
    let base := if inherits then scene.options.getD fresh else fresh
    let block ← scene.program? reuse worker block
    let inverse ← scene.program? reuse worker inverse
    let data ← scene.value? worker data
    let options : HelperOptions :=
      ⟨block.or base.block, inverse.getD base.inverse, data.or base.data⟩
    return if swaps then options.swapped scene.frame else options

def node (scene : Scene) (reuse : Reuse) (worker : Worker) (node : Node) : Render String :=
  let frame := scene.frame
  match node with
  | .text text => pure text
  | .escaped e => Value.escape <$> scene.value worker e
  | .plain e => Value.text <$> scene.value worker e
  | .outlined e => (fun v => v.outline.compact) <$> scene.value worker e
  | .call name e o => do
    let context ← scene.value worker e
    let options ← scene.helperOptions reuse worker o
    frame.callHelper worker name scene.scope context options
  | .valueBlock e o => do
    let context ← scene.value worker e
    let options ← scene.helperOptions reuse worker o
    frame.blockHelperMissing worker scene.scope context options
  | .inclusion name e => do
    let context ← scene.value worker e
    frame.invokePartial reuse worker name context
  | .run p e d => do
    let data ← scene.value? worker d
    let program ← scene.program reuse worker p
    let context ← scene.value worker e
    program.render worker frame context data
  | .missing name o => do
    let options ← scene.helperOptions reuse worker o
    frame.resolveMissing name options
  | .missingBlock name o => do
    let _ ← scene.helperOptions reuse worker o
    frame.resolveMissingBlock name
  | .negated name e o => do
    match ← frame.helper? name with
    | none => return "(unknown)"
    | some ⟨_, none⟩ => return "(none)"
    | some ⟨_, some negation⟩ =>
      let context ← scene.value worker e
      let options ← scene.helperOptions reuse worker o
      negation.call worker frame scene.scope context options
  | .budget size => do
    frame.checkOutput size
    return ""
  | .log severity message => do
    Render.update (·.log frame.environment severity message)
    return ""
  | .fail message cause => Render.fail (.exception message (cause.map Cause.host))
  | .same p q => do
    let first ← scene.program reuse worker p
    let second ← scene.program reuse worker q
    return if first.identity = second.identity then "true" else "false"
  | .cachedCount => do
    let slots ← Render.look (·.slotsOf frame.template)
    return Text.numeral slots.size
  | .hasHelper name => do
    let helper ← frame.helper? name
    return if helper.isSome then "true" else "false"
  | .renderOptions => Render.look fun store => (frame.options.outline store).compact
  | .settings => pure frame.settings.outline.compact
  | .outlinedOptions o => do
    let options ← scene.helperOptions reuse worker o
    return options.outline.compact
  | .isBlock => pure (if scene.options.any (·.isBlock) then "true" else "false")
  | .renderBlock e => do
    let context ← scene.value worker e
    match scene.options with
    | some options => options.renderBlock worker frame context
    | none => return ""
  | .renderBlockWith e d => do
    let data ← scene.value worker d
    match scene.options.bind (·.block) with
    | some block =>
      let context ← scene.value worker e
      block.render worker frame context (some data)
    | none => return ""
  | .renderInverse e => do
    let context ← scene.value worker e
    match scene.options with
    | some options => options.renderInverse worker frame context
    | none => return ""
  | .ifTruthy e yes no => do
    let condition ← scene.value worker e
    worker (.nodes scene (if condition.isTruthy then yes else no))
  | .ifShallow depth yes no =>
    worker (.nodes scene (if frame.options.depth < depth then yes else no))
  | .attempt nodes =>
    Render.recover (fun e => "<" ++ e.kind ++ ": " ++ e.message ++ ">")
      (worker (.nodes scene nodes))

end Scene

end Stencil
