import Stencil.Render.Basic

/-!
Helpers and partials. A helper is called with the scope of its caller, a context
and options. The built-in ones render the block or the alternative that they were
called with; a helper of the user runs its nodes. A reference to a name that no
registry knows goes to the helper that stands in for unknown ones.

A partial is rendered as a template of its own, one level deeper. A source is
compiled when the partial is first referred to, and the template takes the place of
the source in the registry where it was found.
-/

namespace Stencil

/-- The text of a program for a context and data. -/
def Program.render (program : Program) (worker : Worker) (frame : Frame) (context : Value)
    (data : Option Value) : Render String :=
  worker (.nodes ⟨frame, context, context, program.dataFor data, program.depths, none⟩
    program.body)

namespace HelperOptions

/-- The text of the block; nothing if there is none. -/
def renderBlock (options : HelperOptions) (worker : Worker) (frame : Frame) (context : Value) :
    Render String :=
  match options.block with
  | some block => block.render worker frame context none
  | none => pure ""

def renderInverse (options : HelperOptions) (worker : Worker) (frame : Frame) (context : Value) :
    Render String :=
  options.inverse.render worker frame context none

end HelperOptions

namespace Frame

/-- Fails if a text of so many bytes is above the bound of the settings. -/
def checkOutput (frame : Frame) (size : Nat) : Render Unit :=
  match frame.settings.maxOutputBytes with
  | some limit =>
    if limit < size then do
      Render.note (.outputExceeded size limit)
      Render.fail (.resourceLimit "output_size"
        ("Block output " ++ Text.numeral size ++ " bytes exceeds limit of " ++
          Text.numeral limit ++ " bytes"))
    else pure ()
  | none => pure ()

/-- What stands in for a plain reference to an unknown helper. -/
def resolveMissingValue (frame : Frame) (name : String) : Render Value :=
  match frame.settings.missing with
  | .asymmetric | .fail => Render.fail (.missingProperty name)
  | .empty => pure .null

/-- What stands in for a block of an unknown helper. -/
def resolveMissingBlock (frame : Frame) (name : String) : Render String :=
  match frame.settings.missing with
  | .fail => Render.fail (.missingProperty name)
  | .asymmetric | .empty => do
    Render.note (.missingBlock name)
    return ""

/-- What stands in for a call of an unknown helper. -/
def resolveMissing (frame : Frame) (name : String) (options : HelperOptions) : Render String :=
  if options.isBlock then frame.resolveMissingBlock name
  else do
    let value ← frame.resolveMissingValue name
    return value.escape

/-- The texts of the block for items, one after another. After each item the
text so far is held against the bound of the settings. -/
def renderEach (frame : Frame) (worker : Worker) (options : HelperOptions) (items : List Value) :
    Render String :=
  go "" items
where
  go (soFar : String) : List Value → Render String
    | [] => pure soFar
    | item :: rest => do
      let text ← options.renderBlock worker frame item
      let soFar := soFar ++ text
      frame.checkOutput soFar.utf8ByteSize
      go soFar rest

/-- A block whose head is a value that is not deferred: true shows the block,
false and nothing show the alternative, an array is iterated, and anything else
becomes the context of the block. -/
def renderValueBlock (frame : Frame) (worker : Worker) (scope context : Value)
    (options : HelperOptions) : Render String :=
  match context with
  | .bool true => options.renderBlock worker frame scope
  | .bool false | .null => options.renderInverse worker frame scope
  | .array [] => options.renderInverse worker frame scope
  | .array items => frame.renderEach worker options items
  | other => options.renderBlock worker frame other

/-- The block where the context holds, else the alternative. -/
def renderIf (frame : Frame) (worker : Worker) (scope context : Value) (options : HelperOptions) :
    Render String :=
  if !context.isTruthy || context.isEmpty then options.renderInverse worker frame scope
  else options.renderBlock worker frame scope

end Frame

def Builtin.call (helper : Builtin) (worker : Worker) (frame : Frame) (scope context : Value)
    (options : HelperOptions) : Render String :=
  match helper with
  | .helperMissing => frame.resolveMissing context.text options
  | .blockHelperMissing =>
    if context.isLazy then do
      let resolved ← Render.resolve context
      frame.renderValueBlock worker scope resolved options
    else frame.renderValueBlock worker scope context options
  | .each =>
    match context with
    | .array (item :: rest) => frame.renderEach worker options (item :: rest)
    | _ => options.renderInverse worker frame scope
  | .ifTruthy => frame.renderIf worker scope context options
  | .unless => frame.renderIf worker scope context (options.swapped frame)
  | .within => options.renderBlock worker frame context

def Action.call (action : Action) (worker : Worker) (frame : Frame) (scope context : Value)
    (options : HelperOptions) : Render String :=
  match action with
  | .builtin helper => helper.call worker frame scope context options
  | .nodes body => worker (.nodes ⟨frame, context, scope, none, [], some options⟩ body)

namespace Frame

/-- A helper of the override registry, else of the environment. -/
def helper? (frame : Frame) (name : String) : Render (Option Helper) :=
  Render.look (·.helper? frame name)

/-- The text of the helper of a name. An unknown name is the context of the
helper for unknown ones. -/
def callHelper (frame : Frame) (worker : Worker) (name : String) (scope context : Value)
    (options : HelperOptions) : Render String := do
  match ← frame.helper? name with
  | some helper => helper.action.call worker frame scope context options
  | none =>
    match ← frame.helper? Builtin.helperMissing.name with
    | some helper => helper.action.call worker frame scope (.string name) options
    | none => frame.resolveMissing name options

/-- The text of a block whose head is a value. -/
def blockHelperMissing (frame : Frame) (worker : Worker) (scope context : Value)
    (options : HelperOptions) : Render String := do
  match ← frame.helper? Builtin.blockHelperMissing.name with
  | some helper => helper.action.call worker frame scope context options
  | none => Builtin.blockHelperMissing.call worker frame scope context options

end Frame

namespace Render

/-- Makes a template of an environment. -/
def newTemplate (environment : Environment) (spec : Spec) : Render Template :=
  Render.take (·.newTemplate environment spec)

/-- Compiles the source of a partial of a registry for an environment. -/
def compile (environment : Environment) (registry : Nat) (name source : String) :
    Render Template :=
  match environment.compiler with
  | none => Render.fail (.compilationUnavailable name)
  | some compiler => do
    Render.note (.compiling name)
    match compiler.answer (← Render.look (·.attempts)) source with
    | .error cause =>
      Render.update (·.compiled ⟨registry, name, false⟩)
      Render.fail (.compilation name cause)
    | .ok spec =>
      Render.update (·.compiled ⟨registry, name, true⟩)
      Render.newTemplate environment spec

/-- The template of a partial that was looked up under a name in a registry. -/
def partialTemplate (reuse : Reuse) (entry : Option Partial) (name : String) (registry : Nat)
    (environment : Environment) : Render Template :=
  match entry with
  | none => Render.fail (.missingPartial name)
  | some (.compiled template) => pure template
  | some (.source source) => do
    let template ← Render.compile environment registry name source
    if reuse.partials then
      Render.update (·.registerPartial registry name (.compiled template))
    return template

/-- The text of a partial that was looked up under a name in a registry. -/
def invokePartial (reuse : Reuse) (worker : Worker) (entry : Option Partial) (name : String)
    (context : Value) (options : RenderOptions) (registry : Nat) (environment : Environment) :
    Render String := do
  let template ← Render.partialTemplate reuse entry name registry environment
  worker (.template template context options)

end Render

/-- The template of the partial of a name. The override registry goes before the
one of the environment. -/
def Frame.partialTemplate (frame : Frame) (reuse : Reuse) (name : String) : Render Template := do
  let registry ← Render.look (·.partialHome frame name)
  let entry ← Render.look fun store => (store.partialsOf registry).get? name
  Render.partialTemplate reuse entry name registry frame.environment

/-- The text of the partial of a name. -/
def Frame.invokePartial (frame : Frame) (reuse : Reuse) (worker : Worker) (name : String)
    (context : Value) : Render String := do
  let template ← frame.partialTemplate reuse name
  worker (.template template context frame.options.nested)

end Stencil
