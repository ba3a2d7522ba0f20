import Stencil.Compiler
import Stencil.Program.Slots
import Stencil.Registry
import Stencil.Settings.Basic

/-!
Templates, the environments they belong to, and what environments register:
helpers and partials. A template is made from a generated program or from a
source; it knows its environment for good. Registries belong to the store, and
an environment names its own by their numbers there.
-/

namespace Stencil

/-- The settings, the registries, the compiler and the logger that templates
share. -/
structure Environment where
  helpers : Nat
  partials : Nat
  settings : Settings
  compiler : Option Compiler
  logger : Logger

/-- A template. Copies of it share the programs kept under its identity. -/
structure Template where
  identity : Nat
  environment : Environment
  spec : Spec
  noop : Program

/-- A partial is a template, or a source that has not been compiled yet. -/
inductive Partial where
  | compiled (template : Template)
  | source (text : String)

namespace Partial

def isCompiled : Partial → Bool
  | .compiled _ => true
  | .source _ => false

def outline : Partial → Outline
  | .compiled _ => .word "Compiled(..)"
  | .source text => .apply "Source" [.text text]

end Partial

/-- The helpers that every environment starts with. -/
inductive Builtin where
  /-- Stands in for unknown helpers. -/
  | helperMissing
  /-- Renders blocks whose head is a value. -/
  | blockHelperMissing
  | each
  | ifTruthy
  | unless
  | within

namespace Builtin

def name : Builtin → String
  | .helperMissing => "helperMissing"
  | .blockHelperMissing => "blockHelperMissing"
  | .each => "each"
  | .ifTruthy => "if"
  | .unless => "unless"
  | .within => "with"

def all : List Builtin := [.helperMissing, .blockHelperMissing, .each, .ifTruthy, .unless, .within]

def ofName? (name : String) : Option Builtin :=
  all.find? fun helper => helper.name == name

end Builtin

inductive Action where
  | builtin (helper : Builtin)
  | nodes (body : List Node)

/-- A helper, and what its negation does if it has one. -/
structure Helper where
  action : Action
  negation : Option Action := none

/-- The registry of the helpers that every environment starts with. -/
def Builtin.registry : Registry Helper :=
  all.foldl (fun registry helper => registry.register helper.name ⟨.builtin helper, none⟩)
    .empty

/-- What the caller of a render supplies. Registries given here go before those
of the environment, also in the partials that are rendered. -/
structure RenderOptions where
  helpers : Option Nat := none
  partials : Option Nat := none
  data : Option Value := none
  depth : Nat := 0

namespace RenderOptions

/-- The options for a partial: one level deeper, and without the data. -/
def nested (options : RenderOptions) : RenderOptions :=
  { options with data := none, depth := options.depth + 1 }

end RenderOptions

structure Frame where
  template : Template
  options : RenderOptions

namespace Frame

def environment (frame : Frame) : Environment := frame.template.environment

def settings (frame : Frame) : Settings := frame.environment.settings

end Frame

/-- What a helper is called with besides its context. -/
structure HelperOptions where
  block : Option Program
  /-- The alternative; without one, the program that renders nothing. -/
  inverse : Program
  data : Option Value

namespace HelperOptions

/-- The options of a call without a block. -/
def ofFrame (frame : Frame) : HelperOptions := ⟨none, frame.template.noop, none⟩

def isBlock (options : HelperOptions) : Bool := options.block.isSome

/-- The options with block and alternative exchanged. -/
def swapped (options : HelperOptions) (frame : Frame) : HelperOptions :=
  { options with
    block := some options.inverse
    inverse := options.block.getD frame.template.noop }

end HelperOptions

end Stencil
