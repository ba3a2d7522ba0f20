import Stencil.Text.Outline

/-!
Failures of rendering. Nothing recovers from a failure on its own: a helper, a
block or a partial that fails ends the whole render, and the failure reaches
whoever asked for it.
-/

namespace Stencil

/-- What lies behind a failure. -/
inductive Cause where
  /-- A message and nothing more. -/
  | text (message : String)
  | host (message : String)
  /-- The source of a template does not follow the grammar. -/
  | grammar
  /-- A template rendered from source failed. The reason is the message of the
  failure of a helper or a partial that it called, if that was why. -/
  | page (reason : Option String)
  deriving DecidableEq

namespace Cause

def message : Cause → String
  | .text message | .host message => message
  | .grammar => "the source does not follow the grammar"
  | .page reason => reason.getD "the source cannot be rendered"

def outline : Cause → Outline
  | .text message => .text message
  | .host message => .apply "Cause" [.text message]
  | .grammar => .word "Grammar"
  | .page reason => .apply "Page" [.option (reason.map .text)]

end Cause

inductive RenderError where
  /-- A plain reference to a helper that does not exist. -/
  | missingProperty (name : String)
  | missingPartial (name : String)
  /-- A partial is registered as source and there is no compiler. -/
  | compilationUnavailable (name : String)
  | compilation (name : String) (cause : Cause)
  /-- A helper or a generated program failed. -/
  | exception (message : String) (cause : Option Cause)
  | resourceLimit (limit : String) (message : String)
  | configuration
  deriving DecidableEq

namespace RenderError

def kind : RenderError → String
  | .missingProperty _ => "MissingProperty"
  | .missingPartial _ => "MissingPartial"
  | .compilationUnavailable _ => "PartialCompilationUnavailable"
  | .compilation _ _ => "PartialCompilation"
  | .exception _ _ => "Exception"
  | .resourceLimit _ _ => "ResourceLimit"
  | .configuration => "Configuration"

def message : RenderError → String
  | .missingProperty name => "Could not find property '" ++ name ++ "'"
  | .missingPartial name => "The partial " ++ name ++ " could not be found"
  | .compilationUnavailable name =>
    "The partial " ++ name ++ " could not be compiled when running in vm mode"
  | .compilation name cause =>
    "The partial " ++ name ++ " could not be compiled: " ++ cause.message
  | .exception message _ => message
  | .resourceLimit limit message => "Resource limit exceeded: " ++ limit ++ " - " ++ message
  | .configuration => "Invalid runtime configuration"

def cause? : RenderError → Option Cause
  | .compilation _ cause => some cause
  | .exception _ cause => cause
  | _ => none

def outline (e : RenderError) : Outline :=
  match e with
  | .missingProperty name | .missingPartial name | .compilationUnavailable name =>
    .record e.kind [("name", .text name)] false
  | .compilation name cause =>
    .record e.kind [("name", .text name), ("source", cause.outline)] false
  | .exception message cause =>
    .record e.kind [("message", .text message), ("source", .option (cause.map Cause.outline))] false
  | .resourceLimit limit message =>
    .record e.kind [("limit_type", .text limit), ("message", .text message)] false
  | .configuration => .word e.kind

/-- The failure of a template rendered from source. -/
def ofPage (reason : Option String) : RenderError :=
  .exception "Template rendering failed" (some (.page reason))

end RenderError

end Stencil
