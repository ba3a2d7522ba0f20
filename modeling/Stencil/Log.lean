import Stencil.Text.Basic
import Stencil.Text.Outline
import Stencil.Value

/-!
Messages. Templates and helpers log through the logger of their environment.
Apart from that rendering leaves a trace of what it does, one diagnostic for
each step that matters to somebody who looks for a mistake.
-/

namespace Stencil

inductive Severity where
  | debug
  | info
  | warn
  | error
  deriving DecidableEq

namespace Severity

/-- The severity with a number; numbers beyond the last one are errors. -/
def ofNumber : Nat → Severity
  | 0 => .debug
  | 1 => .info
  | 2 => .warn
  | _ => .error

def number : Severity → Nat
  | .debug => 0
  | .info => 1
  | .warn => 2
  | .error => 3

def word : Severity → String
  | .debug => "debug"
  | .info => "info"
  | .warn => "warn"
  | .error => "error"

def outline : Severity → Outline
  | .debug => .word "Debug"
  | .info => .word "Info"
  | .warn => .word "Warn"
  | .error => .word "Error"

def sort (severities : List Severity) : List Severity :=
  severities.mergeSort fun a b => a.number ≤ b.number

end Severity

structure Message where
  severity : Severity
  text : String

/-- A receiver of messages; it keeps a message in its own form. -/
structure Logger where
  kept : String → String

namespace Logger

def standard : Logger := ⟨id⟩

/-- A logger of a host, which puts the host's mark before each message. -/
def hosted (mark : String) : Logger := ⟨fun text => mark ++ text⟩

def receive (logger : Logger) (severity : Severity) (text : String) : Message :=
  ⟨severity, logger.kept text⟩

end Logger

/-- A step of rendering that the trace tells of. -/
inductive Diagnostic where
  | rendering (depth : Nat)
  | depthExceeded (depth limit : Nat)
  | programCached (index : Nat)
  | compiling (name : String)
  | missingBlock (name : String)
  | outputExceeded (size limit : Nat)
  | unsettled
  | bridged (helpers partials : Nat)
  deriving DecidableEq

namespace Diagnostic

def severity : Diagnostic → Severity
  | .depthExceeded _ _ | .outputExceeded _ _ | .unsettled => .warn
  | _ => .debug

def text : Diagnostic → String
  | .rendering depth => "Rendering template depth=" ++ Text.numeral depth
  | .depthExceeded depth limit =>
    "Partial nesting depth " ++ Text.numeral depth ++ " exceeds limit of " ++ Text.numeral limit
  | .programCached index => "Program cache populated for block " ++ Text.numeral index
  | .compiling name => "Compiling partial " ++ name
  | .missingBlock name => "Missing block helper '" ++ name ++ "' rendered empty"
  | .outputExceeded size limit =>
    "Block output of " ++ Text.numeral size ++ " bytes exceeds limit of " ++ Text.numeral limit ++
      " bytes"
  | .unsettled =>
    "Lazy value did not settle, using null limit=" ++ Text.numeral maxLazyDepth
  | .bridged helpers partials =>
    "Bridged runtime registries into handlebars helpers=" ++ Text.numeral helpers ++
      " partials=" ++ Text.numeral partials

end Diagnostic

end Stencil
