import Stencil.Json.Basic
import Stencil.Text.Basic
import Stencil.Text.Outline

/-!
Settings of an environment: what a reference to an unknown helper means, how
deep partials may nest, and how much text one iteration may produce.
-/

namespace Stencil

/-- What a reference to an unknown helper means. -/
inductive MissingPolicy where
  /-- A plain reference fails, a block renders nothing. -/
  | asymmetric
  /-- Plain references and blocks both fail. -/
  | fail
  /-- A plain reference is null, a block renders nothing. -/
  | empty
  deriving DecidableEq

namespace MissingPolicy

/-- The word for a policy in settings files. -/
def word : MissingPolicy → String
  | .asymmetric => "asymmetric"
  | .fail => "fail"
  | .empty => "empty"

def ofWord? (text : String) : Option MissingPolicy :=
  [asymmetric, fail, empty].find? fun policy => policy.word == text

def name : MissingPolicy → String
  | .asymmetric => "Asymmetric"
  | .fail => "Fail"
  | .empty => "Empty"

end MissingPolicy

def defaultMaxPartialDepth : Nat := 64

structure Settings where
  missing : MissingPolicy := .asymmetric
  /-- How many partials may be open inside each other. -/
  maxPartialDepth : Nat := defaultMaxPartialDepth
  /-- How many bytes one iteration may produce; none is no bound. -/
  maxOutputBytes : Option Nat := none
  deriving DecidableEq

namespace Settings

def outline (s : Settings) : Outline :=
  .record "RuntimeConfig" [
    ("missing_helper", .word s.missing.name),
    ("max_partial_depth", .word (Text.numeral s.maxPartialDepth)),
    ("max_output_bytes", .option (s.maxOutputBytes.map fun n => .word (Text.numeral n)))] false

/-- The settings as JSON; a bound that is not set is left out. -/
def toJson (s : Settings) : Json :=
  let always := [
    ("missing_helper", Json.string s.missing.word),
    ("max_partial_depth", .number (.ofNat s.maxPartialDepth))]
  .object (orderFields (always ++
    (s.maxOutputBytes.map fun n => ("max_output_bytes", Json.number (.ofNat n))).toList))

end Settings

end Stencil
