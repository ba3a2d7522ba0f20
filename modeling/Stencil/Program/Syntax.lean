import Stencil.Log
import Stencil.Value

/-!
Generated programs. A program is a list of nodes; its text is the texts of its
nodes one after another. Nodes show values, call helpers, render partials and
run the programs of nested blocks. Expressions stand for the values in scope.
-/

namespace Stencil

/-- The version of the conventions that generated programs follow. -/
def conventionVersion : String := "1.0.beta.2-yui"

mutual
/-- What stands for a value. A path leads into the value, and a value that is
not there is null. -/
inductive Expr where
  /-- The context of the template, the block or the helper. -/
  | this (path : Option String)
  /-- In a helper the scope of its caller, elsewhere the context. -/
  | scope (path : Option String)
  /-- The private data of the template or the block. -/
  | data (path : Option String)
  /-- The context of a level around the block. -/
  | ancestor (index : Nat) (path : Option String)
  /-- The private data that a helper was called with. -/
  | optionsData (path : Option String)
  | literal (value : Value)
  | hasData
  | nesting
  /-- A value with its deferral resolved. -/
  | resolved (value : Expr)
  | field (value : Expr) (key : String)
  /-- The text of a value, safe to show as it is. -/
  | safe (value : Expr)
  | rendered (nodes : List Node)
  /-- What the settings put in place of an unknown helper. -/
  | missingValue (name : String)

/-- What stands for the program of a block. -/
inductive ProgramExpr where
  /-- The program of a numbered block, which the template keeps. -/
  | cached (index : Nat) (body : List Node) (data : Option Expr)
  /-- A program with the contexts of the levels around it. -/
  | nested (body : List Node) (data : Option Expr) (depths : List Expr)
  | plain (body : List Node) (data : Option Expr)
  /-- The program of the template that renders nothing. -/
  | noop
  /-- The block that a helper was called with. -/
  | block
  /-- The alternative that a helper was called with. -/
  | inverse

/-- What a helper is called with besides its context. -/
inductive OptionsExpr where
  /-- New options, or those of the current helper, with a block, an alternative
  and data put in; then block and alternative may change places. -/
  | mk (inherits : Bool) (block inverse : Option ProgramExpr) (data : Option Expr) (swaps : Bool)

inductive Node where
  | text (text : String)
  /-- A value as it is shown in HTML. -/
  | escaped (value : Expr)
  | plain (value : Expr)
  | outlined (value : Expr)
  | call (name : String) (context : Expr) (options : OptionsExpr)
  /-- A block whose head is a value. -/
  | valueBlock (context : Expr) (options : OptionsExpr)
  | inclusion (name : String) (context : Expr)
  | run (program : ProgramExpr) (context : Expr) (data : Option Expr)
  | missing (name : String) (options : OptionsExpr)
  | missingBlock (name : String) (options : OptionsExpr)
  | negated (name : String) (context : Expr) (options : OptionsExpr)
  /-- A check of the bound on output. -/
  | budget (size : Nat)
  | log (severity : Severity) (message : String)
  | fail (message : String) (cause : Option String)
  | same (first second : ProgramExpr)
  /-- How many programs the template keeps. -/
  | cachedCount
  | hasHelper (name : String)
  | renderOptions
  | settings
  | outlinedOptions (options : OptionsExpr)
  | isBlock
  | renderBlock (context : Expr)
  | renderBlockWith (context : Expr) (data : Expr)
  | renderInverse (context : Expr)
  | ifTruthy (condition : Expr) (yes no : List Node)
  /-- A choice by the number of partials around this place. -/
  | ifShallow (depth : Nat) (yes no : List Node)
  /-- The text of nodes, or a note of how they failed. -/
  | attempt (nodes : List Node)
end

end Stencil
