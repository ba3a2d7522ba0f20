import Stencil.Json.Basic

/-!
Template sources as trees. A source is text with tags in double braces: values
to show, calls of helpers, blocks with a body and perhaps an alternative, and
inclusions of partials. Comments leave nothing behind.

The language is that of handlebars, and it is no part of the engine: a library
outside reads its sources and renders its pages. The modules under `Source`, with
the reader in `Compiler`, and those under `Page`, with `Render.Page`, model that
library as it is documented, and they model it in full, so that any source can be
run. The results rest on little of the reading, all of it in `Proofs.Reading`: what
a tag with one word is, with one word and a word or a quoted text behind it, and
with an inclusion of one word; that such a tag is refused if the quoted text is not
that of a JSON string; and that words which begin with `else` are read otherwise.
Everything else that is proved of pages holds for all trees of elements, whatever
they were read from.
-/

namespace Stencil.Source

inductive Step where
  /-- `@root`, the data of the whole page. -/
  | root
  /-- `..`, the level outside. -/
  | up
  /-- `@`, a variable that a block sets. -/
  | variable
  /-- A key or an index. -/
  | key (name : String)
  deriving DecidableEq

/-- A path as it is written, and its steps. -/
structure Path where
  written : String
  steps : List Step

mutual
/-- What stands for a value in a tag. -/
inductive Operand where
  /-- The name of a helper that is called with arguments. -/
  | word (name : String)
  | path (path : Path)
  | literal (value : Json)
  | call (call : Call)

/-- A name with its arguments, some of them named. -/
inductive Call where
  | mk (head : Operand) (arguments : List Operand) (named : List (String × Operand))
end

namespace Call

def head : Call → Operand
  | .mk head _ _ => head

def arguments : Call → List Operand
  | .mk _ arguments _ => arguments

def named : Call → List (String × Operand)
  | .mk _ _ named => named

def isBare (call : Call) : Bool :=
  call.arguments.isEmpty && call.named.isEmpty

end Call

/-- Names that a block gives to the value it runs on, and to its key. -/
structure BlockNames where
  value : String
  key : Option String

/-- What the lines of an included partial start with. -/
structure Indent where
  /-- The blanks before the inclusion in its line. -/
  blanks : String := ""
  /-- Whether the inclusion has a line for itself, so that the first line of
  the partial is indented too. -/
  hasOwnLine : Bool := false

inductive Element where
  | text (text : String)
  /-- A value or a call in place; a raw one is not escaped. -/
  | expression (isRaw : Bool) (call : Call)
  /-- A block; `hasOwnLine` tells that its first tag has a line for itself. -/
  | block (call : Call) (names : Option BlockNames) (hasOwnLine : Bool) (body : List Element)
    (alternative : Option (List Element))
  | inclusion (call : Call) (indent : Indent)

/-- What a tag does, apart from the blanks around it. -/
inductive TagKind where
  | expression (isRaw : Bool) (call : Call)
  | opening (call : Call) (names : Option BlockNames) (hasOwnLine : Bool)
  | closing (name : String)
  | alternative
  | alternativeBlock (call : Call) (names : Option BlockNames) (hasOwnLine : Bool)
  | inclusion (call : Call) (indent : Indent)
  | comment

/-- A tag, and whether it takes away the blanks before and after it. -/
structure Tag where
  kind : TagKind
  trimsBefore : Bool
  trimsAfter : Bool

/-- A source is a sequence of texts and tags. -/
inductive Piece where
  | text (text : List Char)
  | tag (tag : Tag)

end Stencil.Source
