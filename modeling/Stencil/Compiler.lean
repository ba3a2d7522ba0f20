import Stencil.Error
import Stencil.Program.Syntax
import Stencil.Source.Layout
import Stencil.Source.Tag

/-!
Compilers, and the one that reads template sources. A source is cut into texts and
tags, the blanks that tags take away are left out, and blocks are nested by their
opening and closing tags. A source with a tag that cannot be read, or with a block
that is not closed by its own name, is refused.

A compiler is code of the host, given to an environment; an environment without one
refuses partials given as source. The compiler of template sources stands for the
library that `Source.Basic` speaks of.
-/

namespace Stencil.Source

def startsTag (text : List Char) : Bool := openBraces.isPrefixOf text

/-- The text up to the next tag, and the rest. A backslash before braces makes
them text; of several backslashes before a tag one is left out. -/
def textPart : Nat → List Char → List Char × List Char
  | 0, text => ([], text)
  | _ + 1, [] => ([], [])
  | fuel + 1, '\\' :: rest =>
    let backslashes := rest.takeWhile (· == '\\')
    let after := rest.drop backslashes.length
    if startsTag rest then
      let braces := if startsTag (rest.drop 2) then rest.take 4 else rest.take 2
      let (more, left) := textPart fuel (rest.drop braces.length)
      (braces ++ more, left)
    else if backslashes ≠ [] ∧ startsTag after then (backslashes, after)
    else
      let (more, left) := textPart fuel rest
      ('\\' :: more, left)
  | fuel + 1, c :: rest =>
    if startsTag (c :: rest) then ([], c :: rest)
    else
      let (more, left) := textPart fuel rest
      (c :: more, left)

def pieces (depth : Nat) : Nat → List Char → Option (List Piece)
  | _, [] => some []
  | 0, _ => none
  | fuel + 1, text =>
    if startsTag text then
      match tag depth text with
      | some (tag, rest) => (pieces depth fuel rest).map (.tag tag :: ·)
      | none => none
    else
      let (part, rest) := textPart (text.length + 1) text
      (pieces depth fuel rest).map (.text part :: ·)

mutual
/-- The elements up to a tag that ends a part of a block, and the pieces from
there on. -/
def elements : Nat → List Piece → Option (List Element × List Piece)
  | _, [] => some ([], [])
  | 0, _ => none
  | fuel + 1, .text text :: rest => do
    let (others, left) ← elements fuel rest
    return (.text (String.ofList text) :: others, left)
  | fuel + 1, .tag tag :: rest =>
    match tag.kind with
    | .comment => elements fuel rest
    | .expression isRaw call => do
      let (others, left) ← elements fuel rest
      return (.expression isRaw call :: others, left)
    | .inclusion call indent => do
      let (others, left) ← elements fuel rest
      return (.inclusion call indent :: others, left)
    | .opening call names hasOwnLine =>
      match call.head with
      | .word name => do
        let (body, after) ← elements fuel rest
        let (alternative, after) ← blockEnd fuel name after
        let (others, left) ← elements fuel after
        return (.block call names hasOwnLine body alternative :: others, left)
      | _ => none
    | .closing _ | .alternative | .alternativeBlock _ _ _ => some ([], .tag tag :: rest)

/-- The alternative of a block, if it has one, up to its closing tag. -/
def blockEnd : Nat → String → List Piece → Option (Option (List Element) × List Piece)
  | 0, _, _ => none
  | fuel + 1, name, .tag tag :: rest =>
    match tag.kind with
    | .closing closed => if closed = name then some (none, rest) else none
    | .alternative => do
      let (body, after) ← elements fuel rest
      match after with
      | .tag ⟨.closing closed, _, _⟩ :: left =>
        if closed = name then some (some body, left) else none
      | _ => none
    | .alternativeBlock call names hasOwnLine => do
      let (body, after) ← elements fuel rest
      let (alternative, left) ← blockEnd fuel name after
      return (some [.block call names hasOwnLine body alternative], left)
    | _ => none
  | _, _, _ => none
end

/-- The elements of a source, if it follows the grammar. -/
def read? (source : String) : Option (List Element) :=
  let text := source.toList
  let bound := text.length + 1
  match pieces bound bound text with
  | none => none
  | some pieces =>
    match elements (2 * pieces.length + 1) (layout pieces) with
    | some (elements, []) => some elements
    | _ => none

end Stencil.Source

namespace Stencil

inductive Spec where
  | nodes (nodes : List Node)
  | page (elements : List Source.Element)

/-- Turns the source of a partial into what it renders, or refuses it. The
answer may depend on how many sources were given to compilers before, and with the
answer its part ends. A compiler renders nothing, it reads and changes no registry,
and it never hands out a template that is there already: what it answers becomes a
new template of the environment that it was asked for. -/
structure Compiler where
  answer : Nat → String → Except Cause Spec

/-- What a compiler makes of the first source that is given to one. -/
def Compiler.compile (compiler : Compiler) (source : String) : Except Cause Spec :=
  compiler.answer 0 source

end Stencil

namespace Stencil.Compiler

/-- Reads sources as pages. -/
def pages : Compiler where
  answer _ source :=
    match Source.read? source with
    | some elements => .ok (.page elements)
    | none => .error .grammar

/-- Shows the source itself, a colon and the context. A source that starts with
an exclamation mark is refused, the rest of it being the reason. -/
def echo : Compiler where
  answer _ source :=
    match source.toList with
    | '!' :: reason => .error (.text (String.ofList reason))
    | _ => .ok (.nodes [.text (source ++ ":"), .escaped (.this none)])

end Stencil.Compiler
