import Stencil.Source.Basic

/-!
Blanks around tags. A tilde takes away all blanks and line ends on its side of
a tag. A tag that shows nothing itself and has a line for itself takes away the
blanks before it and the line end after it. A line for itself begins with the
text or after a line end, and ends with a line end or with the text. The blanks
directly before an inclusion are kept with it, for the lines of the partial. These
are rules of the library that `Source.Basic` speaks of. The sources that the results
read are single tags, and of the rules they use one: such a tag has a line for
itself.
-/

namespace Stencil.Source

def isInlineBlank (c : Char) : Bool := c == ' ' || c == '\t'

def isLineEnd (c : Char) : Bool := c == '\n' || c == '\r'

def isWhite (c : Char) : Bool :=
  let code := c.toNat
  (0x09 ≤ code && code ≤ 0x0D) || code == 0x20 || code == 0x85 || code == 0xA0 ||
  code == 0x1680 || (0x2000 ≤ code && code ≤ 0x200A) || code == 0x2028 || code == 0x2029 ||
  code == 0x202F || code == 0x205F || code == 0x3000

def dropLastWhile (p : Char → Bool) (text : List Char) : List Char :=
  (text.reverse.dropWhile p).reverse

def takeLastWhile (p : Char → Bool) (text : List Char) : List Char :=
  (text.reverse.takeWhile p).reverse

def dropLineEnd : List Char → List Char
  | '\r' :: '\n' :: rest => rest
  | '\n' :: rest => rest
  | text => text

/-- Whether the last line of a text is blank; `isFirst` tells that the source
begins with it. -/
def endsInBlankLine (isFirst : Bool) (text : List Char) : Bool :=
  match (dropLastWhile isInlineBlank text).getLast? with
  | none => isFirst
  | some c => isLineEnd c

/-- Whether the first line of a text is blank and has an end. -/
def startsWithBlankLine (text : List Char) : Bool :=
  match (text.dropWhile isInlineBlank).head? with
  | none => false
  | some c => isLineEnd c

/-- Whether a tag may have a line for itself. -/
def Tag.canStandAlone (tag : Tag) : Bool :=
  match tag.kind with
  | .expression _ _ => false
  | _ => true

/-- The tag with what it has to know about the line it stands in. What a tilde
takes away is no part of that line any more. -/
def Tag.placed (tag : Tag) (standsAlone : Bool) (blanks : List Char) : Tag :=
  let hasOwnLine := standsAlone && !tag.trimsBefore
  match tag.kind with
  | .opening call names _ => { tag with kind := .opening call names hasOwnLine }
  | .alternativeBlock call names _ => { tag with kind := .alternativeBlock call names hasOwnLine }
  | .inclusion call _ =>
    let blanks := if tag.trimsBefore then [] else blanks
    { tag with kind := .inclusion call ⟨String.ofList blanks, hasOwnLine⟩ }
  | _ => tag

/-- Whether the line ends before the pieces: there are none, or they start with
a text whose first line is blank. -/
def lineEndsAfter : List Piece → Bool
  | [] => true
  | .text text :: _ => startsWithBlankLine text
  | _ => false

/-- What the tags passed so far do to the text after them. -/
structure Margin where
  /-- All blanks and line ends at the start go. -/
  trims : Bool
  /-- Blanks at the start and one line end go. -/
  endsLine : Bool

/-- What stands directly before a place in the source. -/
inductive Before where
  | start
  | text (isFirst : Bool) (written : List Char)
  | tag

def Before.blanks : Before → List Char
  | .text _ written => takeLastWhile isInlineBlank written
  | _ => []

/-- Whether the line is blank up to a place in the source. -/
def Before.isBlankLine : Before → Bool
  | .start => true
  | .text isFirst written => endsInBlankLine isFirst written
  | .tag => false

def trimStart (margin : Margin) (text : List Char) : List Char :=
  if margin.trims then text.dropWhile isWhite
  else if margin.endsLine then dropLineEnd (text.dropWhile isInlineBlank)
  else text

/-- The end of a text before the piece that follows; `standsAlone` tells of a
tag whether it has a line for itself. -/
def trimEnd (next : Option Tag) (standsAlone : Bool) (text : List Char) : List Char :=
  match next with
  | none => text
  | some tag =>
    let text := if tag.trimsBefore then dropLastWhile isWhite text else text
    if standsAlone then dropLastWhile isInlineBlank text else text

/-- The margin after a text. A text of blanks that a tilde takes away leaves
the line of the tag before it open. -/
def Margin.afterText (margin : Margin) (text : List Char) : Margin :=
  let isGone := margin.trims && text.all fun c => isInlineBlank c || isLineEnd c
  { margin with endsLine := isGone && margin.endsLine }

def Margin.afterTag (margin : Margin) (tag : Tag) (standsAlone : Bool) : Margin :=
  { trims := match tag.kind with
      | .comment => margin.trims
      | _ => tag.trimsAfter
    endsLine := if tag.canStandAlone then standsAlone else margin.endsLine }

/-- The pieces with the blanks that tags take away left out. -/
def layoutFrom (before : Before) (margin : Margin) : List Piece → List Piece
  | [] => []
  | .text text :: rest =>
    let isFirst :=
      match before with
      | .start => true
      | _ => false
    let (next, standsAlone) :=
      match rest with
      | .tag tag :: after =>
        (some tag, tag.canStandAlone && endsInBlankLine isFirst text && lineEndsAfter after)
      | _ => (none, false)
    .text (trimEnd next standsAlone (trimStart margin text)) ::
      layoutFrom (.text isFirst text) (margin.afterText text) rest
  | .tag tag :: rest =>
    let standsAlone := tag.canStandAlone && before.isBlankLine && lineEndsAfter rest
    .tag (tag.placed standsAlone before.blanks) ::
      layoutFrom .tag (margin.afterTag tag standsAlone) rest

/-- The pieces of a source with the blanks that tags take away left out. -/
def layout (pieces : List Piece) : List Piece :=
  layoutFrom .start ⟨false, false⟩ pieces

end Stencil.Source
