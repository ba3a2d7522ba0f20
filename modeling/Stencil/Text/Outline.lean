import Stencil.Text.Basic

/-!
Outlines show the structure of data for diagnosis: which constructor made it
and from what. One outline has two written forms, a compact one on a single
line and a tall one with a line for each part.
-/

namespace Stencil

/-- The shape of a piece of data as a reader of diagnostics sees it. -/
inductive Outline where
  | word (text : String)
  /-- A constructor and its arguments in parentheses. -/
  | apply (name : String) (arguments : List Outline)
  | list (items : List Outline)
  /-- Entries in braces, each under a quoted key. -/
  | map (entries : List (String × Outline))
  /-- A constructor and its named fields; an open record has more fields than
  it shows. -/
  | record (name : String) (fields : List (String × Outline)) (isOpen : Bool)

namespace Outline

def text (s : String) : Outline := .word (Text.quoted s)

def bool (b : Bool) : Outline := .word (if b then "true" else "false")

def option : Option Outline → Outline
  | none => .word "None"
  | some o => .apply "Some" [o]

mutual
def compact : Outline → String
  | .word text => text
  | .apply name arguments =>
    name ++ "(" ++ String.intercalate ", " (compactItems arguments) ++ ")"
  | .list items => "[" ++ String.intercalate ", " (compactItems items) ++ "]"
  | .map entries =>
    let shown := (compactFields entries).map fun (key, value) => Text.quoted key ++ ": " ++ value
    "\x7b" ++ String.intercalate ", " shown ++ "\x7d"
  | .record name fields isOpen =>
    let shown := (compactFields fields).map fun (key, value) => key ++ ": " ++ value
    let parts := if isOpen then shown ++ [".."] else shown
    name ++ " \x7b " ++ String.intercalate ", " parts ++ " \x7d"
termination_by structural o => o

def compactItems : List Outline → List String
  | [] => []
  | o :: rest => o.compact :: compactItems rest
termination_by structural os => os

def compactFields : List (String × Outline) → List (String × String)
  | [] => []
  | (key, o) :: rest => (key, o.compact) :: compactFields rest
termination_by structural fields => fields
end

/-- Lines between an opening and a closing line, four spaces further in, each
part ending in a comma. Without parts both stay on one line. -/
def enclose (opening closing margin : String) (parts : List String) : String :=
  if parts = [] then opening ++ closing
  else
    opening ++ "\n" ++ String.join (parts.map fun part => margin ++ "    " ++ part ++ "\n") ++
      margin ++ closing

mutual
/-- The form with a line for each part. The margin is what stands in front of
the line that the outline starts on. -/
def tall (margin : String) : Outline → String
  | .word text => text
  | .apply name arguments =>
    enclose (name ++ "(") ")" margin ((tallItems (margin ++ "    ") arguments).map (· ++ ","))
  | .list items =>
    enclose "[" "]" margin ((tallItems (margin ++ "    ") items).map (· ++ ","))
  | .map entries =>
    enclose "\x7b" "\x7d" margin ((tallFields (margin ++ "    ") entries).map
      fun (key, value) => Text.quoted key ++ ": " ++ value ++ ",")
  | .record name fields isOpen =>
    let shown := (tallFields (margin ++ "    ") fields).map
      fun (key, value) => key ++ ": " ++ value ++ ","
    enclose (name ++ " \x7b") "\x7d" margin (if isOpen then shown ++ [".."] else shown)
termination_by structural o => o

def tallItems (margin : String) : List Outline → List String
  | [] => []
  | o :: rest => o.tall margin :: tallItems margin rest
termination_by structural os => os

def tallFields (margin : String) : List (String × Outline) → List (String × String)
  | [] => []
  | (key, o) :: rest => (key, o.tall margin) :: tallFields margin rest
termination_by structural fields => fields
end

/-- The tall form at the left margin. -/
def pretty (o : Outline) : String := o.tall ""

end Outline

end Stencil
