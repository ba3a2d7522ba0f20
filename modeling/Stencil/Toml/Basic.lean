import Stencil.Json.Basic

/-!
TOML documents as tables. A document is built from its lines one after another.
A key may be given once; a table may be opened by one header, or be made by the
dotted keys of one place, but not both; inline tables and arrays are complete
where they are written.

Settings files are read by a library for TOML, which is no part of the engine. The
modules under `Toml`, with the reader in `Settings.Toml`, model that library as the
format is documented, so that any document can be read. What is proved of settings
files rests on documents of one assignment on each line (`Proofs.TomlLines`): that
bare keys, strings of plain characters, whole numbers and booleans are read as what
they write, whatever line comes next, and that a document of such lines with
different keys has their fields in their order.
-/

namespace Stencil.Toml

/-- A TOML value. Of floats and dates only the kind is kept. -/
inductive Value where
  | string (text : String)
  | integer (value : Int)
  | float
  | boolean (value : Bool)
  | date
  | array (items : List Value)
  | table (fields : List (String × Value))

/-- How a table came about: named by a header, on the way to a table named by a
header, or by a dotted key. -/
inductive Origin where
  | header
  | passage
  | dotted
  deriving DecidableEq

/-- What a key of a table under construction leads to. -/
inductive Entry where
  | value (v : Value)
  | table (origin : Origin) (entries : List (String × Entry))
  /-- The tables of an array opened by headers, the latest one first. -/
  | tables (latest : List (String × Entry)) (earlier : List (List (String × Entry)))

/-- Entries in the order of their keys' first appearance. -/
abbrev Entries := List (String × Entry)

namespace Entries

/-- Puts another entry under a key that is there. -/
def replace (key : String) (entry : Entry) : Entries → Entries
  | [] => []
  | (k, e) :: rest => if k = key then (k, entry) :: rest else (k, e) :: replace key entry rest

/-- Changes the table at a path of header keys. Tables on the way that are not
there yet are made. -/
def at? (change : Entries → Option Entries) : List String → Entries → Option Entries
  | [], entries => change entries
  | key :: path, entries =>
    match field? key entries with
    | none => (at? change path []).map fun made => entries ++ [(key, .table .passage made)]
    | some (.table origin inner) =>
      (at? change path inner).map fun changed => replace key (.table origin changed) entries
    | some (.tables latest earlier) =>
      (at? change path latest).map fun changed => replace key (.tables changed earlier) entries
    | some (.value _) => none

/-- Opens the table of a header at its last key. -/
def openTable (key : String) (entries : Entries) : Option Entries :=
  match field? key entries with
  | none => some (entries ++ [(key, .table .header [])])
  | some (.table .passage inner) => some (replace key (.table .header inner) entries)
  | some _ => none

/-- Opens the next table of an array at the last key of its header. -/
def openElement (key : String) (entries : Entries) : Option Entries :=
  match field? key entries with
  | none => some (entries ++ [(key, .tables [] [])])
  | some (.tables latest earlier) => some (replace key (.tables [] (latest :: earlier)) entries)
  | some _ => none

/-- Gives a value to a key, which may be dotted. Dotted keys make tables and
extend tables that dotted keys made. On the way there they may pass tables that
no header opened, and the latest table of an array. -/
def assign (v : Value) : List String → Entries → Option Entries
  | [], _ => none
  | [key], entries =>
    match field? key entries with
    | none => some (entries ++ [(key, .value v)])
    | some _ => none
  | key :: path, entries =>
    match field? key entries with
    | none => (assign v path []).map fun made => entries ++ [(key, .table .dotted made)]
    | some (.table origin inner) =>
      if origin = .dotted ∨ (origin = .passage ∧ path.length > 1) then
        (assign v path inner).map fun changed => replace key (.table origin changed) entries
      else none
    | some (.tables latest earlier) =>
      if path.length > 1 then
        (assign v path latest).map fun changed => replace key (.tables changed earlier) entries
      else none
    | some (.value _) => none

end Entries

mutual
def Entry.close : Entry → Value
  | .value v => v
  | .table _ entries => .table (closeAll entries)
  | .tables latest earlier => .array (closeTables earlier ++ [.table (closeAll latest)])
termination_by structural e => e

def closeAll : List (String × Entry) → List (String × Value)
  | [] => []
  | (key, entry) :: rest => (key, entry.close) :: closeAll rest
termination_by structural entries => entries

def closeTables : List (List (String × Entry)) → List Value
  | [] => []
  | entries :: rest => closeTables rest ++ [.table (closeAll entries)]
termination_by structural tables => tables
end

/-- A line of a document that says something. -/
inductive Line where
  | header (path : List String)
  | elementHeader (path : List String)
  | assignment (key : List String) (v : Value)

/-- A document under construction: its root and the path of the table that
assignments go to. -/
structure Draft where
  root : Entries
  current : List String

namespace Draft

def empty : Draft := ⟨[], []⟩

/-- Adds a line, if it breaks no rule about keys. -/
def add (draft : Draft) : Line → Option Draft
  | .assignment key v =>
    (draft.root.at? (Entries.assign v key) draft.current).map fun root => { draft with root }
  | .header path =>
    (draft.root.at? (Entries.openTable (path.getLastD "")) path.dropLast).map fun root =>
      ⟨root, path⟩
  | .elementHeader path =>
    (draft.root.at? (Entries.openElement (path.getLastD "")) path.dropLast).map fun root =>
      ⟨root, path⟩

end Draft

/-- The fields of the table that assignments make, if none breaks a rule. -/
def tableOf? (assignments : List (List String × Value)) : Option (List (String × Value)) :=
  (assignments.foldlM (fun entries (key, v) => Entries.assign v key entries) []).map closeAll

/-- The fields of the document with these lines, if none breaks a rule. -/
def documentOf? (lines : List Line) : Option (List (String × Value)) :=
  (lines.foldlM Draft.add Draft.empty).map fun draft => closeAll draft.root

end Stencil.Toml
