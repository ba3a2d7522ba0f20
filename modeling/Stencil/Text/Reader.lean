/-!
Readers of text. A reader takes what it understands from the front of a list
of characters and returns the rest, or refuses. Choice is ordered: the second
reader is tried only where the first refuses, and on the same characters.
-/

namespace Stencil

/-- Reads a value from the front of the text, or refuses. -/
def Reader (α : Type) := List Char → Option (α × List Char)

namespace Reader

variable {α β : Type}

instance : Monad Reader where
  pure a := fun text => some (a, text)
  bind reader next := fun text =>
    match reader text with
    | none => none
    | some (a, rest) => next a rest

instance : Alternative Reader where
  failure := fun _ => none
  orElse first second := fun text =>
    match first text with
    | none => second () text
    | some result => some result

/-- The value that the whole text writes, if the reader takes all of it. -/
def readAll? (reader : Reader α) (text : List Char) : Option α :=
  match reader text with
  | some (a, []) => some a
  | _ => none

def oneOf (accepts : Char → Bool) : Reader Char
  | [] => none
  | c :: rest => if accepts c then some (c, rest) else none

def char (c : Char) : Reader Unit
  | [] => none
  | d :: rest => if d = c then some ((), rest) else none

def chars : List Char → Reader Unit
  | [] => pure ()
  | c :: cs => do
    char c
    chars cs

def word (text : String) : Reader Unit := chars text.toList

/-- Takes the longest run of characters of a class, which may be empty. -/
def run (accepts : Char → Bool) : Reader (List Char) :=
  fun text => some (text.takeWhile accepts, text.dropWhile accepts)

/-- Takes the longest run of characters of a class, one at least. -/
def run1 (accepts : Char → Bool) : Reader (List Char) := do
  let first ← oneOf accepts
  let rest ← run accepts
  return first :: rest

def maybe (reader : Reader α) : Reader (Option α) :=
  (some <$> reader) <|> pure none

/-- Takes a thing as often as the reader accepts it. The reader takes one
character at least each time, so there are no more things than characters. -/
def many (reader : Reader α) : Reader (List α) :=
  fun text => go text.length text
where
  go : Nat → Reader (List α)
    | 0, text => some ([], text)
    | fuel + 1, text =>
      match reader text with
      | none => some ([], text)
      | some (first, rest) => (go fuel rest).map fun (others, left) => (first :: others, left)

/-- Takes a thing as often as the reader accepts it, once at least. -/
def many1 (reader : Reader α) : Reader (List α) := do
  let first ← reader
  let rest ← many reader
  return first :: rest

/-- Takes nothing; accepts where the reader would refuse. -/
def notAhead (reader : Reader α) : Reader Unit :=
  fun text =>
    match reader text with
    | some _ => none
    | none => some ((), text)

/-- Takes nothing; accepts at the end of the text. -/
def atEnd : Reader Unit
  | [] => some ((), [])
  | _ => none

def ofOption : Option α → Reader α
  | some a => pure a
  | none => failure

/-- Reads, and returns the characters taken beside the value. -/
def withTaken (reader : Reader α) : Reader (α × List Char) :=
  fun text =>
    match reader text with
    | some (a, rest) => some ((a, text.take (text.length - rest.length)), rest)
    | none => none

end Reader

end Stencil
