import Stencil.Json.Reader
import Stencil.Source.Basic

/-!
Reading tags. Blanks and line ends may stand between the parts of a tag. A
literal is read as JSON; strings may also be written in single quotes. A path
is a list of keys with dots or slashes between them, after steps that lead out
of the level it is written on. This is the grammar of the library that
`Source.Basic` speaks of.
-/

namespace Stencil.Source

open Reader

/-- The blanks that may stand between the parts of a tag. -/
def isBlank (c : Char) : Bool := c == ' ' || c == '\t' || c == '\n' || c == '\r'

def blanks : Reader (List Char) := run isBlank

def isSymbol (c : Char) : Bool :=
  c.isAlphanum || c == '_' || c == '-' || c == '$' || c == ':' || 0x80 ≤ c.toNat

def endOfName : Reader Unit := notAhead (oneOf isSymbol)

/-- The name of a helper, of a named argument or of a closing tag. -/
def name : Reader String := String.ofList <$> run1 isSymbol

def keyword (text : String) : Reader Unit := word text *> endOfName

/-! Paths -/

def isSeparator (c : Char) : Bool := c == '.' || c == '/'

def separator : Reader Unit := oneOf isSeparator *> pure ()

/-- A key of a path; any characters may stand between brackets. -/
def pathKey : Reader String :=
  (String.ofList <$> run1 isSymbol) <|>
  (do
    char '['
    let inside ← run (· != ']')
    char ']'
    return String.ofList inside)

/-- A step that stays on the level of the path. -/
def staying : Reader Unit := (word "this" *> separator) <|> word "./"

/-- The steps of a path. The key `this` leads nowhere else. -/
def pathSteps : Reader (List Step) := do
  let _ ← maybe staying
  let root ← maybe (word "@root" *> separator)
  let isVariable ← maybe (char '@')
  let ups ← many (word ".." *> separator)
  let first ← pathKey
  let others ← many (separator *> pathKey)
  let keys := (first :: others).filter (· != "this")
  return (root.map fun _ => Step.root).toList ++ (isVariable.map fun _ => Step.variable).toList ++
    ups.map (fun _ => Step.up) ++ keys.map Step.key

def path : Reader Path := do
  let (steps, written) ← withTaken pathSteps
  return ⟨String.ofList written, steps⟩

/-! Literals -/

def hexDigit : Reader Unit :=
  oneOf (fun c => c.isDigit || ('a' ≤ c && c ≤ 'f') || ('A' ≤ c && c ≤ 'F')) *> pure ()

def quotedChar (quote : Char) : Reader Unit :=
  (oneOf (fun c => c != quote && c != '\\') *> pure ()) <|>
  (char '\\' *> oneOf (fun c => c == quote || "\\/bfnrt".toList.contains c) *> pure ()) <|>
  (char '\\' *> char 'u' *> hexDigit *> hexDigit *> hexDigit *> hexDigit)

def quotedInside (quote : Char) : Reader (List Char) := do
  char quote
  let (_, inside) ← withTaken (many (quotedChar quote))
  char quote
  return inside

/-- A whole number, a fraction and an exponent, as far as they are written. -/
def numberShape : Reader Unit := do
  let _ ← maybe (char '-')
  let _ ← run1 Char.isDigit
  let _ ← maybe (char '.')
  let _ ← run Char.isDigit
  let _ ← maybe (char 'E' *> maybe (char '-') *> run1 Char.isDigit)
  endOfName

/-- Things between brackets with commas between them; the first may be absent. -/
def listShape (opening closing : Char) (item : Reader Unit) : Reader Unit := do
  char opening
  let _ ← maybe (blanks *> item)
  let _ ← many (blanks *> char ',' *> blanks *> item)
  let _ ← blanks
  char closing

def stringShape : Reader Unit :=
  (quotedInside '"' *> pure ()) <|> (quotedInside '\'' *> pure ())

/-- The shape of a literal, nested no deeper than the given bound. -/
def literalShape : Nat → Reader Unit
  | 0, _ => none
  | depth + 1, text => shape (literalShape depth) text
where
  shape (part : Reader Unit) : Reader Unit :=
    stringShape <|> listShape '[' ']' part <|>
    listShape '\x7b' '\x7d' (do
      stringShape
      let _ ← blanks
      char ':'
      let _ ← blanks
      part) <|>
    numberShape <|> keyword "null" <|> keyword "true" <|> keyword "false"

/-- A string in single quotes, rewritten for double quotes: an escaped single
quote stands for itself, and double quotes are escaped. -/
def requote : List Char → List Char
  | '\\' :: '\'' :: rest => '\'' :: requote rest
  | '"' :: rest => '\\' :: '"' :: requote rest
  | c :: rest => c :: requote rest
  | [] => []

/-- How many arrays and objects a literal may have inside each other. -/
def literalDepth : Nat := 127

/-- The value of a literal, from the characters that have its shape. -/
def literalValue? : List Char → Option Json
  | '\'' :: rest =>
    Json.readWithin? literalDepth (String.ofList ('"' :: requote rest.dropLast ++ ['"']))
  | taken => Json.readWithin? literalDepth (String.ofList taken)

/-- A literal. Characters of that shape which are not JSON make no operand at
all, so that nothing else is tried on them. -/
def literalOr (depth : Nat) (other : Reader Operand) : Reader Operand := fun text =>
  match withTaken (literalShape depth) text with
  | some ((_, taken), rest) => (literalValue? taken).map fun value => (.literal value, rest)
  | none => other text

/-! Calls -/

def endOfArguments : Reader Unit :=
  (word "as" <|> word "else") *> blanks *> endOfName

/-- Arguments of a call, plain and named. -/
inductive Argument where
  | plain (value : Operand)
  | named (name : String) (value : Operand)

/-- A plain or a named argument, whose value is read by `operand`. -/
def argument (operand : Reader Operand) : Reader Argument :=
  (do
    let key ← name
    let _ ← blanks
    char '='
    let _ ← blanks
    return .named key (← operand)) <|>
  (.plain <$> operand)

/-- The call of a head with these arguments; of two named alike the last
counts. -/
def callOf (head : Operand) (arguments : List Argument) : Call :=
  let plain := arguments.filterMap fun
    | .plain value => some value
    | .named _ _ => none
  let named := arguments.filterMap fun
    | .plain _ => none
    | .named key value => some (key, value)
  .mk head plain (orderFields named)

/-- A call in parentheses: a name with arguments, or a path alone. -/
def nestedCall (operand : Reader Operand) : Reader Operand := do
  char '('
  let _ ← blanks
  let call ← (do
      let head ← name
      let arguments ← many1 (blanks *> argument operand)
      return callOf (.word head) arguments) <|>
    ((fun p => Call.mk (.path p) [] []) <$> path)
  let _ ← blanks
  char ')'
  return .call call

/-- An operand nested no deeper than the given bound. -/
def operandWithin : Nat → Reader Operand
  | 0, _ => none
  | depth + 1, text =>
    (notAhead endOfArguments *>
      literalOr depth ((Operand.path <$> path) <|> nestedCall (operandWithin depth))) text

/-- What stands before the arguments where a value may stand. -/
def headOperand (depth : Nat) : Reader Operand :=
  nestedCall (operandWithin depth) <|> (Operand.path <$> path)

def valueCall (depth : Nat) : Reader Call :=
  (do
    let head ← name
    let arguments ← many1 (blanks *> argument (operandWithin depth))
    return callOf (.word head) arguments) <|>
  ((fun head => Call.mk head [] []) <$> headOperand depth)

def blockNames : Reader BlockNames := do
  word "as"
  let _ ← blanks
  char '|'
  let _ ← blanks
  let value ← name
  let _ ← blanks
  let key ← maybe name
  let _ ← blanks
  char '|'
  return ⟨value, key⟩

/-- The call and the names of a block. -/
def blockCall (depth : Nat) : Reader (Call × Option BlockNames) := do
  let head ← name
  let arguments ← many (blanks *> argument (operandWithin depth))
  let names ← maybe (blanks *> blockNames)
  return (callOf (.word head) arguments, names)

def isPartialSymbol (c : Char) : Bool :=
  c.isAlphanum || c == '_' || c == '-' || c == '@' || isSeparator c || 0x80 ≤ c.toNat

/-- The name of a partial, which may be in single quotes. -/
def partialName : Reader String :=
  (String.ofList <$> run1 isPartialSymbol) <|>
  (do
    let (_, taken) ← withTaken (char '\'' *> run1 (· != '\'') *> char '\'')
    return String.ofList taken)

def inclusionCall (depth : Nat) : Reader Call := do
  let head ← (Operand.word <$> partialName) <|> headOperand depth
  let arguments ← many (blanks *> argument (operandWithin depth))
  return callOf head arguments

/-! Tags -/

/-- A tilde takes the blanks on its side of the tag away. -/
def tilde : Reader Bool := (·.isSome) <$> maybe (char '~')

/-- A tag between braces, with tildes inside them. -/
def tagOf (opening closing : List Char) (kind : Reader TagKind) : Reader Tag := do
  chars opening
  let _ ← blanks
  let trimsBefore ← tilde
  let _ ← blanks
  let kind ← kind
  let _ ← blanks
  let trimsAfter ← tilde
  let _ ← blanks
  chars closing
  return ⟨kind, trimsBefore, trimsAfter⟩

def openBraces : List Char := ['\x7b', '\x7b']

def closeBraces : List Char := ['\x7d', '\x7d']

/-- The word of an alternative. A name may follow it directly. -/
def alternativeWord : Reader Unit := word "else" <|> char '^'

def alternativeTag : Reader Tag :=
  tagOf openBraces closeBraces (alternativeWord *> pure .alternative)

def alternativeBlockTag (depth : Nat) : Reader Tag :=
  tagOf openBraces closeBraces (do
    alternativeWord
    let _ ← blanks
    let (call, names) ← blockCall depth
    return .alternativeBlock call names false)

def expressionTag (depth : Nat) : Reader Tag := do
  notAhead (alternativeTag <|> alternativeBlockTag depth)
  tagOf openBraces closeBraces (TagKind.expression false <$> valueCall depth)

/-- A raw value between triple braces, in one of two forms, or after an
ampersand. -/
def rawTag (depth : Nat) : Reader Tag :=
  let raw := TagKind.expression true <$> valueCall depth
  tagOf (openBraces ++ ['\x7b']) (closeBraces ++ ['\x7d']) raw <|>
  tagOf openBraces closeBraces (do
    char '\x7b'
    let _ ← blanks
    let kind ← raw
    let _ ← blanks
    char '\x7d'
    return kind) <|>
  tagOf openBraces closeBraces (do
    char '&'
    let _ ← blanks
    let head ← headOperand depth
    return TagKind.expression true (.mk head [] []))

def openingTag (depth : Nat) : Reader Tag :=
  tagOf openBraces closeBraces (do
    char '#'
    let _ ← blanks
    let (call, names) ← blockCall depth
    return .opening call names false)

def closingTag : Reader Tag :=
  tagOf openBraces closeBraces (do
    char '/'
    let _ ← blanks
    return .closing (← name))

def inclusionTag (depth : Nat) : Reader Tag :=
  tagOf openBraces closeBraces (do
    char '>'
    let _ ← blanks
    return .inclusion (← inclusionCall depth) {})

/-- Takes everything up to a mark, and the mark. -/
def through (mark : List Char) : Reader Unit := fun text =>
  go text.length text
where
  go : Nat → List Char → Option (Unit × List Char)
    | 0, _ => none
    | fuel + 1, text =>
      if mark.isPrefixOf text then some ((), text.drop mark.length)
      else
        match text with
        | [] => none
        | _ :: rest => go fuel rest

/-- A comment; one that starts with two dashes ends with two dashes. -/
def commentTag : Reader Tag := do
  chars (openBraces ++ ['!'])
  (blanks *> word "--" *> through (['-', '-'] ++ closeBraces)) <|> through closeBraces
  return ⟨.comment, false, false⟩

def tag (depth : Nat) : Reader Tag :=
  expressionTag depth <|> rawTag depth <|> openingTag depth <|> closingTag <|>
  alternativeTag <|> alternativeBlockTag depth <|> inclusionTag depth <|> commentTag

end Stencil.Source
