/-
# Tokens of YAML

A YAML text is a row of tokens. Some tokens stand for characters, such as the bracket that opens a
flow sequence; others stand for what indentation means, such as the start and the end of a block. A
reader of tokens keeps track of where it is and of the columns at which the open blocks started. It
reads no further than it has to, and takes the next piece of the text only when it is needed.
-/

import SourceAtlas.Yaml.Fault

namespace SourceAtlas.Yaml

/-- What a directive says. -/
inductive Directive where
  /-- The major number of the version of the language. -/
  | version (major : Nat)
  /-- A short form for the start of tags. -/
  | handle (short full : String)
  | other
deriving DecidableEq, Repr

inductive Token where
  | directive (d : Directive)
  | documentStart
  | documentEnd
  | streamEnd
  | blockSequenceStart
  | blockMappingStart
  | blockEnd
  | flowSequenceStart
  | flowSequenceEnd
  | flowMappingStart
  | flowMappingEnd
  | blockEntry
  | flowEntry
  | key
  | value
  | reference (name : String)
  | anchor (name : String)
  | tag (handle : Option String) (suffix : String)
  | scalar (text : String) (plain : Bool)
deriving DecidableEq, Repr

/-- What stands for the end of the text. No text holds it. -/
def endChar : Char := '\x00'

/-- The characters that a text may hold. -/
def isAllowed (c : Char) : Bool :=
  let n := c.toNat
  n == 0x09 || n == 0x0A || n == 0x0D || (0x20 ≤ n && n ≤ 0x7E) || n == 0x85 ||
    (0xA0 ≤ n && n ≤ 0xD7FF) || (0xE000 ≤ n && n ≤ 0xFFFD) || 0x10000 ≤ n

/-- A line ends at one of these. -/
def isBreak (c : Char) : Bool :=
  c == '\n' || c == '\r' || c == '\x85' || c == '\u2028' || c == '\u2029'

def isBreakOrEnd (c : Char) : Bool := isBreak c || c == endChar

def isSpaceOrEnd (c : Char) : Bool := c == ' ' || isBreakOrEnd c

/-- A space or tab, or the end of a line or of the text. -/
def isBlankOrEnd (c : Char) : Bool := c == '\t' || isSpaceOrEnd c

def isNameChar (c : Char) : Bool := c.isAlphanum || c == '-' || c == '_'

/-- The indicators that no plain text starts with. -/
def isIndicator (c : Char) : Bool :=
  "-?:,[]\x7b\x7d#&*!|>\x27\"%@\x60".toList.contains c

/-- The brackets and marks that divide flow collections. -/
def isFlowIndicator (c : Char) : Bool := ",[]\x7b\x7d".toList.contains c

/-- A place where a key without a mark may have started. -/
structure SimpleKey where
  /-- The number of the token that would be the key. -/
  tokenNumber : Nat
  /-- Whether anything but a key is an error here. -/
  required : Bool
  index : Nat
  line : Nat
  column : Nat

/-- Where the reading of tokens is. -/
structure Reading where
  /-- The characters of the pieces that are there already. -/
  rest : List Char := []
  index : Nat := 0
  line : Nat := 0
  column : Nat := 0
  /-- How many characters are there already, those before the cursor included. -/
  loaded : Nat := 0
  /-- The pieces that are still to come. -/
  later : List (List Char)
  /-- How many characters the whole text has. -/
  size : Nat
  /-- What is wrong with the bytes after the last piece. -/
  fault : Option Text.Utf8Fault := none
  /-- The tokens that are read and not used yet. -/
  tokens : List Token := []
  /-- How many tokens are used. -/
  taken : Nat := 0
  /-- Whether the last token is read. -/
  ended : Bool := false
  /-- The column of the innermost open block. -/
  indent : Int := -1
  /-- The columns of the blocks around it. -/
  outer : List Int := []
  /-- How many flow collections are open. -/
  flowLevel : Nat := 0
  /-- Whether a key without a mark may start here. -/
  keyAllowed : Bool := true
  /-- Where keys may have started, by the number of open flow collections. -/
  keys : List (Nat × SimpleKey) := []

/-- A reader of tokens; it stops where the text is no YAML. -/
abbrev Lexer := StateT Reading (Except YamlFault)

/-- Stops because the text is no YAML. -/
def refuse {α : Type} : Lexer α := throw .malformed

/-- Takes the next piece. If there is none, the bytes may be at fault or the text may end. -/
def load : Lexer Unit := do
  let r ← get
  match r.later, r.fault with
  | piece :: later, _ =>
    if !piece.all isAllowed then refuse
    set { r with rest := r.rest ++ piece, loaded := r.loaded + piece.length, later }
  | [], some fault => throw (.undecodable fault)
  | [], none => return ()

/-- Takes at most so many pieces while a test of the reading asks for more. -/
def loadWhile (test : Reading → Bool) : Nat → Lexer Unit
  | 0 => return ()
  | count + 1 => do
    if test (← get) then
      load
      loadWhile test count

/-- Takes pieces until a number of characters after the cursor are there, or the text ends. -/
def need (count : Nat) : Lexer Unit := do
  let r ← get
  loadWhile (fun now => now.loaded < r.index + count) (r.later.length + 1)

/-- Takes pieces until a character after the cursor fails a test, or the text ends. -/
def needWhile (test : Char → Bool) : Lexer Unit := do
  loadWhile (fun now => now.rest.all test) ((← get).later.length + 1)

def Reading.peek (r : Reading) (distance : Nat) : Char := r.rest.getD distance endChar

def Reading.step (r : Reading) : Reading :=
  match r.rest with
  | [] => r
  | c :: rest =>
    let ends := isBreak c && !(c == '\r' && rest.head? == some '\n')
    let column := if c == '\ufeff' then r.column else r.column + 1
    if ends then { r with rest, index := r.index + 1, line := r.line + 1, column := 0 }
    else { r with rest, index := r.index + 1, column }

def Reading.steps : Nat → Reading → Reading
  | 0, r => r
  | n + 1, r => Reading.steps n r.step

def peek (distance : Nat) : Lexer Char := do
  need (distance + 1)
  return (← get).peek distance

/-- Steps over some characters, with a look at the one behind the next. -/
def forward (n : Nat) : Lexer Unit := do
  need (n + 2)
  modify (Reading.steps n)

def take (n : Nat) : Lexer (List Char) := do
  need (n + 1)
  let taken := (← get).rest.take n
  forward n
  return taken

def takeWhile (test : Char → Bool) : Lexer (List Char) := do
  needWhile test
  take ((← get).rest.takeWhile test).length

/-- Takes a line end, if there is one; the usual ones all count as a line feed. -/
def lineBreak : Lexer (List Char) := do
  let c ← peek 0
  if c == '\r' && (← peek 1) == '\n' then
    forward 2
    return ['\n']
  else if c == '\u2028' || c == '\u2029' then
    forward 1
    return [c]
  else if isBreak c then
    forward 1
    return ['\n']
  else return []

/-- Whether three marks that divide documents come next. -/
def atDocumentMark (marks : List String) : Lexer Bool := do
  need 4
  let r ← get
  return marks.contains (String.ofList (r.rest.take 3)) && isBlankOrEnd (r.peek 3)

def documentMarks : List String := ["---", "..."]

def emit (t : Token) : Lexer Unit := modify fun r => { r with tokens := r.tokens ++ [t] }

/-- Adds a token at an earlier place, given by the number of the token that stands there. -/
def emitAt (number : Nat) (t : Token) : Lexer Unit :=
  modify fun r =>
    let place := number - r.taken
    { r with tokens := r.tokens.take place ++ t :: r.tokens.drop place }

end SourceAtlas.Yaml
