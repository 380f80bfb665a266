/-
# Reading tokens

The tokens of a YAML text. A key needs no mark of its own: it is only known as one when the colon
after it is met, and then a token is put before it. Keys of this kind have to fit on one line, and a
token that may start one is held back until that is known.
-/

import SourceAtlas.Text.Utf8
import SourceAtlas.Yaml.Text

namespace SourceAtlas.Yaml

/-- The longest distance between the start of a key and its colon. -/
def keyLimit : Nat := 1024

/-- Forgets the keys that cannot be any more; one that had to be is an error. -/
def dropStaleKeys : Lexer Unit := do
  let r ← get
  let isStale (k : SimpleKey) : Bool := k.line != r.line || r.index - k.index > keyLimit
  if r.keys.any fun k => isStale k.2 && k.2.required then refuse
  set { r with keys := r.keys.filter fun k => !isStale k.2 }

/-- Forgets the key that may have started in the innermost collection. -/
def dropKey : Lexer Unit := do
  let r ← get
  match r.keys.lookup r.flowLevel with
  | some k =>
    if k.required then refuse
    set { r with keys := r.keys.filter fun k => k.1 != r.flowLevel }
  | none => return ()

/-- Notes that a key may start here. -/
def noteKey : Lexer Unit := do
  if (← get).keyAllowed then
    dropKey
    let r ← get
    let required := r.flowLevel == 0 && r.indent == (r.column : Int)
    let k : SimpleKey :=
      { tokenNumber := r.taken + r.tokens.length, required, index := r.index, line := r.line
        column := r.column }
    set { r with keys := (r.flowLevel, k) :: r.keys }

/-- Says whether a key may start after the next token. -/
def allowKey (allowed : Bool) : Lexer Unit := modify fun r => { r with keyAllowed := allowed }

/-- Closes the blocks that started to the right of a column. -/
def unwindTo (column : Int) : Lexer Unit := do
  let r ← get
  if r.flowLevel == 0 then
    let all := r.indent :: r.outer
    let closed := all.takeWhile fun i => i > column
    let left := all.dropWhile fun i => i > column
    set { r with
      indent := left.headD (-1)
      outer := left.tail
      tokens := r.tokens ++ closed.map fun _ => Token.blockEnd }

/-- Opens a block at a column if it lies to the right of the innermost one. -/
def openBlock (column : Nat) : Lexer Bool := do
  let r ← get
  if r.indent < (column : Int) then
    set { r with indent := (column : Int), outer := r.indent :: r.outer }
    return true
  else return false

/-! ## Tokens -/

/-- Whether no flow collection is open. -/
def inBlock : Lexer Bool := do return (← get).flowLevel == 0

def documentMark (t : Token) : Lexer Unit := do
  unwindTo (-1)
  dropKey
  allowKey false
  forward 3
  emit t

def openFlow (t : Token) : Lexer Unit := do
  noteKey
  modify fun r => { r with flowLevel := r.flowLevel + 1 }
  allowKey true
  forward 1
  emit t

/-- The end of a flow collection. A bracket that closes nothing is left for the reader of nodes to
refuse. -/
def closeFlow (t : Token) : Lexer Unit := do
  dropKey
  if (← get).flowLevel == 0 then refuse
  modify fun r => { r with flowLevel := r.flowLevel - 1 }
  allowKey false
  forward 1
  emit t

def flowEntry : Lexer Unit := do
  allowKey true
  dropKey
  forward 1
  emit .flowEntry

/-- The dash of a block sequence. -/
def blockEntry : Lexer Unit := do
  if ← inBlock then
    if !(← get).keyAllowed then refuse
    if ← openBlock (← get).column then emit .blockSequenceStart
  allowKey true
  dropKey
  forward 1
  emit .blockEntry

def keyMark : Lexer Unit := do
  if ← inBlock then
    if !(← get).keyAllowed then refuse
    if ← openBlock (← get).column then emit .blockMappingStart
  allowKey (← inBlock)
  dropKey
  forward 1
  emit .key

/-- The colon before a value. -/
def valueMark : Lexer Unit := do
  let r ← get
  match r.keys.lookup r.flowLevel with
  | some k =>
    set { r with keys := r.keys.filter fun k => k.1 != r.flowLevel }
    emitAt k.tokenNumber .key
    if ← inBlock then
      if ← openBlock k.column then emitAt k.tokenNumber .blockMappingStart
    allowKey false
  | none =>
    if ← inBlock then
      if !r.keyAllowed then refuse
      if ← openBlock r.column then emit .blockMappingStart
    allowKey (← inBlock)
    dropKey
  forward 1
  emit .value

/-- The name after the mark of an anchor or of a reference to one. -/
def anchorName : Lexer String := do
  forward 1
  let name ← takeWhile isNameChar
  if name.isEmpty then refuse
  let c ← peek 0
  if !(isBlankOrEnd c || "?:,]\x7d%@\x60".toList.contains c) then refuse
  return String.ofList name

/-- A character of a tag. -/
def isTagChar (c : Char) : Bool :=
  c.isAlphanum || "-;/?:@&=+$,_.!~*\x27()[]%".toList.contains c

/-- The bytes that percent signs with two digits stand for. -/
def tagEscapes : Nat → List UInt8 → Lexer (List UInt8)
  | 0, _ => refuse
  | fuel + 1, bytes => do
    if (← peek 0) == '%' then
      forward 1
      match hexNumber? (← take 2) with
      | some n => tagEscapes fuel (bytes ++ [UInt8.ofNat n])
      | none => refuse
    else return bytes

def tagChars : Nat → List Char → Lexer (List Char)
  | 0, _ => refuse
  | fuel + 1, chars => do
    let run ← takeWhile fun c => isTagChar c && c != '%'
    if (← peek 0) == '%' then
      let bytes ← tagEscapes (fuel + 1) []
      match Text.decodeUtf8 bytes with
      | .ok decoded => tagChars fuel (chars ++ run ++ decoded)
      | .error _ => refuse
    else return chars ++ run

/-- The characters of a tag, of which there has to be one. -/
def tagText : Lexer String := do
  let chars ← tagChars ((← get).size + 1) []
  if chars.isEmpty then refuse
  return String.ofList chars

/-- The short form at the start of a tag. -/
def tagHandle : Lexer String := do
  if (← peek 0) != '!' then refuse
  if (← peek 1) == ' ' then return String.ofList (← take 1)
  else
    needWhile fun c => c == '!' || isNameChar c
    let r ← get
    let n := ((r.rest.drop 1).takeWhile isNameChar).length
    if r.peek (n + 1) != '!' then refuse
    return String.ofList (← take (n + 2))

/-- A tag: its short form, if it has one, and the rest of it. -/
def tagToken : Lexer Token := do
  let c ← peek 1
  let t ← do
    if c == '<' then do
      forward 2
      let suffix ← tagText
      if (← peek 0) != '>' then refuse
      forward 1
      pure (Token.tag none suffix)
    else if isBlankOrEnd c then do
      forward 1
      pure (Token.tag none "!")
    else do
      needWhile fun c => !isSpaceOrEnd c
      let inner := ((← get).rest.drop 1).takeWhile fun c => !isSpaceOrEnd c
      if inner.contains '!' then do
        let handle ← tagHandle
        let suffix ← tagText
        pure (Token.tag (some handle) suffix)
      else do
        forward 1
        let suffix ← tagText
        pure (Token.tag (some "!") suffix)
  if !isSpaceOrEnd (← peek 0) then refuse
  return t

def versionNumber : Lexer Nat := do
  let digits ← takeWhile Char.isDigit
  if digits.isEmpty then refuse
  return Number.digitsValue digits

/-- What the directive of a name says. -/
def directiveOf (name : String) : Lexer Directive := do
  if name == "YAML" then
    let _ ← takeWhile (· == ' ')
    let major ← versionNumber
    if (← peek 0) != '.' then refuse
    forward 1
    let _ ← versionNumber
    if !isSpaceOrEnd (← peek 0) then refuse
    return .version major
  else if name == "TAG" then
    let _ ← takeWhile (· == ' ')
    let short ← tagHandle
    if (← peek 0) != ' ' then refuse
    let _ ← takeWhile (· == ' ')
    let full ← tagText
    if !isSpaceOrEnd (← peek 0) then refuse
    return .handle short full
  else
    let _ ← takeWhile fun c => !isBreakOrEnd c
    return .other

def directive : Lexer Unit := do
  unwindTo (-1)
  dropKey
  allowKey false
  forward 1
  let name ← takeWhile isNameChar
  if name.isEmpty || !isSpaceOrEnd (← peek 0) then refuse
  let d ← directiveOf (String.ofList name)
  restOfLine
  emit (.directive d)

/-- A token that may be a key without a mark. -/
def keyLike (token : Lexer Token) : Lexer Unit := do
  noteKey
  allowKey false
  let t ← token
  emit t

def blockScalar (folded : Bool) : Lexer Unit := do
  allowKey true
  dropKey
  let text ← blockText folded
  emit (.scalar text false)

/-- Steps over white space, comments and line ends. -/
def toNextToken : Nat → Lexer Unit
  | 0 => refuse
  | fuel + 1 => do
    let _ ← takeWhile (· == ' ')
    if (← peek 0) == '#' then
      let _ ← takeWhile fun c => !isBreakOrEnd c
    if (← lineBreak).isEmpty then return ()
    if ← inBlock then allowKey true
    toNextToken fuel

/-- Whether plain text comes next. -/
def startsPlain : Lexer Bool := do
  let c ← peek 0
  if !isBlankOrEnd c && !isIndicator c then return true
  else if isBlankOrEnd (← peek 1) then return false
  else return c == '-' || ((← inBlock) && (c == '?' || c == ':'))

/-- Whether a mark that counts only before white space comes next; in flow collections it always
counts. -/
def atMark (mark : Char) : Lexer Bool := do
  if (← peek 0) != mark then return false
  else if ← inBlock then return isBlankOrEnd (← peek 1)
  else return true

def nextToken : Lexer Unit := do
  toNextToken ((← get).size + 1)
  dropStaleKeys
  unwindTo (← get).column
  let r ← get
  let c := r.peek 0
  if c == endChar then
    unwindTo (-1)
    dropKey
    emit .streamEnd
    modify fun r => { r with ended := true }
  else if c == '%' && r.column == 0 then directive
  else if r.column == 0 && (← atDocumentMark ["---"]) then documentMark .documentStart
  else if r.column == 0 && (← atDocumentMark ["..."]) then documentMark .documentEnd
  else if c == '[' then openFlow .flowSequenceStart
  else if c == '\x7b' then openFlow .flowMappingStart
  else if c == ']' then closeFlow .flowSequenceEnd
  else if c == '\x7d' then closeFlow .flowMappingEnd
  else if c == ',' then flowEntry
  else if c == '-' && isBlankOrEnd (r.peek 1) then blockEntry
  else if ← atMark '?' then keyMark
  else if ← atMark ':' then valueMark
  else if c == '*' then keyLike (do return .reference (← anchorName))
  else if c == '&' then keyLike (do return .anchor (← anchorName))
  else if c == '!' then keyLike tagToken
  else if c == '|' && r.flowLevel == 0 then blockScalar false
  else if c == '>' && r.flowLevel == 0 then blockScalar true
  else if c == '\x27' || c == '"' then keyLike (do return .scalar (← quotedText c) false)
  else if ← startsPlain then keyLike (do return .scalar (← plainText) true)
  else refuse

/-- Whether a token has to be read before the first one can be used: there is none, or the first one
may turn out to be a key. -/
def isWanting : Lexer Bool := do
  let r ← get
  if r.ended then return false
  else if r.tokens.isEmpty then return true
  else
    dropStaleKeys
    let r ← get
    return r.keys.any fun k => k.2.tokenNumber == r.taken

/-- Reads tokens until the first one can be used. -/
def awaitToken : Nat → Lexer Unit
  | 0 => refuse
  | fuel + 1 => do
    if ← isWanting then
      nextToken
      awaitToken fuel

/-- The first token that is not used yet. -/
def peekToken : Lexer Token := do
  awaitToken ((← get).size + 3)
  return (← get).tokens.headD .streamEnd

def skipToken : Lexer Unit :=
  modify fun r => { r with tokens := r.tokens.tail, taken := r.taken + 1 }

/-- The reading of a text in pieces. The first two pieces are taken together. -/
def Reading.start (pieces : List (List Char)) (fault : Option Text.Utf8Fault) : Reading :=
  let size := (pieces.map List.length).foldr (· + ·) 0
  let later := match pieces, fault with
    | first :: second :: rest, _ => (first ++ second) :: rest
    | [only], none => [only]
    | _, _ => []
  { later, size, fault }

/-- Starts to read. A mark of the byte order in front is skipped. -/
def startReading : Lexer Unit := do
  if (← peek 0) == '\ufeff' then forward 1

end SourceAtlas.Yaml
