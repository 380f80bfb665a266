/-
# Scalars of YAML

The five ways to write a text: plain, between single or double quotes, and as a block that is kept
as it is or folded into lines.
-/

import SourceAtlas.Number.Decimal
import SourceAtlas.Yaml.Token

namespace SourceAtlas.Yaml

/-- How many characters of plain text come next. -/
def plainRun (inFlow : Bool) : List Char → Nat
  | [] => 0
  | c :: rest =>
    let next := rest.headD endChar
    let ends := isBlankOrEnd c ||
      (c == ':' && (isBlankOrEnd next || (inFlow && isFlowIndicator next))) ||
      (inFlow && (c == '?' || isFlowIndicator c))
    if ends then 0 else plainRun inFlow rest + 1

/-- Spaces and line ends inside a plain text; nothing if a document ends there. -/
def plainBreaks : Nat → List Char → Lexer (Option (List Char))
  | 0, _ => refuse
  | fuel + 1, breaks => do
    let c ← peek 0
    if c == ' ' then
      forward 1
      plainBreaks fuel breaks
    else if isBreak c then
      let b ← lineBreak
      if ← atDocumentMark documentMarks then return none
      plainBreaks fuel (breaks ++ b)
    else return some breaks

/-- What a line end and the empty lines after it stand for. -/
def foldBreaks (first breaks : List Char) : List Char :=
  if first != ['\n'] then first ++ breaks
  else if breaks.isEmpty then [' ']
  else breaks

/-- What separates two pieces of a plain text; nothing if it ends. -/
def plainSpaces : Lexer (List Char) := do
  let blank ← takeWhile (· == ' ')
  if isBreak (← peek 0) then
    let first ← lineBreak
    modify fun r => { r with keyAllowed := true }
    if ← atDocumentMark documentMarks then return []
    match ← plainBreaks ((← get).size + 1) [] with
    | none => return []
    | some breaks => return foldBreaks first breaks
  else return blank

def plainRest : Nat → Int → List Char → List Char → Lexer (List Char)
  | 0, _, _, _ => refuse
  | fuel + 1, indent, text, spaces => do
    needWhile fun c => !isBlankOrEnd c
    let r ← get
    let inFlow := r.flowLevel > 0
    let n := plainRun inFlow r.rest
    if r.peek 0 == '#' || n == 0 then return text
    modify fun r => { r with keyAllowed := false }
    let piece ← take n
    let text := text ++ spaces ++ piece
    let spaces ← plainSpaces
    let r ← get
    if spaces.isEmpty || r.peek 0 == '#' || (!inFlow && (r.column : Int) < indent) then return text
    plainRest fuel indent text spaces

def plainText : Lexer String := do
  let r ← get
  return String.ofList (← plainRest (r.size + 1) (r.indent + 1) [] [])

/-- The characters that one-letter escapes stand for. -/
def escapes : List (Char × Char) :=
  [('0', '\x00'), ('a', '\x07'), ('b', '\x08'), ('t', '\t'), ('\t', '\t'), ('n', '\n'),
    ('v', '\x0b'), ('f', '\x0c'), ('r', '\r'), ('e', '\x1b'), (' ', ' '), ('"', '"'),
    ('\\', '\\'), ('/', '/'), ('N', '\x85'), ('_', '\xa0'), ('L', '\u2028'), ('P', '\u2029')]

/-- How many digits the escapes with a number have. -/
def numberEscapes : List (Char × Nat) := [('x', 2), ('u', 4), ('U', 8)]

def hexNumber? (digits : List Char) : Option Nat :=
  digits.foldlM (fun n c => (Number.hexValue? c).map fun d => n * 16 + d) 0

/-- The empty lines at a line end inside quotes. -/
def quotedBreaks : Nat → List Char → Lexer (List Char)
  | 0, _ => refuse
  | fuel + 1, breaks => do
    if ← atDocumentMark documentMarks then refuse
    let _ ← takeWhile fun c => c == ' ' || c == '\t'
    if isBreak (← peek 0) then
      let b ← lineBreak
      quotedBreaks fuel (breaks ++ b)
    else return breaks

/-- The largest number that is taken for the code of a character at all. -/
def codeLimit : Nat := 0x7FFFFFFF

def codeChar (n : Nat) : Except YamlFault Char :=
  if n > codeLimit then .error .beyondCodes
  else if n ≥ 0x110000 then .error .beyondCharacters
  else if n < 0xD800 || 0xE000 ≤ n then .ok (Char.ofNat n)
  else .error .malformed

/-- An escape after its backslash. -/
def escape : Lexer (List Char) := do
  let c ← peek 0
  match escapes.lookup c, numberEscapes.lookup c with
  | some d, _ =>
    forward 1
    return [d]
  | none, some count =>
    forward 1
    let digits ← take count
    if digits.length < count then refuse
    match hexNumber? digits with
    | some n => return [← codeChar n]
    | none => refuse
  | none, none =>
    if isBreak c then
      let _ ← lineBreak
      quotedBreaks ((← get).size + 1) []
    else refuse

/-- Quoted text up to white space or the closing quote. -/
def quotedPiece (double : Bool) : Nat → List Char → Lexer (List Char)
  | 0, _ => refuse
  | fuel + 1, text => do
    let run ← takeWhile fun c => !(isBlankOrEnd c || c == '\x27' || c == '"' || c == '\\')
    let text := text ++ run
    let c ← peek 0
    if !double && c == '\x27' && (← peek 1) == '\x27' then
      forward 2
      quotedPiece double fuel (text ++ ['\x27'])
    else if (double && c == '\x27') || (!double && (c == '"' || c == '\\')) then
      forward 1
      quotedPiece double fuel (text ++ [c])
    else if double && c == '\\' then
      forward 1
      let e ← escape
      quotedPiece double fuel (text ++ e)
    else return text

/-- White space inside quotes. -/
def quotedSpaces : Lexer (List Char) := do
  let blank ← takeWhile fun c => c == ' ' || c == '\t'
  let c ← peek 0
  if c == endChar then refuse
  else if isBreak c then
    let first ← lineBreak
    let breaks ← quotedBreaks ((← get).size + 1) []
    return foldBreaks first breaks
  else return blank

def quotedRest (quote : Char) : Nat → List Char → Lexer (List Char)
  | 0, _ => refuse
  | fuel + 1, text => do
    if (← peek 0) == quote then
      forward 1
      return text
    else
      let spaces ← quotedSpaces
      let piece ← quotedPiece (quote == '"') ((← get).size + 1) []
      quotedRest quote fuel (text ++ spaces ++ piece)

def quotedText (quote : Char) : Lexer String := do
  forward 1
  let n := (← get).size + 1
  let first ← quotedPiece (quote == '"') n []
  return String.ofList (← quotedRest quote n first)

/-- What happens to the line ends at the end of a block. -/
inductive Chomping where
  /-- One is kept. -/
  | clip
  | keep
  | strip
deriving DecidableEq, Repr

/-- What a sign at the head of a block means. -/
def chomping? (c : Char) : Option Chomping :=
  if c == '+' then some .keep else if c == '-' then some .strip else none

/-- A digit at the head of a block, which may not be zero. -/
def blockDigit : Lexer (Option Nat) := do
  let c ← peek 0
  if c == '0' then refuse
  else if c.isDigit then
    forward 1
    return some (c.toNat - '0'.toNat)
  else return none

def blockSign : Lexer (Option Chomping) := do
  match chomping? (← peek 0) with
  | some sign =>
    forward 1
    return some sign
  | none => return none

/-- White space and a comment up to the end of the line, and the line end. -/
def restOfLine : Lexer Unit := do
  let _ ← takeWhile (· == ' ')
  if (← peek 0) == '#' then
    let _ ← takeWhile fun c => !isBreakOrEnd c
  if !isBreakOrEnd (← peek 0) then refuse
  let _ ← lineBreak

/-- The head of a block: chomping and indentation in either order. -/
def blockHead : Lexer (Chomping × Option Nat) := do
  let head ← do
    match ← blockSign with
    | some sign => do
      let digit ← blockDigit
      pure (sign, digit)
    | none => do
      match ← blockDigit with
      | some digit => do
        let sign ← blockSign
        pure (sign.getD .clip, some digit)
      | none => pure (.clip, none)
  if !isSpaceOrEnd (← peek 0) then refuse
  restOfLine
  return head

/-- The empty lines at the start of a block, and the widest column reached in them. -/
def blockIndentation : Nat → List Char → Nat → Lexer (List Char × Nat)
  | 0, _, _ => refuse
  | fuel + 1, breaks, widest => do
    let c ← peek 0
    if isBreak c then
      let b ← lineBreak
      blockIndentation fuel (breaks ++ b) widest
    else if c == ' ' then
      forward 1
      blockIndentation fuel breaks (max widest (← get).column)
    else return (breaks, widest)

def spacesTo (indent : Nat) : Lexer Unit := do
  needWhile (· == ' ')
  let r ← get
  let _ ← take (min (indent - r.column) (r.rest.takeWhile (· == ' ')).length)

/-- The empty lines inside a block. -/
def blockBreaks (indent : Nat) : Nat → List Char → Lexer (List Char)
  | 0, _ => refuse
  | fuel + 1, breaks => do
    spacesTo indent
    if isBreak (← peek 0) then
      let b ← lineBreak
      blockBreaks indent fuel (breaks ++ b)
    else return breaks

/-- The lines of a block: its text, the last line end, and the empty lines after it. -/
def blockLines (folded : Bool) (indent : Nat) :
    Nat → List Char → List Char → List Char → Lexer (List Char × List Char × List Char)
  | 0, _, _, _ => refuse
  | fuel + 1, text, lastBreak, breaks => do
    let r ← get
    if r.column != indent || r.peek 0 == endChar then return (text, lastBreak, breaks)
    let startsText := !(r.peek 0 == ' ' || r.peek 0 == '\t')
    let line ← takeWhile fun c => !isBreakOrEnd c
    let text := text ++ breaks ++ line
    let lastBreak ← lineBreak
    let breaks ← blockBreaks indent (fuel + 1) []
    let r ← get
    if r.column == indent && r.peek 0 != endChar then
      let folds := folded && lastBreak == ['\n'] && startsText &&
        !(r.peek 0 == ' ' || r.peek 0 == '\t')
      let join := if folds then (if breaks.isEmpty then [' '] else []) else lastBreak
      blockLines folded indent fuel (text ++ join) lastBreak breaks
    else return (text, lastBreak, breaks)

def blockText (folded : Bool) : Lexer String := do
  forward 1
  let (chomping, digit) ← blockHead
  let r ← get
  let n := r.size + 1
  let least := (max 1 (r.indent + 1)).toNat
  let (indent, breaks) ← do
    match digit with
    | none => do
      let (breaks, widest) ← blockIndentation n [] 0
      pure (max least widest, breaks)
    | some digit => do
      let indent := least + digit - 1
      let breaks ← blockBreaks indent n []
      pure (indent, breaks)
  let (text, lastBreak, breaks) ← blockLines folded indent (n + 1) [] [] breaks
  return String.ofList (match chomping with
    | .strip => text
    | .clip => text ++ lastBreak
    | .keep => text ++ lastBreak ++ breaks)

end SourceAtlas.Yaml
