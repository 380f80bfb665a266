/-
# Source text

The characters of a file with the row of every offset, and the small steps over them that tokens are
told by.
-/

import SourceAtlas.Grammar.Dialect
import SourceAtlas.Syntax.Tree

namespace SourceAtlas.Grammar

/-- The characters from `start` up to `stop`. -/
structure Span where
  start : Nat
  stop : Nat
deriving DecidableEq, Repr, Inhabited

/-- A tree whose nodes know where they stand. -/
abbrev Tree := Syntax.Tree Span

/-- A text under a parser. -/
structure Source where
  chars : Array Char
  /-- The row of every offset, the end included. -/
  rows : Array Nat
  text : String
  /-- The byte of the text at every offset, the end included. -/
  bytes : Array Nat

namespace Source

def rowsOf (chars : List Char) : Array Nat :=
  let step (state : Nat × Array Nat) (c : Char) : Nat × Array Nat :=
    let row := if c == '\n' then state.1 + 1 else state.1
    (row, state.2.push row)
  (chars.foldl step (0, #[0])).2

def bytesOf (chars : List Char) : Array Nat :=
  let step (state : Nat × Array Nat) (c : Char) : Nat × Array Nat :=
    let byte := state.1 + c.utf8Size
    (byte, state.2.push byte)
  (chars.foldl step (0, #[0])).2

def ofText (text : List Char) : Source :=
  { chars := text.toArray, rows := rowsOf text, text := String.ofList text
    bytes := bytesOf text }

def rowAt (s : Source) (offset : Nat) : Nat := s.rows.getD offset 0

def slice (s : Source) (span : Span) : String :=
  String.Pos.Raw.extract s.text ⟨s.bytes.getD span.start 0⟩ ⟨s.bytes.getD span.stop 0⟩

def holdsAt (s : Source) (i : Nat) (test : Char → Bool) : Bool :=
  (s.chars[i]?).any test

def hasAt (s : Source) (i : Nat) (c : Char) : Bool := s.chars[i]? == some c

/-- The first offset from `i` on whose character fails the test. -/
def skipWhile (s : Source) (test : Char → Bool) (i : Nat) : Nat :=
  if h : i < s.chars.size then
    if test s.chars[i] then s.skipWhile test (i + 1) else i
  else i
termination_by s.chars.size - i

def startsAt (s : Source) (i : Nat) : List Char → Bool
  | [] => true
  | c :: rest => s.hasAt i c && s.startsAt (i + 1) rest

/-- The first offset from `i` on where the characters stand. -/
def findFrom? (s : Source) (wanted : List Char) (i : Nat) : Option Nat :=
  if i < s.chars.size then
    if s.startsAt i wanted then some i else s.findFrom? wanted (i + 1)
  else none
termination_by s.chars.size - i

end Source

/-- White space between tokens. -/
def isSpace (c : Char) : Bool :=
  let n := c.toNat
  (9 ≤ n && n ≤ 13) || n == 0x20 || n == 0x85 || n == 0xA0 || n == 0x1680 ||
    (0x2000 ≤ n && n ≤ 0x200B) || n == 0x2028 || n == 0x2029 || n == 0x202F || n == 0x205F ||
    n == 0x2060 || n == 0x3000 || n == 0xFEFF

/-- White space at which a line may be broken. Only this space is looked through where a token
depends on what follows on the next row. -/
def isBreakingSpace (c : Char) : Bool :=
  let n := c.toNat
  (9 ≤ n && n ≤ 13) || n == 0x20 || n == 0x1680 || (0x2000 ≤ n && n ≤ 0x2006) ||
    (0x2008 ≤ n && n ≤ 0x200A) || n == 0x2028 || n == 0x2029 || n == 0x205F || n == 0x3000

/-- The separators of lines and paragraphs beyond ASCII. -/
def isSeparator (c : Char) : Bool := c == '\u2028' || c == '\u2029'

/-- The characters that end a word although they are no space. -/
def punctuation : List Char :=
  ":;\x60\"\x27@#.,|^&<=>+-*/\\%?!~()[]\x7b\x7d".toList

def isWordChar (c : Char) : Bool :=
  c.toNat ≥ 0x20 && !isSpace c && !punctuation.contains c

/-- A letter, as far as the end of a word operator is concerned. -/
def isLetter (c : Char) : Bool :=
  c.isAlpha || (c.toNat ≥ 0x80 && isWordChar c)

def isHexDigit (c : Char) : Bool :=
  c.isDigit || ('a' ≤ c && c ≤ 'f') || ('A' ≤ c && c ≤ 'F')

/-- A letter, digit, underscore or dollar sign of ASCII. -/
def isPlainWordChar (c : Char) : Bool :=
  c.isAlphanum || c == '_' || c == '$'

end SourceAtlas.Grammar
