/-
# Quoted text

A text between quotes, with every character that does not show as itself written as an escape. The
quotes are single unless the text has a single quote and no double one. Bytes are shown like the
characters of ASCII, after a mark that tells them from text.
-/

import SourceAtlas.Text.Printable

namespace SourceAtlas.Text

/-- The last `width` hexadecimal digits of a number, in lower case. -/
def hexDigits (width n : Nat) : List Char :=
  let digits := Nat.toDigits 16 n
  List.replicate (width - digits.length) '0' ++ digits

/-- One character between quotes. -/
def quoteChar (quote : Char) (c : Char) : List Char :=
  if c == quote || c == '\\' then ['\\', c]
  else if c == '\n' then ['\\', 'n']
  else if c == '\r' then ['\\', 'r']
  else if c == '\t' then ['\\', 't']
  else if isPrintable c then [c]
  else
    let n := c.toNat
    if n < 0x100 then '\\' :: 'x' :: hexDigits 2 n
    else if n < 0x10000 then '\\' :: 'u' :: hexDigits 4 n
    else '\\' :: 'U' :: hexDigits 8 n

/-- The quote that suits a text. -/
def quoteFor (s : List Char) : Char :=
  if s.contains '\x27' && !s.contains '"' then '"' else '\x27'

def quoted (s : String) : String :=
  let chars := s.toList
  let quote := quoteFor chars
  String.ofList (quote :: (chars.flatMap (quoteChar quote) ++ [quote]))

def quoteByte (quote : Char) (b : UInt8) : List Char :=
  let c := Char.ofNat b.toNat
  if b.toNat < 0x7F then quoteChar quote c else '\\' :: 'x' :: hexDigits 2 b.toNat

def quotedBytes (bytes : List UInt8) : String :=
  let quote := quoteFor (bytes.map fun b => Char.ofNat b.toNat)
  String.ofList ('b' :: quote :: (bytes.flatMap (quoteByte quote) ++ [quote]))

end SourceAtlas.Text
