/-
# Tokens that are told by their characters

Names, numbers, comments, and the pieces of strings, templates and regular expressions. Every reader
takes the longest token of its class that starts at an offset and gives the offset where it ends.
-/

import SourceAtlas.Grammar.Rule
import SourceAtlas.Grammar.Source

namespace SourceAtlas.Grammar

namespace Source

/-- The end of an escape that stands for a character of a name. -/
def nameEscapeEnd? (s : Source) (i : Nat) : Option Nat :=
  if s.startsAt i ['\\', 'u', '\x7b'] then
    let stop := s.skipWhile isHexDigit (i + 3)
    if stop > i + 3 && s.hasAt stop '\x7d' then some (stop + 1) else none
  else if s.startsAt i ['\\', 'u'] && (List.range 4).all fun k => s.holdsAt (i + 2 + k) isHexDigit
  then some (i + 6)
  else none

/-- The end of a name that goes on at an offset. -/
def nameEnd (s : Source) : Nat → Nat → Nat
  | 0, i => i
  | fuel + 1, i =>
    let stop := s.skipWhile isWordChar i
    match s.nameEscapeEnd? stop with
    | some next => s.nameEnd fuel next
    | none => stop

/-- A name, which may not start with a digit. -/
def name? (s : Source) (i : Nat) : Option Nat :=
  if s.holdsAt i Char.isDigit then none
  else
    let stop := s.nameEnd (s.chars.size + 1) i
    if stop > i then some stop else none

/-- Digits, with single underscores between them. -/
def digitsFrom (s : Source) (digit : Char → Bool) : Nat → Nat → Nat
  | 0, i => i
  | fuel + 1, i =>
    if s.holdsAt i digit then s.digitsFrom digit fuel (i + 1)
    else if s.hasAt i '_' && s.holdsAt (i + 1) digit then s.digitsFrom digit fuel (i + 2)
    else i

/-- Digits, the first of which is no underscore. -/
def digits? (s : Source) (digit : Char → Bool) (i : Nat) : Option Nat :=
  if s.holdsAt i digit then some (s.digitsFrom digit (s.chars.size + 1) i) else none

/-- Digits after a zero and a letter that names their base. -/
def baseDigits? (s : Source) (letters : List Char) (digit : Char → Bool) (i : Nat) : Option Nat :=
  if s.hasAt i '0' && s.holdsAt (i + 1) letters.contains then s.digits? digit (i + 2) else none

/-- The whole part of a number with a fraction or an exponent. -/
def wholePart? (s : Source) (i : Nat) : Option Nat :=
  let nonZero (c : Char) : Bool := c.isDigit && c != '0'
  if s.holdsAt i nonZero then s.digits? Char.isDigit i
  else if s.hasAt i '0' then
    if s.holdsAt (i + 1) nonZero then s.digits? Char.isDigit (i + 1) else some (i + 1)
  else none

def exponent? (s : Source) (i : Nat) : Option Nat :=
  if s.hasAt i 'e' || s.hasAt i 'E' then
    let signed := s.hasAt (i + 1) '+' || s.hasAt (i + 1) '-'
    s.digits? Char.isDigit (if signed then i + 2 else i + 1)
  else none

/-- What may follow the point of a number. -/
def fractionEnd (s : Source) (i : Nat) : Nat :=
  let stop := (s.digits? Char.isDigit i).getD i
  (s.exponent? stop).getD stop

/-- The ends of all numbers that start at an offset. -/
def numberEnds (s : Source) (i : Nat) : List Nat :=
  let big (stop : Nat) : List Nat := if s.hasAt stop 'n' then [stop, stop + 1] else [stop]
  let based := [s.baseDigits? ['x', 'X'] isHexDigit i,
    s.baseDigits? ['b', 'B'] (fun c => c == '0' || c == '1') i,
    s.baseDigits? ['o', 'O'] (fun c => '0' ≤ c && c ≤ '7') i,
    s.digits? Char.isDigit i].filterMap id
  let fractions := match s.wholePart? i with
    | some stop =>
      (if s.hasAt stop '.' then [s.fractionEnd (stop + 1)] else []) ++ (s.exponent? stop).toList
    | none => []
  let points := if s.hasAt i '.' && s.holdsAt (i + 1) Char.isDigit then [s.fractionEnd (i + 1)]
    else []
  based.flatMap big ++ fractions ++ points

def number? (s : Source) (i : Nat) : Option Nat := (s.numberEnds i).max?

def comment? (s : Source) (i : Nat) : Option Nat :=
  if s.startsAt i ['/', '/'] then
    some (s.skipWhile (fun c => c != '\n' && c != '\r' && !isSeparator c) i)
  else if s.startsAt i ['/', '*'] then (s.findFrom? ['*', '/'] (i + 2)).map (· + 2)
  else none

def escape? (s : Source) (i : Nat) : Option Nat :=
  if s.hasAt i '\\' then
    match s.chars[i + 1]? with
    | none => none
    | some c =>
      let octal (c : Char) : Bool := '0' ≤ c && c ≤ '7'
      if octal c then
        some (if s.holdsAt (i + 2) octal then if s.holdsAt (i + 3) octal then i + 4 else i + 3
          else i + 2)
      else if c == 'x' then
        if s.holdsAt (i + 2) isHexDigit && s.holdsAt (i + 3) isHexDigit then some (i + 4) else none
      else if c == 'u' then s.nameEscapeEnd? i
      else if (c == '\r' || c == '?') && s.holdsAt (i + 2) fun d => d == '\n' || isSeparator d
      then some (i + 3)
      else some (i + 2)
  else none

/-- Text of an attribute up to a quote or a character reference. A mark that starts no reference
takes the next character along. -/
def attributeTextEnd (s : Source) (quote : Char) : Nat → Nat → Nat
  | 0, i => i
  | fuel + 1, i =>
    match s.chars[i]? with
    | none => i
    | some c =>
      if c == '&' then
        match s.chars[i + 1]? with
        | some d =>
          if d == '#' || d.isAlpha then i else s.attributeTextEnd quote fuel (i + 2)
        | none => i
      else if c == quote then i
      else s.attributeTextEnd quote fuel (i + 1)

/-- The end of a class of characters in a regular expression. -/
def regexClassEnd? (s : Source) : Nat → Nat → Option Nat
  | 0, _ => none
  | fuel + 1, i =>
    match s.chars[i]? with
    | none => none
    | some c =>
      if c == ']' then some (i + 1)
      else if c == '\n' then none
      else if c == '\\' then
        if s.holdsAt (i + 1) (· != '\n') then s.regexClassEnd? fuel (i + 2) else none
      else s.regexClassEnd? fuel (i + 1)

/-- The inside of a regular expression, up to its closing slash. -/
def regexBodyEnd (s : Source) : Nat → Nat → Nat
  | 0, i => i
  | fuel + 1, i =>
    match s.chars[i]? with
    | none => i
    | some c =>
      if c == '/' || c == '\n' then i
      else if c == '\\' then
        if s.holdsAt (i + 1) (· != '\n') then s.regexBodyEnd fuel (i + 2) else i
      else if c == '[' then
        match s.regexClassEnd? (s.chars.size + 1) (i + 1) with
        | some stop => s.regexBodyEnd fuel stop
        | none => i
      else s.regexBodyEnd fuel (i + 1)

def hyphenatedName? (s : Source) (i : Nat) : Option Nat :=
  if s.holdsAt i fun c => isPlainWordChar c && !c.isDigit then
    let stop := s.skipWhile isPlainWordChar i
    if s.hasAt stop '-' then some (s.skipWhile (fun c => isPlainWordChar c || c == '-') stop)
    else none
  else none

/-- A character by its name or number, between an ampersand and a semicolon. -/
def characterReference? (s : Source) (i : Nat) : Option Nat :=
  let closed (start limit : Nat) (test : Char → Bool) : Option Nat :=
    let stop := s.skipWhile test start
    if start < stop && stop ≤ start + limit && s.hasAt stop ';' then some (stop + 1) else none
  if s.startsAt i ['&', '#'] then
    if s.hasAt (i + 2) 'x' || s.hasAt (i + 2) 'X' then closed (i + 3) 6 isHexDigit
    else closed (i + 2) 5 Char.isDigit
  else if s.hasAt i '&' then closed (i + 1) 30 Char.isAlpha
  else none

/-- The words `static get` before the end of a row. -/
def staticGetRow? (s : Source) (i : Nat) : Option Nat :=
  if s.startsAt i "static".toList then
    let word := s.skipWhile isSpace (i + 6)
    if word > i + 6 && s.startsAt word "get".toList then
      let stop := s.skipWhile isSpace (word + 3)
      let breaks := (List.range (stop - (word + 3))).filter fun k => s.hasAt (word + 3 + k) '\n'
      breaks.getLast?.map fun k => word + 3 + k + 1
    else none
  else none

end Source

namespace Lexeme

/-- Where the longest token of a class that starts at an offset ends. Tokens that depend on their
place are not told by characters. -/
def stop? (class_ : Lexeme) (s : Source) (i : Nat) : Option Nat :=
  let fuel := s.chars.size + 1
  let nonEmpty (stop : Nat) : Option Nat := if stop > i then some stop else none
  let stringText (quote : Char) : Option Nat :=
    nonEmpty (s.skipWhile (fun c => c != quote && c != '\\' && c != '\r' && c != '\n') i)
  match class_ with
  | .identifier => s.name? i
  | .privateName => if s.hasAt i '#' then s.name? (i + 1) else none
  | .number => s.number? i
  | .comment => s.comment? i
  | .interpreterLine =>
    if s.startsAt i ['#', '!'] then some (s.skipWhile (· != '\n') i) else none
  | .hyphenatedName => s.hyphenatedName? i
  | .characterReference => s.characterReference? i
  | .doubleText => stringText '"'
  | .singleText => stringText '\x27'
  | .doubleMarkupText => nonEmpty (s.attributeTextEnd '"' fuel i)
  | .singleMarkupText => nonEmpty (s.attributeTextEnd '\x27' fuel i)
  | .escape => s.escape? i
  | .regexBody => nonEmpty (s.regexBodyEnd fuel i)
  | .regexEnd => if s.hasAt i '/' then some (i + 1) else none
  | .regexFlags => nonEmpty (s.skipWhile (fun c => 'a' ≤ c && c ≤ 'z') i)
  | .staticGetRow => s.staticGetRow? i
  | _ => none

/-- Whether white space may not stand before a token of a class. -/
def isImmediate : Lexeme → Bool
  | .doubleText | .singleText | .doubleMarkupText | .singleMarkupText | .escape | .regexBody
  | .regexEnd | .regexFlags => true
  | _ => false

/-- Which of two tokens is taken, before their lengths are compared. -/
def rank : Lexeme → Int
  | .doubleText | .singleText | .doubleMarkupText | .singleMarkupText | .regexEnd => 1
  | .regexBody => -1
  | _ => 0

/-- The kind of the node of a token; some are only shown under the kind that a rule gives them. -/
def shown? : Lexeme → Option Shown
  | .identifier => some ⟨"identifier", true⟩
  | .privateName => some ⟨"private_property_identifier", true⟩
  | .number => some ⟨"number", true⟩
  | .comment => some ⟨"comment", true⟩
  | .interpreterLine => some ⟨"hash_bang_line", true⟩
  | .hyphenatedName => some ⟨"jsx_identifier", true⟩
  | .characterReference => some ⟨"html_character_reference", true⟩
  | .doubleText | .singleText | .doubleMarkupText | .singleMarkupText =>
    some ⟨"string_fragment", true⟩
  | .escape => some ⟨"escape_sequence", true⟩
  | .regexBody => some ⟨"regex_pattern", true⟩
  | .regexEnd => some ⟨"/", false⟩
  | .regexFlags => some ⟨"regex_flags", true⟩
  | .markupComment => some ⟨"html_comment", true⟩
  | .markupText => some ⟨"jsx_text", true⟩
  | .staticGetRow | .missingSemicolon | .missingSignatureEnd | .templateText | .questionMark =>
    none

end Lexeme

def Terminal.shown? : Terminal → Option Shown
  | .literal text => some ⟨text, false⟩
  | .named kind _ => some ⟨kind, true⟩
  | .lexeme class_ => class_.shown?
  | .endOfText => none

end SourceAtlas.Grammar
