/-
# Tokens that depend on their place

Some tokens cannot be told by their own characters. A semicolon may be left out before the end of
the text, before a closing brace, or before a new row whose first characters cannot continue the
statement. A question mark opens a conditional expression unless it belongs to something else. Text
stands between markup tags and in templates.

Which of them are wanted depends on where the parser stands, and the languages with and without
types differ in what they look through to find the next row.
-/

import SourceAtlas.Grammar.Lexeme

namespace SourceAtlas.Grammar

/-- What the parser could go on with where it stands. -/
structure Wanted where
  semicolon : Bool
  signatureEnd : Bool
  templateText : Bool
  questionMark : Bool
  markupText : Bool
  /-- Whether an operator could follow, so that an operand has just ended. -/
  operator : Bool
  /-- Whether the parser stands inside a string or regular expression. -/
  quoted : Bool

namespace Source

def lineEnd (s : Source) (separators : Bool) (i : Nat) : Nat :=
  s.skipWhile (fun c => c != '\n' && !(separators && isSeparator c)) i

/-- The offset after a comment between marks, or the end of the text if it is not closed. -/
def blockEnd (s : Source) (i : Nat) : Nat :=
  ((s.findFrom? ['*', '/'] i).map (· + 2)).getD s.chars.size

/-- Looks through white space and comments; none if a slash follows that opens no comment. Tells
also whether a comment was met. -/
def skipBlanks (s : Source) (separators : Bool) : Nat → Bool → Nat → Option (Bool × Nat)
  | 0, _, _ => none
  | fuel + 1, met, i =>
    let i := s.skipWhile isBreakingSpace i
    if s.startsAt i ['/', '/'] then s.skipBlanks separators fuel true (s.lineEnd separators (i + 2))
    else if s.startsAt i ['/', '*'] then
      s.skipBlanks separators fuel (met || separators) (s.blockEnd (i + 2))
    else if s.hasAt i '/' then none
    else some (met, i)

/-- Whether a row can start with the word that is at an offset, because the word is not one of the
operators `in` and `instanceof`. -/
def startsNoWordOperator (s : Source) (i : Nat) : Bool :=
  if !s.startsAt i ['i', 'n'] then true
  else if !s.holdsAt (i + 2) isLetter then false
  else if !s.startsAt (i + 2) "stanceof".toList then true
  else s.holdsAt (i + 10) isLetter

/-- Whether a statement may end before a row that starts at an offset, as far as its signs tell. -/
def signAllowsEnd (s : Source) (i : Nat) : Bool :=
  if s.hasAt i '+' then s.hasAt (i + 1) '+'
  else if s.hasAt i '-' then s.hasAt (i + 1) '-'
  else if s.hasAt i '!' then !s.hasAt (i + 1) '='
  else if s.hasAt i 'i' then s.startsNoWordOperator i
  else true

/-- What looking at a comment shows about the end of a statement. -/
inductive CommentVerdict where
  /-- A slash that opens no comment. -/
  | noComment
  /-- No new row was met up to this offset. -/
  | sameRow (next : Nat)
  /-- A new row was met before this offset. -/
  | newRow (next : Nat)

/-- Looks at comments until it is known whether they hold a new row. -/
def commentVerdict (s : Source) : Nat → Bool → Nat → CommentVerdict
  | 0, _, _ => .noComment
  | fuel + 1, rows, i =>
    let i := s.skipWhile isBreakingSpace i
    if s.startsAt i ['/', '/'] then s.commentVerdict fuel rows (s.lineEnd true (i + 2))
    else if s.startsAt i ['/', '*'] then
      let stop := s.blockEnd (i + 2)
      let breaks (c : Char) : Bool := c == '\n' || isSeparator c
      let rows := rows || ((s.chars.extract (i + 2) stop).any breaks)
      let closed := s.startsAt (stop - 2) ['*', '/'] && stop ≥ i + 4
      if closed && !s.hasAt stop '/' then if rows then .newRow stop else .sameRow stop
      else s.commentVerdict fuel rows stop
    else if s.hasAt i '/' then .noComment
    else .newRow i

/-- Whether a statement may end before a new row, where no types are written. -/
def plainRowAllowsEnd (s : Source) (i : Nat) : Bool :=
  if s.holdsAt i "\x60,:;*%><=[(?^|&/".toList.contains then false
  else if s.hasAt i '.' then s.holdsAt (i + 1) Char.isDigit
  else s.signAllowsEnd i

/-- Whether a semicolon is left out at an offset, where no types are written; if not, also how far
was looked and whether a comment was met. -/
def plainSemicolon (s : Source) (operator : Bool) : Nat → Bool → Nat → Bool × Bool × Nat
  | 0, met, i => (false, met, i)
  | fuel + 1, met, i =>
    let onward (met : Bool) (i : Nat) : Bool × Bool × Nat :=
      match s.chars[i]? with
      | none => (false, met, i)
      | some c =>
        if c == '\x7d' then (true, met, i)
        else if c == '\n' || isSeparator c then
          match s.skipBlanks true (s.chars.size + 1) met (i + 1) with
          | none => (false, met, i)
          | some (met, i) => (s.plainRowAllowsEnd i, met, i)
        else if isBreakingSpace c then s.plainSemicolon operator fuel met (i + 1)
        else (false, met, i)
    if i ≥ s.chars.size then (true, met, i)
    else if s.hasAt i '/' then
      match s.commentVerdict (s.chars.size + 1) false i with
      | .noComment => (false, met, i)
      | .sameRow next => onward true next
      | .newRow next =>
        if !operator && !s.hasAt next ',' && !s.hasAt next '=' then (true, true, next)
        else onward true next
    else onward met i

/-- Whether a statement may end before a new row, where types are written. -/
def typedRowAllowsEnd (s : Source) (wanted : Wanted) (i : Nat) : Bool :=
  if s.holdsAt i "\x60,.;*%><=?^|&/:".toList.contains then false
  else if s.hasAt i '\x7b' then !wanted.signatureEnd
  else if s.hasAt i '(' || s.hasAt i '[' then !wanted.operator
  else s.signAllowsEnd i

/-- Whether a semicolon is left out at an offset, where types are written; if not, also how far was
looked and whether a comment was met. A closing brace before a colon ends a pattern with a type. -/
def typedSemicolon (s : Source) (wanted : Wanted) (i : Nat) : Bool × Bool × Nat :=
  let i := s.skipWhile (fun c => isBreakingSpace c && c != '\n') i
  match s.chars[i]? with
  | none => (true, false, i)
  | some c =>
    if c == '\x7d' then
      let next := s.skipWhile isBreakingSpace (i + 1)
      (!s.hasAt next ':' || wanted.operator, false, next)
    else if c == '\n' then
      match s.skipBlanks false (s.chars.size + 1) false (i + 1) with
      | none => (false, false, i)
      | some (met, i) => (s.typedRowAllowsEnd wanted i, met, i)
    else (false, false, i)

/-- The question mark of a conditional expression. Where types are written, a question mark before a
colon, comma or parenthesis marks something that may be missing. -/
def questionMark? (s : Source) (typed : Bool) (i : Nat) : Option Span :=
  let i := s.skipWhile isBreakingSpace i
  if s.hasAt i '?' && !s.hasAt (i + 1) '?' then
    let mark : Span := ⟨i, i + 1⟩
    let fraction (j : Nat) : Bool := !s.hasAt j '.' || s.holdsAt (j + 1) Char.isDigit
    if typed then
      let next := s.skipWhile isBreakingSpace (i + 1)
      if s.hasAt (i + 1) '.' || s.holdsAt next [':', ')', ','].contains then none
      else if fraction next then some mark
      else none
    else if fraction (i + 1) then some mark
    else none
  else none

/-- The text of a template up to its end, an escape or an inserted expression. -/
def templateTextEnd (s : Source) : Nat → Nat → Nat
  | 0, i => i
  | fuel + 1, i =>
    match s.chars[i]? with
    | none => i
    | some c =>
      if c == '\x60' || c == '\\' || s.startsAt i ['$', '\x7b'] then i
      else s.templateTextEnd fuel (i + 1)

/-- Text of a template, which has to be followed by more of the template. -/
def templateText? (s : Source) (i : Nat) : Option Span :=
  let stop := s.templateTextEnd (s.chars.size + 1) i
  if stop > i && stop < s.chars.size then some ⟨i, stop⟩ else none

def markupTextEnd (s : Source) (i : Nat) : Nat :=
  s.skipWhile (fun c => !("<>\x7b\x7d&".toList.contains c)) i

/-- Whether text between tags shows anything: white space at the start of a row and the rows
themselves do not. -/
def showsText (text : List Char) : Bool :=
  let step (state : Bool × Bool) (c : Char) : Bool × Bool :=
    let (shown, fresh) := state
    if c == '\n' then (shown, true)
    else
      let fresh := fresh && isBreakingSpace c
      (shown || !fresh, fresh)
  (text.foldl step (false, false)).1

def markupText? (s : Source) (i : Nat) : Option Span :=
  let stop := s.markupTextEnd i
  if showsText (s.chars.extract i stop).toList then some ⟨i, stop⟩ else none

/-- A row that is commented out as in markup. -/
def markupComment? (s : Source) (i : Nat) : Option Span :=
  let i := s.skipWhile isBreakingSpace i
  if s.startsAt i "<!--".toList || s.startsAt i "-->".toList then some ⟨i, s.lineEnd true i⟩
  else none

/-- The token that depends on its place and stands at an offset. -/
def placed? (s : Source) (typed : Bool) (wanted : Wanted) (i : Nat) : Option (Lexeme × Span) :=
  let comment (i : Nat) : Option (Lexeme × Span) :=
    if wanted.operator || wanted.quoted then none
    else (s.markupComment? i).map fun span => (.markupComment, span)
  let question (i : Nat) : Option (Lexeme × Span) :=
    (s.questionMark? typed i).map fun span => (.questionMark, span)
  if wanted.templateText then
    if wanted.semicolon then none else (s.templateText? i).map fun span => (.templateText, span)
  else if wanted.markupText then
    match s.markupText? i with
    | some span => some (.markupText, span)
    | none => comment (s.markupTextEnd i)
  else if wanted.semicolon || wanted.signatureEnd then
    let (ends, met, next) :=
      if typed then s.typedSemicolon wanted i
      else s.plainSemicolon wanted.operator (s.chars.size + 1) false i
    if ends then some (.missingSemicolon, ⟨i, i⟩)
    else if !met && wanted.questionMark && s.hasAt next '?' then question next
    else none
  else if wanted.questionMark then question i
  else comment i

end Source

end SourceAtlas.Grammar
