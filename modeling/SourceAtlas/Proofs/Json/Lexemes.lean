/-
# What a text with comments is made of

Any text, JSON or not, is a row of strings, comments and single characters. A string ends at its
closing quote and a comment at its mark or its line; where the text ends first, the last of them
goes on to the end. A row in which no two neighbours run into each other is read back from its text.
-/

import Mathlib.Data.List.Chain
import SourceAtlas.Json.Comments

namespace SourceAtlas.Json

/-- A piece of a text with comments. Any text is a row of these, whether it is JSON or not. -/
inductive Lexeme where
  /-- A character outside of strings and comments. -/
  | char (c : Char)
  /-- A string with its quotes; at the end of a text the closing one may be missing. -/
  | string (chars : List Char)
  /-- A comment with its marks. -/
  | comment (chars : List Char)
deriving DecidableEq, Repr

namespace Lexeme

def text : Lexeme → List Char
  | .char c => [c]
  | .string chars => chars
  | .comment chars => chars

/-- The text of a string, if the piece is one. -/
def literal? : Lexeme → Option (List Char)
  | .string chars => some chars
  | _ => none

def isComment : Lexeme → Bool
  | .comment _ => true
  | _ => false

end Lexeme

def spell (pieces : List Lexeme) : List Char := pieces.flatMap Lexeme.text

def literals (pieces : List Lexeme) : List (List Char) := pieces.filterMap Lexeme.literal?

/-- Cuts a text behind the quote that closes a string. What follows a backslash closes nothing. -/
def cutString : List Char → List Char × List Char
  | '\\' :: c :: rest => ('\\' :: c :: (cutString rest).1, (cutString rest).2)
  | '"' :: rest => (['"'], rest)
  | c :: rest => (c :: (cutString rest).1, (cutString rest).2)
  | [] => ([], [])

/-- Cuts a text behind the mark that closes a comment. -/
def cutBlock : List Char → List Char × List Char
  | '*' :: '/' :: rest => (['*', '/'], rest)
  | c :: rest => (c :: (cutBlock rest).1, (cutBlock rest).2)
  | [] => ([], [])

theorem cutString_append (text : List Char) : (cutString text).1 ++ (cutString text).2 = text := by
  fun_induction cutString text <;> simp_all

theorem cutBlock_append (text : List Char) : (cutBlock text).1 ++ (cutBlock text).2 = text := by
  fun_induction cutBlock text <;> simp_all

theorem length_cutString_le (text : List Char) : (cutString text).2.length ≤ text.length := by
  conv_rhs => rw [← cutString_append text, List.length_append]
  exact Nat.le_add_left ..

theorem length_cutBlock_le (text : List Char) : (cutBlock text).2.length ≤ text.length := by
  conv_rhs => rw [← cutBlock_append text, List.length_append]
  exact Nat.le_add_left ..

def lexemes : List Char → List Lexeme
  | [] => []
  | '"' :: rest => .string ('"' :: (cutString rest).1) :: lexemes (cutString rest).2
  | '/' :: '/' :: rest =>
    .comment ('/' :: '/' :: rest.takeWhile (· != '\n')) :: lexemes (rest.dropWhile (· != '\n'))
  | '/' :: '*' :: rest => .comment ('/' :: '*' :: (cutBlock rest).1) :: lexemes (cutBlock rest).2
  | c :: rest => .char c :: lexemes rest
termination_by text => text.length
decreasing_by
  · have := length_cutString_le rest
    simp only [List.length_cons]
    omega
  · have := (List.dropWhile_sublist (l := rest) (· != '\n')).length_le
    simp only [List.length_cons]
    omega
  · have := length_cutBlock_le rest
    simp only [List.length_cons]
    omega
  · simp

/-- The pieces of a text in which a comment is nothing special. -/
def plainLexemes : List Char → List Lexeme
  | [] => []
  | '"' :: rest => .string ('"' :: (cutString rest).1) :: plainLexemes (cutString rest).2
  | c :: rest => .char c :: plainLexemes rest
termination_by text => text.length
decreasing_by
  · have := length_cutString_le rest
    simp only [List.length_cons]
    omega
  · simp

@[simp]
theorem spell_nil : spell [] = [] := rfl

@[simp]
theorem spell_cons (piece : Lexeme) (rest : List Lexeme) :
    spell (piece :: rest) = piece.text ++ spell rest := List.flatMap_cons

theorem spell_append (first second : List Lexeme) :
    spell (first ++ second) = spell first ++ spell second := List.flatMap_append

/-- Nothing of a text is lost. -/
theorem spell_lexemes (text : List Char) : spell (lexemes text) = text := by
  fun_induction lexemes text with
  | case1 => rfl
  | case2 rest ih => simp [Lexeme.text, ih, cutString_append]
  | case3 rest ih => simp [Lexeme.text, ih, List.takeWhile_append_dropWhile]
  | case4 rest ih => simp [Lexeme.text, ih, cutBlock_append]
  | case5 c rest _ _ _ ih => simp [Lexeme.text, ih]

/-- What follows the opening quote of a string, up to and with the closing one. -/
inductive Closed : List Char → Prop
  | quote : Closed ['"']
  | escape (c : Char) {body : List Char} (inner : Closed body) : Closed ('\\' :: c :: body)
  | char {c : Char} {body : List Char} (noQuote : c ≠ '"') (noEscape : c ≠ '\\')
      (inner : Closed body) : Closed (c :: body)

theorem cutString_char {c : Char} (noQuote : c ≠ '"') (noEscape : c ≠ '\\') (rest : List Char) :
    cutString (c :: rest) = (c :: (cutString rest).1, (cutString rest).2) := by
  rw [cutString.eq_def]
  split <;> simp_all

theorem Closed.cutString_append {body : List Char} (closed : Closed body) (rest : List Char) :
    cutString (body ++ rest) = (body, rest) := by
  induction closed with
  | quote => rfl
  | escape c _ ih => rw [List.cons_append, List.cons_append, cutString, ih]
  | char noQuote noEscape _ ih => rw [List.cons_append, cutString_char noQuote noEscape, ih]

theorem Closed.exists_concat {body : List Char} (closed : Closed body) :
    ∃ front, body = front ++ ['"'] := by
  induction closed with
  | quote => exact ⟨[], rfl⟩
  | escape c _ ih =>
      obtain ⟨front, rfl⟩ := ih
      exact ⟨'\\' :: c :: front, rfl⟩
  | @char c _ _ _ _ ih =>
      obtain ⟨front, rfl⟩ := ih
      exact ⟨c :: front, rfl⟩

/-- A string is closed, or it goes on to the end of the text. -/
theorem closed_or_cutString_eq (text : List Char) :
    Closed (cutString text).1 ∨ cutString text = (text, []) := by
  fun_induction cutString text with
  | case1 c rest ih =>
      rcases ih with closed | whole
      · exact .inl (.escape c closed)
      · exact .inr (by simp [whole])
  | case2 rest => exact .inl .quote
  | case3 c rest noEscape noQuote ih =>
      rcases ih with closed | whole
      · by_cases lone : c = '\\'
        · -- nothing follows a backslash that escapes nothing
          subst lone
          cases rest with
          | nil => exact .inr rfl
          | cons d rest => exact (noEscape d rest rfl rfl).elim
        · exact .inl (.char noQuote lone closed)
      · exact .inr (by simp [whole])
  | case4 => exact .inr rfl

namespace Lexeme

/-- Whether a piece can be read by itself: a character that opens no string, a string up to where it
is cut, or a comment. -/
def IsWhole : Lexeme → Prop
  | .char c => c ≠ '"'
  | .string chars => ∃ body, chars = '"' :: body ∧ cutString body = (body, [])
  | .comment chars => chars.head? = some '/'

/-- Whether a piece ends where another one begins: a slash does not begin a comment with it, and a
string is closed. -/
structure Meets (piece next : Lexeme) : Prop where
  noMark : piece = .char '/' → next.text.head? ≠ some '/' ∧ next.text.head? ≠ some '*'
  closed : ∀ body, piece = .string ('"' :: body) → Closed body

end Lexeme

/-- A row of pieces that do not run into each other. -/
structure Settled (pieces : List Lexeme) : Prop where
  whole : ∀ piece ∈ pieces, piece.IsWhole
  meets : pieces.IsChain Lexeme.Meets

theorem Settled.tail {piece : Lexeme} {rest : List Lexeme} (settled : Settled (piece :: rest)) :
    Settled rest :=
  ⟨fun other listed => settled.whole other (List.mem_cons_of_mem _ listed),
    (List.isChain_cons.mp settled.meets).2⟩

theorem Settled.cons {piece : Lexeme} {rest : List Lexeme} (whole : piece.IsWhole)
    (meets : ∀ next ∈ rest.head?, piece.Meets next) (settled : Settled rest) :
    Settled (piece :: rest) :=
  ⟨List.forall_mem_cons.mpr ⟨whole, settled.whole⟩, List.isChain_cons.mpr ⟨meets, settled.meets⟩⟩

theorem meets_comment (chars : List Char) (next : Lexeme) : (Lexeme.comment chars).Meets next where
  noMark same := by cases same
  closed _ same := by cases same

theorem IsWhole.text_ne_nil {piece : Lexeme} (whole : piece.IsWhole) : piece.text ≠ [] := by
  cases piece with
  | char c => exact List.cons_ne_nil _ _
  | string chars =>
      obtain ⟨body, rfl, -⟩ := whole
      exact List.cons_ne_nil _ _
  | comment chars =>
      rintro (rfl : chars = [])
      cases whole

/-- The text of a row begins with the text of its first piece. -/
theorem Settled.head?_spell {piece : Lexeme} {rest : List Lexeme}
    (settled : Settled (piece :: rest)) :
    (spell (piece :: rest)).head? = piece.text.head? := by
  have visible := IsWhole.text_ne_nil (settled.whole piece List.mem_cons_self)
  rw [spell_cons, List.head?_append_of_ne_nil _ visible]

/-- The pieces of a text do not run into each other. -/
theorem settled_lexemes (text : List Char) : Settled (lexemes text) := by
  fun_induction lexemes text with
  | case1 => exact ⟨List.forall_mem_nil _, .nil⟩
  | case2 rest ih =>
      have known := closed_or_cutString_eq rest
      refine ih.cons ⟨_, rfl, ?_⟩ fun next follows => ⟨fun same => (by cases same), ?_⟩
      · rcases known with closed | whole
        · simpa using closed.cutString_append []
        · rw [whole, whole]
      · intro body same
        cases same
        rcases known with closed | whole
        · exact closed
        · -- behind a string that is never closed there is nothing
          simp [whole, lexemes] at follows
  | case3 rest ih => exact ih.cons rfl fun next _ => meets_comment _ next
  | case4 rest ih => exact ih.cons rfl fun next _ => meets_comment _ next
  | case5 c rest noQuote noLine noBlock ih =>
      refine ih.cons noQuote fun next follows => ⟨?_, fun _ same => by cases same⟩
      rintro ⟨⟩
      obtain ⟨more, begun⟩ := List.head?_eq_some_iff.mp follows
      have first := (begun ▸ ih : Settled (next :: more)).head?_spell
      rw [← begun, spell_lexemes] at first
      constructor
      · intro slash
        obtain ⟨others, rfl⟩ := List.head?_eq_some_iff.mp (first.trans slash)
        exact noLine others rfl rfl
      · intro star
        obtain ⟨others, rfl⟩ := List.head?_eq_some_iff.mp (first.trans star)
        exact noBlock others rfl rfl

theorem lexemes_char {c : Char} {rest : List Char} (noQuote : c ≠ '"')
    (noMark : c = '/' → rest.head? ≠ some '/' ∧ rest.head? ≠ some '*') :
    lexemes (c :: rest) = .char c :: lexemes rest := by
  rw [lexemes.eq_def]
  split <;> simp_all

theorem plainLexemes_char {c : Char} (noQuote : c ≠ '"') (rest : List Char) :
    plainLexemes (c :: rest) = .char c :: plainLexemes rest := by
  rw [plainLexemes.eq_def]
  split <;> simp_all

/-- What follows a string in a row does not change where it ends. -/
theorem Settled.cutString_spell {body : List Char} {rest : List Lexeme}
    (settled : Settled (.string ('"' :: body) :: rest)) :
    cutString (body ++ spell rest) = (body, spell rest) := by
  cases rest with
  | nil =>
      obtain ⟨_, same, whole⟩ := settled.whole _ List.mem_cons_self
      cases same
      simpa using whole
  | cons next rest =>
      have meets := (List.isChain_cons.mp settled.meets).1 next rfl
      exact (meets.closed body rfl).cutString_append _

/-- A row without comments is read back from its text, whether comments are looked for or not. -/
theorem Settled.lexemes_spell {pieces : List Lexeme} (settled : Settled pieces)
    (noComment : ∀ piece ∈ pieces, piece.isComment = false) :
    lexemes (spell pieces) = pieces ∧ plainLexemes (spell pieces) = pieces := by
  induction pieces with
  | nil => simp [lexemes, plainLexemes]
  | cons piece rest ih =>
      obtain ⟨read, readPlain⟩ := ih settled.tail fun other listed =>
        noComment other (List.mem_cons_of_mem _ listed)
      have whole := settled.whole piece List.mem_cons_self
      cases piece with
      | char c =>
          have noMark :
              c = '/' → (spell rest).head? ≠ some '/' ∧ (spell rest).head? ≠ some '*' := by
            rintro rfl
            cases rest with
            | nil => simp
            | cons next more =>
                rw [settled.tail.head?_spell]
                exact ((List.isChain_cons.mp settled.meets).1 next rfl).noMark rfl
          rw [spell_cons, Lexeme.text, List.singleton_append, lexemes_char whole noMark,
            plainLexemes_char whole, read, readPlain]
          exact ⟨rfl, rfl⟩
      | string chars =>
          obtain ⟨body, rfl, -⟩ := whole
          rw [spell_cons, Lexeme.text, List.cons_append, lexemes, plainLexemes,
            settled.cutString_spell, read, readPlain]
          exact ⟨rfl, rfl⟩
      | comment chars => cases noComment _ List.mem_cons_self

end SourceAtlas.Json
