/-
# Taking comments out joins nothing

What is kept of a text stands in front of what is not read yet, and the two together are always a
row of pieces that do not run into each other. Where a piece goes, the pieces on its two sides
become neighbours. They never make a mark together: a comment does not follow a slash, and behind a
comma that goes there is white space or a closing bracket.
-/

import Mathlib.Data.List.Flatten
import Mathlib.Data.List.TakeWhile
import SourceAtlas.Proofs.Json.Lexemes
import SourceAtlas.Proofs.Json.Stripping

namespace SourceAtlas.Json

namespace Lexeme

def isBlank : Lexeme → Bool
  | .char c => Text.isBlank c
  | _ => false

/-- Whether a piece stays in any case: comments go, and commas may. -/
def isLasting : Lexeme → Bool
  | .char c => c != ','
  | .string _ => true
  | .comment _ => false

def isClosing (piece : Lexeme) : Bool := piece == .char '\x7d' || piece == .char ']'

end Lexeme

/-- Takes a comma away from the end of a row, where white space may follow it. The row is given
backwards. -/
def withoutComma (kept : List Lexeme) : List Lexeme :=
  match kept.dropWhile Lexeme.isBlank with
  | .char ',' :: before => kept.takeWhile Lexeme.isBlank ++ before
  | _ => kept

/-- Keeps a piece or not. What is kept so far is given backwards. -/
def keepStep (kept : List Lexeme) (piece : Lexeme) : List Lexeme :=
  if piece.isComment then kept
  else if piece.isClosing then piece :: withoutComma kept
  else piece :: kept

def keptPieces (pieces : List Lexeme) : List Lexeme := (pieces.foldl keepStep []).reverse

theorem withoutComma_cases (kept : List Lexeme) :
    withoutComma kept = kept ∨
      ∃ blanks before, (∀ piece ∈ blanks, piece.isBlank = true) ∧
        kept = blanks ++ .char ',' :: before ∧ withoutComma kept = blanks ++ before := by
  unfold withoutComma
  split
  · rename_i before found
    refine .inr
      ⟨kept.takeWhile Lexeme.isBlank, before, fun piece => List.mem_takeWhile_imp, ?_, rfl⟩
    rw [← found, List.takeWhile_append_dropWhile]
  · exact .inl rfl

/-- All that can happen to a piece: a comment goes, anything else is kept, and a closing bracket may
take a comma away. -/
theorem keepStep_cases (kept : List Lexeme) (piece : Lexeme) :
    (piece.isComment = true ∧ keepStep kept piece = kept) ∨
      (piece.isComment = false ∧ keepStep kept piece = piece :: kept) ∨
      ∃ blanks before, piece.isClosing = true ∧ (∀ piece ∈ blanks, piece.isBlank = true) ∧
        kept = blanks ++ .char ',' :: before ∧
          keepStep kept piece = piece :: (blanks ++ before) := by
  unfold keepStep
  split
  · rename_i comment
    exact .inl ⟨comment, rfl⟩
  · rename_i noComment
    rw [Bool.not_eq_true] at noComment
    split
    · rename_i closing
      rcases withoutComma_cases kept with same | ⟨blanks, before, blank, whole, less⟩
      · exact .inr (.inl ⟨noComment, by rw [same]⟩)
      · exact .inr (.inr ⟨blanks, before, closing, blank, whole, by rw [less]⟩)
    · exact .inr (.inl ⟨noComment, rfl⟩)

theorem not_isComment_of_isClosing {piece : Lexeme} (closing : piece.isClosing = true) :
    piece.isComment = false := by
  simp only [Lexeme.isClosing, Bool.or_eq_true, beq_iff_eq] at closing
  rcases closing with rfl | rfl <;> rfl

theorem keepStep_sublist (kept : List Lexeme) (piece : Lexeme) :
    (keepStep kept piece).Sublist (piece :: kept) := by
  rcases keepStep_cases kept piece with ⟨-, step⟩ | ⟨-, step⟩ | ⟨blanks, before, -, -, rfl, step⟩
  · rw [step]
    exact List.sublist_cons_self piece kept
  · rw [step]
  · rw [step]
    exact ((List.sublist_cons_self _ before).append_left blanks).cons_cons piece

theorem filter_isLasting_keepStep (kept : List Lexeme) (piece : Lexeme) :
    (keepStep kept piece).filter Lexeme.isLasting = (piece :: kept).filter Lexeme.isLasting := by
  rcases keepStep_cases kept piece with ⟨comment, step⟩ | ⟨-, step⟩ |
    ⟨blanks, before, -, -, rfl, step⟩
  · cases piece <;> simp_all [Lexeme.isComment, Lexeme.isLasting]
  · rw [step]
  · have goes : ¬ Lexeme.isLasting (.char ',') = true := by decide
    rw [step, List.filter_cons, List.filter_cons, List.filter_append, List.filter_append,
      List.filter_cons_of_neg goes]

theorem not_isComment_keepStep {kept : List Lexeme} {piece : Lexeme}
    (noComment : ∀ other ∈ kept, other.isComment = false) :
    ∀ other ∈ keepStep kept piece, other.isComment = false := by
  intro other listed
  rcases List.mem_cons.mp ((keepStep_sublist kept piece).subset listed) with rfl | among
  · rcases keepStep_cases kept other with ⟨-, step⟩ | ⟨visible, -⟩ | ⟨_, _, closing, -, -, -⟩
    · exact noComment other (step ▸ listed)
    · exact visible
    · exact not_isComment_of_isClosing closing
  · exact noComment other among

/-- A piece can go from a row if what stands before it also meets what stands behind it. -/
theorem Settled.erase {before after : List Lexeme} {piece : Lexeme}
    (settled : Settled (before ++ piece :: after))
    (seam : ∀ last next : Lexeme, next ∈ after.head? → last.Meets piece → last.Meets next) :
    Settled (before ++ after) := by
  obtain ⟨meetsBefore, meetsPiece, meets⟩ := List.isChain_append.mp settled.meets
  refine ⟨?_, List.isChain_append.mpr ⟨meetsBefore, (List.isChain_cons.mp meetsPiece).2, ?_⟩⟩
  · intro other listed
    apply settled.whole other
    rw [List.mem_append, List.mem_cons]
    rcases List.mem_append.mp listed with early | late
    · exact .inl early
    · exact .inr (.inr late)
  · intro last isLast next isNext
    exact seam last next isNext (meets last isLast piece rfl)

/-- What stands before a comment is no slash and no open string. -/
theorem Lexeme.Meets.of_comment {last piece : Lexeme} (comment : piece.isComment = true)
    (whole : piece.IsWhole) (meets : last.Meets piece) (next : Lexeme) : last.Meets next := by
  refine ⟨fun slash => ?_, meets.closed⟩
  cases piece with
  | char c => cases comment
  | string chars => cases comment
  | comment chars => exact absurd whole (meets.noMark slash).1

/-- White space and closing brackets do not complete a mark. -/
theorem Lexeme.Meets.of_comma {last next : Lexeme}
    (harmless : next.isBlank = true ∨ next.isClosing = true)
    (meets : last.Meets (.char ',')) : last.Meets next := by
  refine ⟨fun _ => ?_, meets.closed⟩
  cases next with
  | char c =>
      simp only [isBlank, isClosing, Bool.or_eq_true, beq_iff_eq, char.injEq] at harmless
      simp only [text, List.head?_cons, ne_eq, Option.some.injEq]
      constructor <;> rintro rfl <;> exact absurd harmless (by decide)
  | string chars => simp [isBlank, isClosing] at harmless
  | comment chars => simp [isBlank, isClosing] at harmless

/-- **One step keeps the seams.** -/
theorem settled_keepStep {kept rest : List Lexeme} {piece : Lexeme}
    (settled : Settled (kept.reverse ++ piece :: rest)) :
    Settled ((keepStep kept piece).reverse ++ rest) := by
  rcases keepStep_cases kept piece with ⟨comment, step⟩ | ⟨-, step⟩ |
    ⟨blanks, before, closing, blank, rfl, step⟩
  · rw [step]
    have whole := settled.whole piece (by simp)
    exact settled.erase fun last next _ meets => meets.of_comment comment whole next
  · rw [step]
    simpa using settled
  · rw [step]
    have row : (blanks ++ .char ',' :: before).reverse ++ piece :: rest =
        before.reverse ++ .char ',' :: (blanks.reverse ++ piece :: rest) := by simp
    rw [row] at settled
    have less := settled.erase fun last next follows meets => meets.of_comma ?_
    · simpa using less
    · rw [List.head?_append, Option.mem_def, Option.or_eq_some_iff] at follows
      rcases follows with white | ⟨-, bracket⟩
      · exact .inl (blank next (List.mem_reverse.mp (List.mem_of_head? white)))
      · cases bracket
        exact .inr closing

theorem settled_foldl_keepStep {pieces kept : List Lexeme}
    (settled : Settled (kept.reverse ++ pieces)) :
    Settled (pieces.foldl keepStep kept).reverse := by
  induction pieces generalizing kept with
  | nil => simpa using settled
  | cons piece rest ih => exact ih (settled_keepStep settled)

/-- The text of a row, both given backwards. -/
def spellBack (kept : List Lexeme) : List Char := kept.flatMap fun piece => piece.text.reverse

theorem spellBack_cons (piece : Lexeme) (kept : List Lexeme) :
    spellBack (piece :: kept) = piece.text.reverse ++ spellBack kept := List.flatMap_cons

theorem spellBack_append (first second : List Lexeme) :
    spellBack (first ++ second) = spellBack first ++ spellBack second := List.flatMap_append

theorem reverse_spellBack (kept : List Lexeme) : (spellBack kept).reverse = spell kept.reverse := by
  induction kept with
  | nil => rfl
  | cons piece rest ih => simp [spellBack_cons, spell_append, ih]

theorem isBlank_of_mem_spellBack {blanks : List Lexeme}
    (blank : ∀ piece ∈ blanks, piece.isBlank = true) :
    ∀ c ∈ spellBack blanks, Text.isBlank c = true := by
  intro c listed
  obtain ⟨piece, among, within⟩ := List.mem_flatMap.mp listed
  have white := blank piece among
  cases piece with
  | char d =>
      obtain rfl : c = d := by simpa [Lexeme.text] using within
      exact white
  | string chars => cases white
  | comment chars => cases white

/-- Whether every piece can stand before a closing bracket: there is no comment, and strings end in
their closing quotes. -/
def AllClosed (kept : List Lexeme) : Prop :=
  ∀ piece ∈ kept, piece.isComment = false ∧
    ∀ chars, piece = .string chars → ∃ front, chars = front ++ ['"']

/-- A comma goes from the text just as it goes from the row. -/
theorem dropComma_spellBack {kept : List Lexeme} (closed : AllClosed kept) :
    dropComma (spellBack kept) = spellBack (withoutComma kept) := by
  have parts : kept = kept.takeWhile Lexeme.isBlank ++ kept.dropWhile Lexeme.isBlank :=
    List.takeWhile_append_dropWhile.symm
  have blank : ∀ c ∈ spellBack (kept.takeWhile Lexeme.isBlank), Text.isBlank c = true :=
    isBlank_of_mem_spellBack fun piece => List.mem_takeWhile_imp
  by_cases comma : (kept.dropWhile Lexeme.isBlank).head? = some (.char ',')
  · obtain ⟨before, visible⟩ := List.head?_eq_some_iff.mp comma
    have less : withoutComma kept = kept.takeWhile Lexeme.isBlank ++ before := by
      simp only [withoutComma, visible]
    rw [less, spellBack_append]
    nth_rewrite 1 [parts]
    rw [visible, spellBack_append, spellBack_cons]
    exact dropComma_append_comma blank _
  · have same : withoutComma kept = kept := by
      unfold withoutComma
      split
      · rename_i visible
        exact absurd (congrArg List.head? visible) comma
      · rfl
    rw [same]
    apply dropComma_of_endsInValue
    rw [parts, spellBack_append]
    apply EndsInValue.append_blanks blank
    cases visible : kept.dropWhile Lexeme.isBlank with
    | nil => simp [EndsInValue, spellBack]
    | cons last before =>
        have listed : last ∈ kept :=
          (List.dropWhile_sublist _).subset (visible ▸ List.mem_cons_self)
        rw [spellBack_cons]
        cases last with
        | char c =>
            have solid : Lexeme.isBlank (.char c) = false := by
              have first := List.head?_dropWhile_not Lexeme.isBlank kept
              rw [visible] at first
              exact first
            have other : c ≠ ',' := by
              rintro rfl
              exact comma (by rw [visible]; rfl)
            exact endsInValue_cons solid other _
        | string chars =>
            obtain ⟨front, rfl⟩ := (closed _ listed).2 chars rfl
            rw [Lexeme.text, List.reverse_append]
            exact endsInValue_cons (by decide) (by decide) _
        | comment chars => cases (closed _ listed).1

/-- What stands before another piece in a settled row is closed. -/
theorem Settled.allClosed {kept rest : List Lexeme} {piece : Lexeme}
    (settled : Settled (kept.reverse ++ piece :: rest))
    (noComment : ∀ other ∈ kept, other.isComment = false) : AllClosed kept := by
  intro other listed
  refine ⟨noComment other listed, ?_⟩
  rintro chars rfl
  obtain ⟨body, rfl, -⟩ := settled.whole _
    (List.mem_append_left _ (List.mem_reverse.mpr listed))
  obtain ⟨early, late, row⟩ := List.append_of_mem (List.mem_reverse.mpr listed)
  have meets := settled.meets
  rw [row, List.append_assoc, List.cons_append] at meets
  have follows := (List.isChain_cons.mp (List.isChain_append.mp meets).2.1).1
  obtain ⟨next, more, begun⟩ := List.exists_cons_of_ne_nil
    (List.append_ne_nil_of_right_ne_nil late (List.cons_ne_nil piece rest))
  rw [begun] at follows
  obtain ⟨front, rfl⟩ := ((follows next rfl).closed body rfl).exists_concat
  exact ⟨'"' :: front, rfl⟩

/-! ## The copier -/

theorem copyCode_string_eq (text copied : List Char) :
    copyCode .string copied text =
      copyCode .code ((cutString text).1.reverse ++ copied) (cutString text).2 := by
  fun_induction cutString text generalizing copied with
  | case1 c rest ih => simp [copyCode, ih]
  | case2 rest => simp [copyCode]
  | case3 c rest noEscape noQuote ih =>
      have step : copyCode .string copied (c :: rest) = copyCode .string (c :: copied) rest := by
        rw [copyCode.eq_def]
        split <;> simp_all
      simp [step, ih]
  | case4 => simp [copyCode]

theorem copyCode_line_eq (text copied : List Char) :
    copyCode .line copied text = copyCode .code copied (text.dropWhile (· != '\n')) := by
  induction text with
  | nil => rfl
  | cons c rest ih =>
      by_cases ending : c = '\n'
      · subst ending
        simp [copyCode]
      · rw [copyCode_line_cons ending, ih, List.dropWhile_cons_of_pos (by simpa using ending)]

theorem copyCode_block_eq (text copied : List Char) :
    copyCode .block copied text = copyCode .code copied (cutBlock text).2 := by
  fun_induction cutBlock text with
  | case1 rest => simp [copyCode]
  | case2 c rest noMark ih =>
      have inside : ¬ ['*', '/'] <+: c :: rest := by
        rintro ⟨more, row⟩
        cases row
        exact noMark more rfl rfl
      rw [copyCode_block_cons inside, ih]
  | case3 => rfl

theorem copyCode_code_other {c : Char} {rest : List Char} (noQuote : c ≠ '"')
    (noLine : ∀ more, c = '/' → rest = '/' :: more → False)
    (noBlock : ∀ more, c = '/' → rest = '*' :: more → False)
    (noBracket : ¬ (c = '\x7d' ∨ c = ']')) (copied : List Char) :
    copyCode .code copied (c :: rest) = copyCode .code (c :: copied) rest := by
  rw [copyCode.eq_def]
  split <;> simp_all

/-- **The copier keeps pieces.** -/
theorem copyCode_eq_spell {text : List Char} {kept : List Lexeme}
    (settled : Settled (kept.reverse ++ lexemes text))
    (noComment : ∀ piece ∈ kept, piece.isComment = false) :
    copyCode .code (spellBack kept) text =
      spell ((lexemes text).foldl keepStep kept).reverse := by
  fun_induction lexemes text generalizing kept with
  | case1 => rw [copyCode, List.foldl_nil, reverse_spellBack]
  | case2 rest ih =>
      have copied := ih (settled_keepStep settled) (not_isComment_keepStep noComment)
      have step : keepStep kept (.string ('"' :: (cutString rest).1)) =
        .string ('"' :: (cutString rest).1) :: kept := rfl
      rw [step, spellBack_cons, Lexeme.text] at copied
      rw [copyCode, copyCode_string_eq, List.foldl_cons, step, ← copied]
      simp
  | case3 rest ih =>
      rw [copyCode, copyCode_line_eq]
      exact ih (settled_keepStep settled) noComment
  | case4 rest ih =>
      rw [copyCode, copyCode_block_eq]
      exact ih (settled_keepStep settled) noComment
  | case5 c rest noQuote noLine noBlock ih =>
      have copied := ih (settled_keepStep settled) (not_isComment_keepStep noComment)
      by_cases closing : c = '\x7d' ∨ c = ']'
      · have step : keepStep kept (.char c) = .char c :: withoutComma kept := by
          rcases closing with rfl | rfl <;> rfl
        rw [List.foldl_cons, ← copied, step, spellBack_cons, copyCode_code_closing closing,
          dropComma_spellBack (settled.allClosed noComment)]
        rfl
      · have step : keepStep kept (.char c) = .char c :: kept := by
          rw [not_or] at closing
          simp [keepStep, Lexeme.isComment, Lexeme.isClosing, closing]
        rw [List.foldl_cons, ← copied, step, spellBack_cons,
          copyCode_code_other noQuote noLine noBlock closing]
        rfl

theorem stripComments_eq_spell (text : List Char) :
    stripComments text = spell (keptPieces (lexemes text)) :=
  @copyCode_eq_spell text [] (settled_lexemes text) (List.forall_mem_nil _)

theorem foldl_keepStep_sublist (pieces kept : List Lexeme) :
    (pieces.foldl keepStep kept).Sublist (pieces.reverse ++ kept) := by
  induction pieces generalizing kept with
  | nil => exact List.Sublist.refl _
  | cons piece rest ih =>
      have later := (ih (keepStep kept piece)).trans ((keepStep_sublist kept piece).append_left _)
      simpa using later

theorem filter_isLasting_foldl_keepStep (pieces kept : List Lexeme) :
    (pieces.foldl keepStep kept).filter Lexeme.isLasting =
      (pieces.reverse ++ kept).filter Lexeme.isLasting := by
  induction pieces generalizing kept with
  | nil => rfl
  | cons piece rest ih =>
      rw [List.foldl_cons, ih, List.filter_append, filter_isLasting_keepStep, ← List.filter_append]
      simp

theorem not_isComment_foldl_keepStep (pieces : List Lexeme) {kept : List Lexeme}
    (noComment : ∀ piece ∈ kept, piece.isComment = false) :
    ∀ piece ∈ pieces.foldl keepStep kept, piece.isComment = false := by
  induction pieces generalizing kept with
  | nil => exact noComment
  | cons piece rest ih => exact ih (not_isComment_keepStep noComment)

theorem keptPieces_sublist (pieces : List Lexeme) : (keptPieces pieces).Sublist pieces := by
  have kept := (foldl_keepStep_sublist pieces []).reverse
  rwa [List.append_nil, List.reverse_reverse] at kept

theorem filter_isLasting_keptPieces (pieces : List Lexeme) :
    (keptPieces pieces).filter Lexeme.isLasting = pieces.filter Lexeme.isLasting := by
  rw [keptPieces, List.filter_reverse, filter_isLasting_foldl_keepStep, ← List.filter_reverse]
  simp

/-- Strings are among the pieces that stay. -/
theorem literals_filter_isLasting (pieces : List Lexeme) :
    literals (pieces.filter Lexeme.isLasting) = literals pieces := by
  rw [literals, literals, List.filterMap_filter]
  apply List.filterMap_congr
  intro piece _
  cases piece <;> simp [Lexeme.isLasting, Lexeme.literal?]

/-- The kept pieces are read back from the text without comments. -/
theorem lexemes_stripComments (text : List Char) :
    Settled (keptPieces (lexemes text)) ∧
      lexemes (stripComments text) = keptPieces (lexemes text) ∧
      plainLexemes (stripComments text) = keptPieces (lexemes text) := by
  have settled : Settled (keptPieces (lexemes text)) :=
    @settled_foldl_keepStep (lexemes text) [] (settled_lexemes text)
  have noComment : ∀ piece ∈ keptPieces (lexemes text), piece.isComment = false :=
    fun piece listed =>
      not_isComment_foldl_keepStep _ (List.forall_mem_nil _) piece (List.mem_reverse.mp listed)
  rw [stripComments_eq_spell]
  exact ⟨settled, settled.lexemes_spell noComment⟩

/-- **Taking comments out joins nothing.** Whatever the text is, what is left of it stands in it in
the same order. Its strings, read without a thought of comments, are the strings of the text outside
of its comments. Reading it with comments makes no difference, as no two characters in a row outside
of its strings are a mark. What is missing besides the comments is commas. -/
theorem literals_stripComments (text : List Char) :
    (stripComments text).Sublist text ∧
      literals (plainLexemes (stripComments text)) = literals (lexemes text) ∧
      lexemes (stripComments text) = plainLexemes (stripComments text) ∧
      (plainLexemes (stripComments text)).IsChain (fun piece next =>
        ¬ (piece = .char '/' ∧ (next = .char '/' ∨ next = .char '*'))) ∧
      (plainLexemes (stripComments text)).filter Lexeme.isLasting =
        (lexemes text).filter Lexeme.isLasting := by
  obtain ⟨settled, read, readPlain⟩ := lexemes_stripComments text
  have lasting := filter_isLasting_keptPieces (lexemes text)
  rw [read, readPlain]
  refine ⟨?_, ?_, rfl, ?_, lasting⟩
  · have sublist := (keptPieces_sublist (lexemes text)).flatMap Lexeme.text
    rwa [← spell, ← spell, ← stripComments_eq_spell, spell_lexemes] at sublist
  · rw [← literals_filter_isLasting, lasting, literals_filter_isLasting]
  · refine settled.meets.imp fun piece next meets => ?_
    rintro ⟨slash, rfl | rfl⟩
    · exact (meets.noMark slash).1 rfl
    · exact (meets.noMark slash).2 rfl

end SourceAtlas.Json
