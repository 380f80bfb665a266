/-
# Matching as a cut into blocks

A path matches a pattern if its segments can be cut into blocks, one for each segment of the
pattern: any number of segments for a `**`, and exactly one for anything else. A segment without
special characters is one that only the same segment matches.
-/

import Mathlib.Data.List.Forall2
import SourceAtlas.Proofs.Glob.Segments

namespace SourceAtlas.Glob

section Rows

variable {α β : Type} {isWildcard : α → Bool} {accepts : α → β → Bool}

/-- Whether items are what a wanted item can stand for: anything for a wildcard, else one item that
it accepts. -/
def StandsFor (isWildcard : α → Bool) (accepts : α → β → Bool) (a : α) (block : List β) : Prop :=
  isWildcard a = false → ∃ b, block = [b] ∧ accepts a b = true

theorem Fits.exists_blocks {wanted : List α} {given : List β}
    (fit : Fits isWildcard accepts wanted given) :
    ∃ blocks : List (List β), blocks.flatten = given ∧
      List.Forall₂ (StandsFor isWildcard accepts) wanted blocks := by
  induction fit with
  | nil => exact ⟨[], rfl, .nil⟩
  | skip wild _ ih =>
      obtain ⟨blocks, whole, each⟩ := ih
      exact ⟨[] :: blocks, whole, .cons (fun tame => by simp [wild] at tame) each⟩
  | @grow a rest b given wild _ ih =>
      obtain ⟨blocks, rfl, each⟩ := ih
      cases each with
      | @cons _ block _ others _ each =>
          exact ⟨(b :: block) :: others, rfl, .cons (fun tame => by simp [wild] at tame) each⟩
  | @one a rest b given tame accepted _ ih =>
      obtain ⟨blocks, rfl, each⟩ := ih
      exact ⟨[b] :: blocks, rfl, .cons (fun _ => ⟨b, rfl, accepted⟩) each⟩

theorem Fits.of_blocks {wanted : List α} {blocks : List (List β)}
    (each : List.Forall₂ (StandsFor isWildcard accepts) wanted blocks) :
    Fits isWildcard accepts wanted blocks.flatten := by
  induction each with
  | nil => exact .nil
  | @cons a block rest others stands _ ih =>
      cases wild : isWildcard a with
      | true => exact (Fits.wildcard wild block).append ih
      | false =>
          obtain ⟨b, rfl, accepted⟩ := stands wild
          exact .one wild accepted ih

end Rows

/-- Whether segments are what a segment of a pattern stands for. -/
def IsBlock (wanted : String) (block : List String) : Prop :=
  wanted ≠ "**" → ∃ part, block = [part] ∧ matchesSegment wanted part = true

theorem standsFor_iff_isBlock {wanted : String} {block : List String} :
    StandsFor (· == "**") matchesSegment wanted block ↔ IsBlock wanted block := by
  simp [StandsFor, IsBlock]

theorem matchSegments_iff_blocks {wanted parts : List String} :
    matchSegments wanted parts = true ↔
      ∃ blocks : List (List String), blocks.flatten = parts ∧
        List.Forall₂ IsBlock wanted blocks := by
  rw [matchSegments, fits_eq_true_iff]
  constructor
  · intro fit
    obtain ⟨blocks, whole, each⟩ := fit.exists_blocks
    exact ⟨blocks, whole, each.imp fun _ _ => standsFor_iff_isBlock.mp⟩
  · rintro ⟨blocks, rfl, each⟩
    exact Fits.of_blocks (each.imp fun _ _ => standsFor_iff_isBlock.mpr)

/-- A text without special characters. -/
def IsLiteral (chars : List Char) : Prop := ∀ c ∈ chars, c ∉ specialChars

instance (chars : List Char) : Decidable (IsLiteral chars) :=
  List.decidableBAll (· ∉ specialChars) chars

theorem IsLiteral.tail {c : Char} {rest : List Char} (literal : IsLiteral (c :: rest)) :
    IsLiteral rest :=
  fun other listed => literal other (List.mem_cons_of_mem _ listed)

theorem IsLiteral.piecesUpTo_eq {chars : List Char} (literal : IsLiteral chars) :
    piecesUpTo chars.length chars = chars.map .literal := by
  induction chars with
  | nil => rfl
  | cons c rest ih =>
      have ordinary := literal c List.mem_cons_self
      simp only [specialChars, List.mem_cons, List.not_mem_nil, or_false, not_or] at ordinary
      rw [List.length_cons, piecesUpTo, ih literal.tail]
      simp [ordinary]

theorem matchPieces_literal_iff {chars given : List Char} :
    matchPieces (chars.map .literal) given = true ↔ given = chars := by
  induction chars generalizing given with
  | nil => cases given <;> simp [matchPieces, fits_nil_nil, fits_nil_cons]
  | cons c rest ih =>
      have tame : (Piece.literal c == .run) = false := rfl
      rw [List.map_cons, matchPieces]
      cases given with
      | nil => simp [fits_cons_nil, tame]
      | cons d given =>
          have later := @ih given
          rw [matchPieces] at later
          simp [fits_cons_cons, tame, Piece.accepts, later]

/-- A segment without special characters stands for itself alone. -/
theorem matchesSegment_iff_eq {pattern segment : String} (literal : IsLiteral pattern.toList) :
    matchesSegment pattern segment = true ↔ segment = pattern := by
  rw [matchesSegment, pieces, literal.piecesUpTo_eq, matchPieces_literal_iff, String.toList_inj]

theorem matchSegments_self {names : List String} (literal : ∀ name ∈ names, IsLiteral name.toList) :
    matchSegments names names = true := by
  refine matchSegments_iff_blocks.mpr ⟨names.map ([·]), ?_, ?_⟩
  · rw [← List.flatMap_def, List.flatMap_singleton']
  · rw [List.forall₂_map_right_iff, List.forall₂_same]
    exact fun name listed _ => ⟨name, rfl, (matchesSegment_iff_eq (literal name listed)).mpr rfl⟩

/-- A name between two `**` matches every path on which it stands. -/
theorem matchSegments_anywhere {name : String} (literal : IsLiteral name.toList)
    {parts : List String} (listed : name ∈ parts) :
    matchSegments ["**", name, "**"] parts = true := by
  obtain ⟨before, after, rfl⟩ := List.append_of_mem listed
  have here : matchSegments [name] [name] = true :=
    matchSegments_self fun other only => List.mem_singleton.mp only ▸ literal
  exact matchSegments_append (matchSegments_anything before)
    (matchSegments_append here (matchSegments_anything after))

/-- **A path matches a pattern exactly if it can be cut into blocks for it.** The blocks stand in
order for the segments of the pattern. And the segments are what they should be: names that are not
empty and hold neither slash nor backslash, the first of which is no dot, are the segments of every
path in which one or more slashes stand between them, with `./`, a slash or nothing at the start. -/
theorem isMatch_iff_blocks (pattern path : String) :
    (isMatch pattern path = true ↔
        ∃ blocks : List (List String), blocks.flatten = segments path ∧
          List.Forall₂ IsBlock (segments pattern) blocks) ∧
      ∀ (names : List String) (spacedPath : String), (∀ name ∈ names, Undivided name) →
        names.head? ≠ some "." → Spaced names spacedPath →
        ∀ lead ∈ ["", "./", "/"], segments (lead ++ spacedPath) = names := by
  refine ⟨matchSegments_iff_blocks, ?_⟩
  intro names spacedPath undivided notHere spaced lead known
  exact spaced.segments_append undivided notHere known

theorem isMatch_iff_blocks_spacedPath :
    (∀ name ∈ ["src", ".", "b.tsx"], Undivided name) ∧
      ["src", ".", "b.tsx"].head? ≠ some "." ∧ Spaced ["src", ".", "b.tsx"] "src//./b.tsx" ∧
      "./" ∈ ["", "./", "/"] ∧ segments ("./" ++ "src//./b.tsx") = ["src", ".", "b.tsx"] ∧
      (isMatch "src/**/*.tsx" ("./" ++ "src//./b.tsx") = true ↔
        ∃ blocks : List (List String), blocks.flatten = segments ("./" ++ "src//./b.tsx") ∧
          List.Forall₂ IsBlock (segments "src/**/*.tsx") blocks) := by
  have undivided : ∀ name ∈ ["src", ".", "b.tsx"], Undivided name := by decide
  have notHere : ["src", ".", "b.tsx"].head? ≠ some "." := by decide
  have spaced : Spaced ["src", ".", "b.tsx"] "src//./b.tsx" :=
    .more "src" 1 (by decide) (.more "." 0 (by decide) (.one "b.tsx"))
  obtain ⟨blocks, names⟩ := isMatch_iff_blocks "src/**/*.tsx" ("./" ++ "src//./b.tsx")
  exact ⟨undivided, notHere, spaced, by decide, names _ _ undivided notHere spaced "./" (by decide),
    blocks⟩

end SourceAtlas.Glob
