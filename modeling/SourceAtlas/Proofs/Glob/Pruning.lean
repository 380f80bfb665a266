/-
# Directories named by an entry

The names of a directory can be written as an entry of a configuration in several ways: with `./`
before them or without, and with any number of slashes behind them. The entry becomes a pattern, and
the pattern answers two questions. A path is matched with the whole pattern, and a directory with
what stands before the wildcards, so that nothing beneath it has to be looked at.

Every spelling gives the same answers. A path matches if it has the names of the directory and at
least one more. A directory is skipped if it has exactly these names, so nothing above it or beside
it is.
-/

import SourceAtlas.Proofs.Glob.Entries

namespace SourceAtlas

namespace Glob

/-- Whether a character divides the names on a path. -/
def isDivider (c : Char) : Bool := c == '/' || c == '\\'

/-- The names on a path: the texts between its dividers that are not empty. The dot of a path that
starts with `./` is no name. -/
def namesOn (path : String) : List String :=
  let names := ((path.toList.splitOnP isDivider).map String.ofList).filter fun name => name != ""
  if path.toList.take 2 ∈ [['.', '/'], ['.', '\\']] then names.tail else names

theorem splitAtChar_withSlashes (chars : List Char) :
    Text.splitAtChar '/' (withSlashes chars) = chars.splitOnP isDivider := by
  induction chars with
  | nil => rfl
  | cons c rest ih =>
      obtain ⟨first, others, split⟩ :=
        List.exists_cons_of_ne_nil (List.splitOnP_ne_nil isDivider rest)
      rw [split] at ih
      rw [withSlashes, List.map_cons, ← withSlashes, Text.splitAtChar, ih,
        List.splitOnP_cons_eq_if_modifyHead, split]
      by_cases back : c = '\\'
      · simp [isDivider, back]
      · by_cases slash : c = '/' <;> simp [isDivider, back, slash]

theorem slashParts_withSlashes (chars : List Char) :
    slashParts (withSlashes chars) =
      ((chars.splitOnP isDivider).map String.ofList).filter fun name => name != "" := by
  rw [slashParts, splitAtChar_withSlashes]

theorem take_two_of_isPrefix {chars : List Char} (starts : "./".toList <+: withSlashes chars) :
    chars.take 2 ∈ [['.', '/'], ['.', '\\']] := by
  obtain ⟨more, whole⟩ := starts
  have slashed : withSlashes chars = '.' :: '/' :: more := whole.symm
  obtain ⟨c, later, rfl, dot, slashed⟩ := List.map_eq_cons_iff.mp slashed
  obtain ⟨d, rest, rfl, slash, -⟩ := List.map_eq_cons_iff.mp slashed
  by_cases c = '\\' <;> by_cases d = '\\' <;> simp_all

/-- **The segments of a path are the names on it.** -/
theorem segments_eq_namesOn (path : String) : segments path = namesOn path := by
  rw [segments_eq, namesOn, ← slashParts_withSlashes]
  split
  · rename_i starts
    have whole := List.take_append_drop 2 path.toList
    have slashed : withSlashes path.toList = ['.'] ++ '/' :: withSlashes (path.toList.drop 2) := by
      simp only [List.mem_cons, List.not_mem_nil, or_false] at starts
      rw [← whole]
      rcases starts with starts | starts <;> rw [starts, withSlashes_append] <;> rfl
    rw [slashed, slashParts_append_cons]
    rfl
  · rename_i other
    rw [dropHere_of_not_isPrefix fun starts => other (take_two_of_isPrefix starts)]

/-- Segments without special characters match themselves alone. -/
theorem matchSegments_iff_eq {names parts : List String}
    (literal : ∀ name ∈ names, IsLiteral name.toList) :
    matchSegments names parts = true ↔ parts = names := by
  have nothing (below : List String) : matchSegments [] below = true ↔ below = [] := by
    cases below <;> simp [matchSegments, fits_nil_nil, fits_nil_cons]
  calc
    matchSegments names parts = true ↔ matchSegments (names ++ []) parts = true := by
      rw [List.append_nil]
    _ ↔ ∃ below, parts = names ++ below ∧ matchSegments [] below = true :=
      matchSegments_append_iff literal
    _ ↔ parts = names := by simp [nothing]

/-- A pattern for everything beneath its start covers what the start matches and nothing else. -/
theorem coversDirectory_append_iff {start directory : String} :
    coversDirectory (start ++ everythingBeneath) directory = true ↔
      isMatch start directory = true := by
  rw [coversDirectory_iff]
  constructor
  · rintro ⟨ending, listed, other, same, found⟩
    rw [List.mem_cons, List.mem_singleton] at listed
    rcases listed with rfl | rfl
    · rwa [(String.append_left_inj _).mp same]
    · -- The pattern ends in a single star after a slash, and not in two stars.
      have ends : "/**".toList <:+ (start ++ everythingBeneath).toList := by
        rw [same, String.toList_append]
        exact List.suffix_append _ _
      have also : everythingBeneath.toList <:+ (start ++ everythingBeneath).toList := by
        rw [String.toList_append]
        exact List.suffix_append _ _
      exact absurd (List.suffix_of_suffix_length_le ends also (by decide)) (by decide)
  · intro found
    exact ⟨everythingBeneath, List.mem_cons_self, start, rfl, found⟩

/-- **An entry that names a directory skips exactly this directory.** -/
theorem ignoresDirectory_ofEntry_iff {entry directory : String} (literal : IsLiteral entry.toList)
    (dotless : Dotless entry) :
    ignoresDirectory [ofEntry entry] directory = true ↔
      segments directory = slashParts (dropHere (dropHere (withSlashes entry.toList))) := by
  have parts : ∀ name ∈ slashParts (dropHere (dropHere (withSlashes entry.toList))),
      IsLiteral name.toList := fun name => literal.withSlashes.dropHere.dropHere.of_mem_slashParts
  rw [ignoresDirectory, List.any_cons, List.any_nil, Bool.or_false, ofEntry_eq dotless literal,
    coversDirectory_append_iff, isMatch, dotless.segments_bareEntry, matchSegments_iff_eq parts]

/-- Names that lead to a directory and that an entry can give: none is empty, holds a slash, a
backslash or a special character, the first is no dot, and the last holds none. -/
structure LeadsToDirectory (names : List String) : Prop where
  nonempty : names ≠ []
  undivided : ∀ name ∈ names, Undivided name
  literal : ∀ name ∈ names, IsLiteral name.toList
  notHere : names.head? ≠ some "."
  dotless : ∀ last ∈ names.getLast?, '.' ∉ last.toList

/-- An entry for a directory: its names with slashes between them, after `./` or without it, and
with a number of slashes behind them. -/
def entryFor (names : List String) (here : Bool) (slashes : Nat) : String :=
  (if here then "./" else "") ++ Path.joinSegments names ++
    String.ofList (List.replicate slashes '/')

theorem isLiteral_joinSegments {names : List String}
    (literal : ∀ name ∈ names, IsLiteral name.toList) :
    IsLiteral (Path.joinSegments names).toList := by
  induction names with
  | nil => decide
  | cons name rest ih =>
      have first := literal name List.mem_cons_self
      by_cases more : rest = []
      · subst more
        rwa [Path.joinSegments, String.intercalate_singleton]
      · have later := ih fun other listed => literal other (List.mem_cons_of_mem _ listed)
        have slash : IsLiteral ['/'] := by decide
        rw [toList_joinSegments_cons name more]
        exact first.append (slash.append later)

theorem isLiteral_slashes (count : Nat) : IsLiteral (List.replicate count '/') := by
  intro c listed
  rw [List.eq_of_mem_replicate listed]
  decide

namespace LeadsToDirectory

variable {names : List String} (leads : LeadsToDirectory names) (here : Bool) (slashes : Nat)
include leads

theorem dropHere_joinSegments :
    dropHere (withSlashes (Path.joinSegments names).toList ++ List.replicate slashes '/') =
      withSlashes (Path.joinSegments names).toList ++ List.replicate slashes '/' := by
  have spaced := spaced_joinSegments names
  have visible : withSlashes (Path.joinSegments names).toList ≠ ['.'] := by
    intro dot
    have parts := spaced.slashParts_withSlashes leads.undivided
    rw [dot] at parts
    exact leads.notHere (by rw [← parts]; rfl)
  rw [dropHere_append_slashes visible, spaced.dropHere_withSlashes leads.undivided leads.notHere]

/-- A `./` at the start of an entry is gone after the first look at it. -/
theorem dropHere_entryFor :
    dropHere (withSlashes (entryFor names here slashes).toList) =
      withSlashes (Path.joinSegments names).toList ++ List.replicate slashes '/' := by
  rw [entryFor, String.toList_append, String.toList_append, String.toList_ofList,
    withSlashes_append, withSlashes_append, withSlashes_slashes, List.append_assoc]
  cases here with
  | false => exact leads.dropHere_joinSegments slashes
  | true => rfl

theorem slashParts_entryFor :
    slashParts (withSlashes (Path.joinSegments names).toList ++ List.replicate slashes '/') =
      names := by
  rw [slashParts_append_slashes, (spaced_joinSegments names).slashParts_withSlashes leads.undivided]

theorem isLiteral_entryFor : IsLiteral (entryFor names here slashes).toList := by
  rw [entryFor, String.toList_append, String.toList_append, String.toList_ofList]
  refine (IsLiteral.append ?_ (isLiteral_joinSegments leads.literal)).append
    (isLiteral_slashes slashes)
  cases here <;> decide

theorem dotless_entryFor : Dotless (entryFor names here slashes) := by
  rw [Dotless, segments_eq, leads.dropHere_entryFor, leads.slashParts_entryFor]
  exact leads.dotless

end LeadsToDirectory

/-- **An entry that names a directory is exact.** However it is spelled, its pattern matches the
paths that have the names of the directory and at least one more, and it skips the directory with
these names and no other. -/
theorem ofEntry_exact {names : List String} (leads : LeadsToDirectory names) (here : Bool)
    (slashes : Nat) :
    (∀ path, isMatch (ofEntry (entryFor names here slashes)) path = true ↔
        ∃ below, below ≠ [] ∧ namesOn path = names ++ below) ∧
      ∀ directory, ignoresDirectory [ofEntry (entryFor names here slashes)] directory = true ↔
        namesOn directory = names := by
  have literal := leads.isLiteral_entryFor here slashes
  have dotless := leads.dotless_entryFor here slashes
  have parts : slashParts (dropHere (dropHere (withSlashes (entryFor names here slashes).toList))) =
      names := by
    rw [leads.dropHere_entryFor, leads.dropHere_joinSegments, leads.slashParts_entryFor]
  constructor
  · intro path
    rw [isMatch_ofEntry_iff literal dotless, parts, segments_eq_namesOn]
  · intro directory
    rw [ignoresDirectory_ofEntry_iff literal dotless, parts, segments_eq_namesOn]

/-- Dots that are part of a name, or a name after the first one, are kept. -/
theorem ofEntry_exact_dottedNames :
    LeadsToDirectory [".app", ".", "ui"] ∧
      entryFor [".app", ".", "ui"] true 2 = "./.app/./ui//" ∧
      isMatch (ofEntry "./.app/./ui//") ".app\\./ui/a.tsx" = true ∧
      isMatch (ofEntry "./.app/./ui//") "./.app/./ui" = false ∧
      ignoresDirectory [ofEntry "./.app/./ui//"] "./.app/./ui" = true ∧
      ignoresDirectory [ofEntry "./.app/./ui//"] ".app/." = false := by
  have leads : LeadsToDirectory [".app", ".", "ui"] :=
    ⟨by decide, by decide, by decide, by decide, by decide⟩
  have spelled : entryFor [".app", ".", "ui"] true 2 = "./.app/./ui//" := by decide +kernel
  have itself : namesOn "./.app/./ui" = [".app", ".", "ui"] := by decide +kernel
  obtain ⟨matched, skipped⟩ := ofEntry_exact leads true 2
  rw [spelled] at matched skipped
  refine ⟨leads, spelled, (matched _).mpr ⟨["a.tsx"], by decide, by decide +kernel⟩, ?_,
    (skipped _).mpr itself, ?_⟩
  · rw [Bool.eq_false_iff, Ne, matched, itself]
    rintro ⟨below, more, whole⟩
    exact more (List.self_eq_append_right.mp whole)
  · rw [Bool.eq_false_iff, Ne, skipped]
    decide +kernel

end Glob

end SourceAtlas
