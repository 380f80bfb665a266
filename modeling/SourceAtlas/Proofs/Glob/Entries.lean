/-
# Entries that name a directory

An entry of a configuration without special characters, whose last segment holds no dot, matches
what stands beneath the directory that it names and nothing else. A `./` at the start of the entry
and slashes at its end change nothing about that.
-/

import Mathlib.Data.List.TakeWhile
import SourceAtlas.Proofs.Glob.Blocks

namespace SourceAtlas

namespace Text

theorem mem_of_mem_splitAtChar {sep c : Char} {text piece : List Char}
    (listed : piece ∈ splitAtChar sep text) (among : c ∈ piece) : c ∈ text := by
  induction text generalizing piece with
  | nil =>
      obtain rfl : piece = [] := by simpa [splitAtChar] using listed
      exact among
  | cons d rest ih =>
      obtain ⟨first, others, split⟩ := List.exists_cons_of_ne_nil (splitAtChar_ne_nil sep rest)
      have later : ∀ piece ∈ first :: others, c ∈ piece → c ∈ rest :=
        fun piece found => ih (split ▸ found)
      rw [splitAtChar, split] at listed
      dsimp only at listed
      split at listed
      · rcases List.mem_cons.mp listed with rfl | found
        · cases among
        · exact List.mem_cons_of_mem _ (later piece found among)
      · rcases List.mem_cons.mp listed with rfl | found
        · rcases List.mem_cons.mp among with rfl | among
          · exact List.mem_cons_self
          · exact List.mem_cons_of_mem _ (later first List.mem_cons_self among)
        · exact List.mem_cons_of_mem _ (later piece (List.mem_cons_of_mem _ found) among)

end Text

namespace Glob

theorem mem_of_mem_dropHere {c : Char} {chars : List Char} (listed : c ∈ dropHere chars) :
    c ∈ chars := by
  rcases chars with _ | ⟨d, _ | ⟨e, rest⟩⟩
  · exact listed
  · rwa [dropHere_singleton] at listed
  · rw [dropHere_cons_cons] at listed
    split at listed
    · exact List.mem_cons_of_mem _ (List.mem_cons_of_mem _ listed)
    · exact listed

theorem mem_withSlashes {c : Char} {chars : List Char} (other : c ≠ '\\') (listed : c ∈ chars) :
    c ∈ withSlashes chars :=
  List.mem_map.mpr ⟨c, listed, if_neg (by simpa using other)⟩

theorem mem_dropHere {c : Char} {chars : List Char} (notDot : c ≠ '.') (notSlash : c ≠ '/')
    (listed : c ∈ chars) : c ∈ dropHere chars := by
  rcases chars with _ | ⟨d, _ | ⟨e, rest⟩⟩
  · exact listed
  · rwa [dropHere_singleton]
  · rw [dropHere_cons_cons]
    split
    · rename_i here
      obtain ⟨rfl, rfl⟩ := here
      have later := (List.mem_cons.mp listed).resolve_left notDot
      exact (List.mem_cons.mp later).resolve_left notSlash
    · exact listed

theorem IsLiteral.append {before after : List Char} (first : IsLiteral before)
    (second : IsLiteral after) : IsLiteral (before ++ after) :=
  fun c listed => (List.mem_append.mp listed).elim (first c) (second c)

theorem IsLiteral.withSlashes {chars : List Char} (literal : IsLiteral chars) :
    IsLiteral (withSlashes chars) := by
  intro c listed
  obtain ⟨d, among, rfl⟩ := List.mem_map.mp listed
  split
  · decide
  · exact literal d among

theorem IsLiteral.dropHere {chars : List Char} (literal : IsLiteral chars) :
    IsLiteral (dropHere chars) :=
  fun c listed => literal c (mem_of_mem_dropHere listed)

theorem IsLiteral.of_mem_slashParts {chars : List Char} (literal : IsLiteral chars) {name : String}
    (listed : name ∈ slashParts chars) : IsLiteral name.toList := by
  obtain ⟨piece, among, rfl⟩ := List.mem_map.mp (List.mem_of_mem_filter listed)
  rw [String.toList_ofList]
  exact fun c here => literal c (Text.mem_of_mem_splitAtChar among here)

theorem slashParts_slash (rest : List Char) : slashParts ('/' :: rest) = slashParts rest :=
  slashParts_slashes 1 rest

/-- Where there is anything but slashes there is a segment. -/
theorem slashParts_ne_nil {c : Char} {chars : List Char} (other : c ≠ '/') (listed : c ∈ chars) :
    slashParts chars ≠ [] := by
  induction chars with
  | nil => cases listed
  | cons d rest ih =>
      by_cases slash : d = '/'
      · subst slash
        rw [slashParts_slash]
        exact ih ((List.mem_cons.mp listed).resolve_left other)
      · obtain ⟨first, others, split⟩ :=
          List.exists_cons_of_ne_nil (Text.splitAtChar_ne_nil '/' rest)
        rw [slashParts, Text.splitAtChar, split]
        simp [slash]

theorem exists_eq_dropSlashes_append (chars : List Char) :
    ∃ count, chars = dropSlashes chars ++ List.replicate count '/' := by
  refine ⟨(chars.reverse.takeWhile (· == '/')).length, ?_⟩
  have only : ∀ c ∈ chars.reverse.takeWhile (· == '/'), c = '/' := by
    intro c listed
    simpa using List.mem_takeWhile_imp listed
  have slashes := List.eq_replicate_of_mem only
  calc
    chars = (chars.reverse.takeWhile (· == '/') ++ chars.reverse.dropWhile (· == '/')).reverse := by
      rw [List.takeWhile_append_dropWhile, List.reverse_reverse]
    _ = dropSlashes chars ++ (chars.reverse.takeWhile (· == '/')).reverse := List.reverse_append
    _ = _ := by rw [slashes, List.reverse_replicate, List.length_replicate]

theorem slashParts_append_slashes (chars : List Char) (count : Nat) :
    slashParts (chars ++ List.replicate count '/') = slashParts chars := by
  cases count with
  | zero => rw [List.replicate_zero, List.append_nil]
  | succ count =>
      have nothing : slashParts (List.replicate count '/') = [] := by
        rw [← List.append_nil (List.replicate count '/'), slashParts_slashes]
        rfl
      rw [List.replicate_succ, slashParts_append_cons, nothing, List.append_nil]

theorem dropHere_append_slashes {chars : List Char} (notHere : chars ≠ ['.']) (count : Nat) :
    dropHere (chars ++ List.replicate count '/') = dropHere chars ++ List.replicate count '/' := by
  cases count with
  | zero => rw [List.replicate_zero, List.append_nil, List.append_nil]
  | succ count => rw [List.replicate_succ, dropHere_append_cons notHere]

theorem slashParts_dropSlashes (chars : List Char) :
    slashParts (dropSlashes chars) = slashParts chars := by
  obtain ⟨count, whole⟩ := exists_eq_dropSlashes_append chars
  conv_rhs => rw [whole, slashParts_append_slashes]

theorem slashParts_dropHere_dropSlashes {chars : List Char} (notHere : dropSlashes chars ≠ ['.']) :
    slashParts (dropHere (dropSlashes chars)) = slashParts (dropHere chars) := by
  obtain ⟨count, whole⟩ := exists_eq_dropSlashes_append chars
  conv_rhs => rw [whole, dropHere_append_slashes notHere, slashParts_append_slashes]

/-- What stands after the last slash is the last segment, if there is anything. -/
theorem ofList_lastSegment_mem {chars : List Char} (something : lastSegment chars ≠ []) :
    String.ofList (lastSegment chars) ∈ (slashParts chars).getLast? := by
  have whole : chars = (chars.reverse.dropWhile (· != '/')).reverse ++ lastSegment chars := by
    rw [lastSegment, ← List.reverse_append, List.takeWhile_append_dropWhile, List.reverse_reverse]
  have slashless : '/' ∉ lastSegment chars := by
    intro listed
    simpa using List.mem_takeWhile_imp (List.mem_reverse.mp listed)
  have one : slashParts (lastSegment chars) = [String.ofList (lastSegment chars)] := by
    rw [slashParts, Text.splitAtChar_of_notMem slashless]
    simp [something]
  cases before : chars.reverse.dropWhile (· != '/') with
  | nil =>
      rw [before, List.reverse_nil, List.nil_append] at whole
      rw [← whole] at one ⊢
      rw [one]
      rfl
  | cons c rest =>
      have slash : c = '/' := by
        have first := List.head?_dropWhile_not (· != '/') chars.reverse
        rw [before] at first
        simpa using first
      rw [before, List.reverse_cons, slash, List.append_assoc, List.singleton_append] at whole
      have parts := slashParts_append_cons rest.reverse (lastSegment chars)
      rw [← whole, one] at parts
      rw [parts, List.getLast?_concat]
      rfl

/-- The last segment of an entry holds no dot. -/
def Dotless (entry : String) : Prop := ∀ last ∈ (segments entry).getLast?, '.' ∉ last.toList

instance (entry : String) : Decidable (Dotless entry) :=
  inferInstanceAs (Decidable (∀ last ∈ (segments entry).getLast?, '.' ∉ last.toList))

theorem Dotless.notMem_lastSegment {entry : String} (dotless : Dotless entry) :
    '.' ∉ lastSegment (dropSlashes (dropHere (withSlashes entry.toList))) := by
  intro dot
  have last := ofList_lastSegment_mem (List.ne_nil_of_mem dot)
  rw [slashParts_dropSlashes] at last
  have clean := dotless _ last
  rw [String.toList_ofList] at clean
  exact clean dot

/-! ## Patterns of entries -/

theorem backslash_notMem_withSlashes (chars : List Char) : '\\' ∉ withSlashes chars := by
  intro listed
  obtain ⟨c, -, back⟩ := List.mem_map.mp listed
  split at back
  · cases back
  · rename_i other
    exact other (beq_iff_eq.mpr back)

/-- An entry without `./` at its start and slashes at its end. -/
def bareEntry (entry : String) : String :=
  String.ofList (dropSlashes (dropHere (withSlashes entry.toList)))

theorem withSlashes_bareEntry (entry : String) :
    withSlashes (bareEntry entry).toList = dropSlashes (dropHere (withSlashes entry.toList)) := by
  rw [bareEntry, String.toList_ofList]
  refine withSlashes_of_notMem fun listed => ?_
  obtain ⟨count, whole⟩ := exists_eq_dropSlashes_append (dropHere (withSlashes entry.toList))
  have among : '\\' ∈ dropHere (withSlashes entry.toList) := by
    rw [whole]
    exact List.mem_append_left _ listed
  exact backslash_notMem_withSlashes _ (mem_of_mem_dropHere among)

section Directory

variable {entry : String} (dotless : Dotless entry)
include dotless

theorem Dotless.withSlashes_bareEntry_ne : withSlashes (bareEntry entry).toList ≠ ['.'] := by
  intro here
  have clean := dotless.notMem_lastSegment
  rw [← withSlashes_bareEntry, here] at clean
  exact clean (by decide)

/-- A second `./` at the start of an entry is lost when its segments are read. -/
theorem Dotless.segments_bareEntry :
    segments (bareEntry entry) =
      slashParts (dropHere (dropHere (withSlashes entry.toList))) := by
  have notHere := dotless.withSlashes_bareEntry_ne
  rw [withSlashes_bareEntry] at notHere
  rw [segments_eq, withSlashes_bareEntry, slashParts_dropHere_dropSlashes notHere]

variable (literal : IsLiteral entry.toList)
include literal

/-- An entry without special characters and without a dot in its last segment becomes a pattern for
everything beneath it. -/
theorem ofEntry_eq : ofEntry entry = bareEntry entry ++ everythingBeneath := by
  have clean := dotless.notMem_lastSegment
  have ordinary : (dropHere (withSlashes entry.toList)).any specialChars.contains = false := by
    rw [List.any_eq_false]
    exact fun c listed special =>
      literal.withSlashes.dropHere c listed (List.contains_iff_mem.mp special)
  rw [ofEntry, if_pos (by simpa [ordinary] using clean), bareEntry]

theorem segments_ofEntry :
    segments (ofEntry entry) =
      slashParts (dropHere (dropHere (withSlashes entry.toList))) ++ ["**", "*"] := by
  have whole : (ofEntry entry).toList = (bareEntry entry).toList ++ '/' :: "**/*".toList := by
    rw [ofEntry_eq dotless literal, String.toList_append]
    rfl
  rw [segments_append_slash_of_ne whole dotless.withSlashes_bareEntry_ne,
    dotless.segments_bareEntry]
  rfl

end Directory

/-- Segments without special characters match themselves, and what follows them the rest. -/
theorem matchSegments_append_iff {names wanted parts : List String}
    (literal : ∀ name ∈ names, IsLiteral name.toList) :
    matchSegments (names ++ wanted) parts = true ↔
      ∃ below, parts = names ++ below ∧ matchSegments wanted below = true := by
  constructor
  · intro found
    induction names generalizing parts with
    | nil => exact ⟨parts, rfl, found⟩
    | cons name rest ih =>
        have plain := literal name List.mem_cons_self
        have tame : (name == "**") = false := by
          rw [beq_eq_false_iff_ne]
          rintro rfl
          exact plain '*' (by decide) (by decide)
        rw [List.cons_append, matchSegments] at found
        cases parts with
        | nil =>
            rw [fits_cons_nil, tame] at found
            cases found
        | cons part parts =>
            rw [fits_cons_cons, if_neg (by simp [tame]), Bool.and_eq_true] at found
            obtain ⟨below, rfl, later⟩ :=
              ih (fun other listed => literal other (List.mem_cons_of_mem _ listed)) found.2
            rw [(matchesSegment_iff_eq plain).mp found.1]
            exact ⟨below, rfl, later⟩
  · rintro ⟨below, rfl, later⟩
    exact matchSegments_append (matchSegments_self literal) later

/-- **An entry that names a directory matches exactly what stands beneath it.** -/
theorem isMatch_ofEntry_iff {entry path : String} (literal : IsLiteral entry.toList)
    (dotless : Dotless entry) :
    isMatch (ofEntry entry) path = true ↔
      ∃ below, below ≠ [] ∧
        segments path = slashParts (dropHere (dropHere (withSlashes entry.toList))) ++ below := by
  have parts : ∀ name ∈ slashParts (dropHere (dropHere (withSlashes entry.toList))),
      IsLiteral name.toList := fun name => literal.withSlashes.dropHere.dropHere.of_mem_slashParts
  rw [isMatch, segments_ofEntry dotless literal, matchSegments_append_iff parts]
  constructor
  · rintro ⟨below, whole, matched⟩
    refine ⟨below, ?_, whole⟩
    rintro rfl
    exact absurd matched (by decide)
  · rintro ⟨below, more, whole⟩
    exact ⟨below, whole, matchSegments_anything_beneath more⟩

theorem dropHere_of_not_isPrefix {chars : List Char} (other : ¬ "./".toList <+: chars) :
    dropHere chars = chars := by
  rcases chars with _ | ⟨c, _ | ⟨d, rest⟩⟩
  · rfl
  · exact dropHere_singleton c
  · rw [dropHere_cons_cons, if_neg]
    rintro ⟨rfl, rfl⟩
    exact other ⟨rest, rfl⟩

theorem dropHere_dropHere {chars : List Char} (once : ¬ "././".toList <+: chars) :
    dropHere (dropHere chars) = dropHere chars := by
  rcases chars with _ | ⟨c, _ | ⟨d, rest⟩⟩
  · rfl
  · rw [dropHere_singleton, dropHere_singleton]
  · rw [dropHere_cons_cons]
    split
    · rename_i here
      obtain ⟨rfl, rfl⟩ := here
      refine dropHere_of_not_isPrefix ?_
      rintro ⟨more, rfl⟩
      exact once ⟨more, rfl⟩
    · rename_i other
      rw [dropHere_cons_cons, if_neg other]

theorem withSlashes_ne_here {directory : String} (notHere : directory ≠ ".") :
    withSlashes directory.toList ≠ ['.'] := by
  intro same
  obtain ⟨c, one, back⟩ := List.map_eq_singleton_iff.mp same
  split at back
  · cases back
  · subst back
    exact notHere (String.toList_injective one)

/-- An entry for a directory has its segments, with `./` at the start and slashes at the end or
without them. -/
theorem slashParts_directoryEntry {directory lead tail : String} (notHere : directory ≠ ".")
    (leads : lead ∈ ["", "./"]) (tails : tail ∈ ["", "/"])
    (dotless : Dotless (lead ++ directory ++ tail))
    (once : lead = "" → ¬ "././".toList <+: withSlashes directory.toList) :
    slashParts (dropHere (dropHere (withSlashes (lead ++ directory ++ tail).toList))) =
      segments directory := by
  have visible := withSlashes_ne_here notHere
  obtain ⟨count, slashes⟩ : ∃ count, withSlashes tail.toList = List.replicate count '/' := by
    simp only [List.mem_cons, List.not_mem_nil, or_false] at tails
    rcases tails with rfl | rfl
    · exact ⟨0, rfl⟩
    · exact ⟨1, rfl⟩
  have whole : withSlashes (lead ++ directory ++ tail).toList =
      lead.toList ++ (withSlashes directory.toList ++ List.replicate count '/') := by
    have plain : '\\' ∉ lead.toList := by
      simp only [List.mem_cons, List.not_mem_nil, or_false] at leads
      rcases leads with rfl | rfl <;> decide
    rw [String.toList_append, String.toList_append, withSlashes_append, withSlashes_append,
      withSlashes_of_notMem plain, slashes, List.append_assoc]
  rw [Dotless, segments_eq, whole] at dotless
  rw [segments_eq, whole]
  simp only [List.mem_cons, List.not_mem_nil, or_false] at leads
  rcases leads with rfl | rfl
  · -- The start of the entry is the start of the directory, so both dots would come off it.
    rw [String.toList_empty, List.nil_append, dropHere_append_slashes visible] at dotless ⊢
    have alsoVisible : dropHere (withSlashes directory.toList) ≠ ['.'] := by
      intro here
      rw [here, slashParts_append_slashes] at dotless
      exact dotless "." rfl (by decide)
    rw [dropHere_append_slashes alsoVisible, slashParts_append_slashes,
      dropHere_dropHere (once rfl)]
  · show slashParts (dropHere (withSlashes directory.toList ++ List.replicate count '/')) = _
    rw [dropHere_append_slashes visible, slashParts_append_slashes]

/-- **An entry for a directory matches exactly what stands beneath it.** -/
theorem isMatch_directoryEntry_iff {directory lead tail path : String}
    (literal : IsLiteral directory.toList) (notHere : directory ≠ ".")
    (leads : lead ∈ ["", "./"]) (tails : tail ∈ ["", "/"])
    (dotless : Dotless (lead ++ directory ++ tail))
    (once : lead = "" → ¬ "././".toList <+: withSlashes directory.toList) :
    isMatch (ofEntry (lead ++ directory ++ tail)) path = true ↔
      ∃ below, below ≠ [] ∧ segments path = segments directory ++ below := by
  have before : ∀ lead ∈ ["", "./"], IsLiteral lead.toList := by decide
  have after : ∀ tail ∈ ["", "/"], IsLiteral tail.toList := by decide
  have whole : IsLiteral (lead ++ directory ++ tail).toList := by
    rw [String.toList_append, String.toList_append]
    exact ((before lead leads).append literal).append (after tail tails)
  rw [isMatch_ofEntry_iff whole dotless,
    slashParts_directoryEntry notHere leads tails dotless once]

end Glob

end SourceAtlas
