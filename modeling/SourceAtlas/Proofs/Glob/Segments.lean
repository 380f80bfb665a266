/-
# The segments of paths and patterns

Names that contain no slash and no backslash are read back from the path that they make, however
many slashes stand between them. A pattern for everything beneath a directory has the segments of
the directory and what stands for anything beneath it, so a directory is only skipped if every file
beneath it is ignored.
-/

import SourceAtlas.Disk.Path
import SourceAtlas.Proofs.Glob.Matching

namespace SourceAtlas

namespace Text

theorem splitAtChar_ne_nil (sep : Char) (text : List Char) : splitAtChar sep text ≠ [] := by
  cases text with
  | nil => simp [splitAtChar]
  | cons c rest =>
      rw [splitAtChar]
      split
      · simp
      · split <;> simp

/-- A text is split at a separator wherever it stands. -/
theorem splitAtChar_append_cons (sep : Char) (before after : List Char) :
    splitAtChar sep (before ++ sep :: after) = splitAtChar sep before ++ splitAtChar sep after := by
  induction before with
  | nil =>
      obtain ⟨piece, pieces, split⟩ :=
        List.exists_cons_of_ne_nil (splitAtChar_ne_nil sep after)
      simp [splitAtChar, split]
  | cons c rest ih =>
      obtain ⟨piece, pieces, split⟩ :=
        List.exists_cons_of_ne_nil (splitAtChar_ne_nil sep rest)
      rw [List.cons_append, splitAtChar, splitAtChar, ih, split]
      simp only [List.cons_append]
      split <;> rfl

theorem splitAtChar_of_notMem {sep : Char} {text : List Char} (absent : sep ∉ text) :
    splitAtChar sep text = [text] := by
  induction text with
  | nil => rfl
  | cons c rest ih =>
      rw [List.mem_cons, not_or] at absent
      rw [splitAtChar, ih absent.2]
      simp [Ne.symm absent.1]

end Text

namespace Glob

/-- The segments between slashes. -/
def slashParts (chars : List Char) : List String :=
  ((Text.splitAtChar '/' chars).map String.ofList).filter fun segment => segment != ""

theorem segments_eq (path : String) :
    segments path = slashParts (dropHere (withSlashes path.toList)) := rfl

theorem slashParts_append_cons (before after : List Char) :
    slashParts (before ++ '/' :: after) = slashParts before ++ slashParts after := by
  rw [slashParts, Text.splitAtChar_append_cons, List.map_append, List.filter_append]
  rfl

theorem slashParts_name {name : String} (nonempty : name ≠ "") (slashless : '/' ∉ name.toList) :
    slashParts name.toList = [name] := by
  rw [slashParts, Text.splitAtChar_of_notMem slashless]
  simp [nonempty]

theorem dropHere_singleton (c : Char) : dropHere [c] = [c] := by
  rw [dropHere]
  intro rest absurd
  cases absurd

theorem dropHere_cons_cons (c d : Char) (rest : List Char) :
    dropHere (c :: d :: rest) = if c = '.' ∧ d = '/' then rest else c :: d :: rest := by
  unfold dropHere
  split
  · simp_all
  · rename_i other
    rw [if_neg]
    rintro ⟨rfl, rfl⟩
    exact other rest rfl

/-- A slash behind a text changes nothing about its start, unless the text is a lone dot. -/
theorem dropHere_append_cons {before : List Char} (notHere : before ≠ ['.'])
    (after : List Char) : dropHere (before ++ '/' :: after) = dropHere before ++ '/' :: after := by
  rcases before with _ | ⟨c, _ | ⟨d, rest⟩⟩
  · rfl
  · have other : c ≠ '.' := by rintro rfl; exact notHere rfl
    rw [List.singleton_append, dropHere_cons_cons, if_neg fun both => other both.1,
      dropHere_singleton, List.singleton_append]
  · rw [List.cons_append, List.cons_append, dropHere_cons_cons, dropHere_cons_cons]
    split <;> rfl

theorem dropHere_of_notMem {chars : List Char} (slashless : '/' ∉ chars) :
    dropHere chars = chars := by
  rcases chars with _ | ⟨c, _ | ⟨d, rest⟩⟩
  · rfl
  · exact dropHere_singleton c
  · rw [dropHere_cons_cons, if_neg]
    rintro ⟨-, rfl⟩
    simp at slashless

theorem withSlashes_append (before after : List Char) :
    withSlashes (before ++ after) = withSlashes before ++ withSlashes after :=
  List.map_append

theorem withSlashes_of_notMem {chars : List Char} (absent : '\\' ∉ chars) :
    withSlashes chars = chars := by
  rw [withSlashes, List.map_congr_left (g := id), List.map_id]
  intro c among
  have other : c ≠ '\\' := by rintro rfl; exact absent among
  simp [other]

/-- A name that is one segment wherever it stands in a path, but for a dot at the start. -/
structure Undivided (name : String) : Prop where
  nonempty : name ≠ ""
  slashless : '/' ∉ name.toList
  backslashless : '\\' ∉ name.toList

instance (name : String) : Decidable (Undivided name) :=
  decidable_of_iff (name ≠ "" ∧ '/' ∉ name.toList ∧ '\\' ∉ name.toList)
    ⟨fun ⟨nonempty, slashless, backslashless⟩ => ⟨nonempty, slashless, backslashless⟩,
      fun undivided => ⟨undivided.nonempty, undivided.slashless, undivided.backslashless⟩⟩

/-- A path is made of names, with one or more slashes between each two. -/
inductive Spaced : List String → String → Prop
  | nil : Spaced [] ""
  | one (name : String) : Spaced [name] name
  | more (name : String) (gap : Nat) {rest : List String} {tail : String} (more : rest ≠ [])
      (spaced : Spaced rest tail) :
      Spaced (name :: rest) (name ++ String.ofList (List.replicate (gap + 1) '/') ++ tail)

theorem slashParts_slashes (count : Nat) (chars : List Char) :
    slashParts (List.replicate count '/' ++ chars) = slashParts chars := by
  induction count with
  | zero => rfl
  | succ count ih =>
      rw [List.replicate_succ, List.cons_append, ← List.nil_append ('/' :: _),
        slashParts_append_cons, ih]
      rfl

theorem withSlashes_slashes (count : Nat) :
    withSlashes (List.replicate count '/') = List.replicate count '/' :=
  withSlashes_of_notMem fun listed => absurd (List.eq_of_mem_replicate listed) (by decide)

theorem withSlashes_spaced (name : String) (backslashless : '\\' ∉ name.toList) (gap : Nat)
    (tail : String) :
    withSlashes (name ++ String.ofList (List.replicate (gap + 1) '/') ++ tail).toList =
      name.toList ++ '/' :: (List.replicate gap '/' ++ withSlashes tail.toList) := by
  rw [String.toList_append, String.toList_append, String.toList_ofList, withSlashes_append,
    withSlashes_append, withSlashes_of_notMem backslashless, withSlashes_slashes,
    List.replicate_succ, List.append_assoc, List.cons_append]

theorem Spaced.slashParts_withSlashes {names : List String} {path : String}
    (spaced : Spaced names path) (undivided : ∀ name ∈ names, Undivided name) :
    slashParts (withSlashes path.toList) = names := by
  induction spaced with
  | nil => rfl
  | one name =>
      have first := undivided name List.mem_cons_self
      rw [withSlashes_of_notMem first.backslashless, slashParts_name first.nonempty first.slashless]
  | @more name gap rest tail _ _ ih =>
      have first := undivided name List.mem_cons_self
      have later := ih fun other listed => undivided other (List.mem_cons_of_mem _ listed)
      rw [withSlashes_spaced name first.backslashless, slashParts_append_cons, slashParts_slashes,
        slashParts_name first.nonempty first.slashless, later, List.singleton_append]

/-- A path whose first name is no dot does not start with `./`. -/
theorem Spaced.dropHere_withSlashes {names : List String} {path : String}
    (spaced : Spaced names path) (undivided : ∀ name ∈ names, Undivided name)
    (notHere : names.head? ≠ some ".") :
    dropHere (withSlashes path.toList) = withSlashes path.toList := by
  cases spaced with
  | nil => rfl
  | one name =>
      have first := undivided path List.mem_cons_self
      rw [withSlashes_of_notMem first.backslashless, dropHere_of_notMem first.slashless]
  | more name gap _ _ =>
      have first := undivided name List.mem_cons_self
      have other : name.toList ≠ ['.'] := by
        intro here
        have : name = "." := String.toList_injective here
        exact notHere (by rw [this]; rfl)
      rw [withSlashes_spaced name first.backslashless, dropHere_append_cons other,
        dropHere_of_notMem first.slashless]

/-- **Names are read back however they are spaced.** -/
theorem Spaced.segments_append {names : List String} {path : String}
    (spaced : Spaced names path) (undivided : ∀ name ∈ names, Undivided name)
    (notHere : names.head? ≠ some ".") {lead : String} (known : lead ∈ ["", "./", "/"]) :
    segments (lead ++ path) = names := by
  have parts := spaced.slashParts_withSlashes undivided
  rw [segments_eq, String.toList_append, withSlashes_append]
  simp only [List.mem_cons, List.not_mem_nil, or_false] at known
  rcases known with rfl | rfl | rfl
  · exact (congrArg slashParts (spaced.dropHere_withSlashes undivided notHere)).trans parts
  · exact parts
  · exact (slashParts_slashes 1 _).trans parts

theorem toList_joinSegments_cons (name : String) {rest : List String} (more : rest ≠ []) :
    (Path.joinSegments (name :: rest)).toList =
      name.toList ++ '/' :: (Path.joinSegments rest).toList := by
  rw [Path.joinSegments, String.intercalate_cons_of_ne_nil more, String.toList_append,
    String.toList_append, List.append_assoc]
  rfl

theorem spaced_joinSegments (names : List String) : Spaced names (Path.joinSegments names) := by
  induction names with
  | nil => exact .nil
  | cons name rest ih =>
      by_cases more : rest = []
      · subst more
        rw [Path.joinSegments, String.intercalate_singleton]
        exact .one name
      · rw [Path.joinSegments, String.intercalate_cons_of_ne_nil more]
        exact .more name 0 more ih

/-- A name that an entry can have beneath a directory and that means the same in a path: it contains
neither slash nor backslash, and it is neither empty nor the directory itself. -/
structure PlainName (name : String) : Prop where
  nonempty : name ≠ ""
  notHere : name ≠ "."
  slashless : '/' ∉ name.toList
  backslashless : '\\' ∉ name.toList

namespace PlainName

instance (name : String) : Decidable (PlainName name) :=
  decidable_of_iff (name ≠ "" ∧ name ≠ "." ∧ '/' ∉ name.toList ∧ '\\' ∉ name.toList)
    ⟨fun ⟨nonempty, notHere, slashless, backslashless⟩ =>
      ⟨nonempty, notHere, slashless, backslashless⟩,
      fun plain => ⟨plain.nonempty, plain.notHere, plain.slashless, plain.backslashless⟩⟩

theorem undivided {name : String} (plain : PlainName name) : Undivided name :=
  ⟨plain.nonempty, plain.slashless, plain.backslashless⟩

end PlainName

/-- **Names are read back from a path.** -/
theorem segments_joinSegments {names : List String} (plain : ∀ name ∈ names, PlainName name) :
    segments (Path.joinSegments names) = names := by
  have undivided : ∀ name ∈ names, Undivided name :=
    fun name listed => (plain name listed).undivided
  have notHere : names.head? ≠ some "." :=
    fun here => (plain "." (List.mem_of_mem_head? here)).notHere rfl
  have spaced := spaced_joinSegments names
  rw [segments_eq, spaced.dropHere_withSlashes undivided notHere,
    spaced.slashParts_withSlashes undivided]

/-- What stands before the end of a pattern is what the end can be put behind. -/
theorem beforeEnd?_eq_some_iff {pattern ending start : String} :
    beforeEnd? pattern ending = some start ↔ pattern = start ++ ending := by
  rw [beforeEnd?, Option.ite_none_right_eq_some, List.isSuffixOf_iff_suffix, Option.some.injEq]
  constructor
  · rintro ⟨⟨before, whole⟩, rfl⟩
    apply String.toList_injective
    rw [String.toList_append, String.toList_ofList, ← whole]
    simp
  · rintro rfl
    simp

/-- A pattern covers the directories that it matches without one of the ends for anything. -/
theorem coversDirectory_iff {pattern directory : String} :
    coversDirectory pattern directory = true ↔
      ∃ ending ∈ [everythingBeneath, "/**"], ∃ start, pattern = start ++ ending ∧
        isMatch start directory = true := by
  simp only [coversDirectory, List.any_eq_true, ← beforeEnd?_eq_some_iff]
  refine exists_congr fun ending => and_congr_right fun _ => ?_
  cases beforeEnd? pattern ending <;> simp

section Slash

variable {pattern start : String} {tail : List Char}
  (whole : pattern.toList = start.toList ++ '/' :: tail)
include whole

theorem withSlashes_append_slash :
    withSlashes pattern.toList = withSlashes start.toList ++ '/' :: withSlashes tail := by
  rw [whole, withSlashes_append]
  rfl

theorem segments_append_slash_of_ne (notHere : withSlashes start.toList ≠ ['.']) :
    segments pattern = segments start ++ slashParts (withSlashes tail) := by
  rw [segments_eq, segments_eq, withSlashes_append_slash whole, dropHere_append_cons notHere,
    slashParts_append_cons]

/-- The segments of a pattern are those of its two parts, except that a lone dot before the slash
counts for nothing. -/
theorem segments_append_slash :
    segments pattern = segments start ++ slashParts (withSlashes tail) ∨
      segments pattern = slashParts (withSlashes tail) := by
  by_cases here : withSlashes start.toList = ['.']
  · right
    rw [segments_eq, withSlashes_append_slash whole, here, List.singleton_append,
      dropHere_cons_cons, if_pos ⟨rfl, rfl⟩]
  · left
    exact segments_append_slash_of_ne whole here

end Slash

section Beneath

-- The segments of a path are those of a directory and some more.
variable {directory path : String} {below : List String} (more : below ≠ [])
  (parts : segments path = segments directory ++ below)
include more parts

/-- A pattern with an end that stands for anything matches everything beneath what its start
matches. -/
theorem isMatch_beneath {start ending : String} (tail : List Char)
    (divided : ending.toList = '/' :: tail)
    (anything : ∀ parts, parts ≠ [] → matchSegments (slashParts (withSlashes tail)) parts = true)
    (found : isMatch start directory = true) : isMatch (start ++ ending) path = true := by
  have whole : (start ++ ending).toList = start.toList ++ '/' :: tail := by
    rw [String.toList_append, divided]
  rw [isMatch, parts]
  rcases segments_append_slash whole with wanted | wanted
  · rw [wanted]
    exact matchSegments_append found (anything below more)
  · rw [wanted]
    exact anything _ (List.append_ne_nil_of_right_ne_nil _ more)

/-- A pattern that covers a directory matches every path beneath it. -/
theorem isMatch_of_coversDirectory {pattern : String}
    (covered : coversDirectory pattern directory = true) : isMatch pattern path = true := by
  obtain ⟨ending, listed, start, rfl, found⟩ := coversDirectory_iff.mp covered
  rw [List.mem_cons, List.mem_singleton] at listed
  rcases listed with rfl | rfl
  · exact isMatch_beneath more parts "**/*".toList rfl
      (fun _ nonempty => matchSegments_anything_beneath nonempty) found
  · exact isMatch_beneath more parts "**".toList rfl
      (fun parts _ => matchSegments_anything parts) found

/-- **Skipping a directory loses nothing.** Every path beneath a directory that is skipped is
ignored. -/
theorem matchesAny_of_ignoresDirectory {ignored : List String}
    (skipped : ignoresDirectory ignored directory = true) : matchesAny ignored path = true := by
  rw [ignoresDirectory, List.any_eq_true] at skipped
  obtain ⟨pattern, listed, covered⟩ := skipped
  rw [matchesAny, List.any_eq_true]
  exact ⟨pattern, listed, isMatch_of_coversDirectory more parts covered⟩

end Beneath

end Glob

end SourceAtlas
