/-
# Normal absolute paths

The absolute normal form of a path has one or two slashes at its start and then the names of
directories, none of which is empty, `.` or `..`. A path of that form is its own normal form, so
making a path absolute twice is the same as making it absolute once.
-/

import SourceAtlas.Disk.Basic
import SourceAtlas.Proofs.Glob.Segments

namespace SourceAtlas

namespace Text

theorem notMem_of_mem_splitAtChar {sep : Char} {text piece : List Char}
    (listed : piece ∈ splitAtChar sep text) : sep ∉ piece := by
  induction text generalizing piece with
  | nil =>
      obtain rfl : piece = [] := by simpa [splitAtChar] using listed
      exact List.not_mem_nil
  | cons c rest ih =>
      obtain ⟨first, others, split⟩ := List.exists_cons_of_ne_nil (splitAtChar_ne_nil sep rest)
      have clean : ∀ piece ∈ first :: others, sep ∉ piece := fun piece among => ih (split ▸ among)
      rw [splitAtChar, split] at listed
      dsimp only at listed
      split at listed
      · rcases List.mem_cons.1 listed with rfl | among
        · exact List.not_mem_nil
        · exact clean piece among
      · rename_i other
        rcases List.mem_cons.1 listed with rfl | among
        · rw [List.mem_cons, not_or]
          exact ⟨fun same => other (beq_iff_eq.2 same.symm), clean first List.mem_cons_self⟩
        · exact clean piece (List.mem_cons_of_mem _ among)

end Text

namespace Path

/-- A segment that stays as it is in a normal absolute path. -/
structure IsName (segment : String) : Prop where
  nonempty : segment ≠ ""
  notHere : segment ≠ "."
  notParent : segment ≠ ".."
  slashless : '/' ∉ segment.toList

instance (segment : String) : Decidable (IsName segment) :=
  decidable_of_iff (segment ≠ "" ∧ segment ≠ "." ∧ segment ≠ ".." ∧ '/' ∉ segment.toList)
    ⟨fun ⟨nonempty, notHere, notParent, slashless⟩ => ⟨nonempty, notHere, notParent, slashless⟩,
      fun name => ⟨name.nonempty, name.notHere, name.notParent, name.slashless⟩⟩

theorem slashless_of_mem_rawSegments {path segment : String}
    (listed : segment ∈ rawSegments path) : '/' ∉ segment.toList := by
  obtain ⟨piece, among, rfl⟩ := List.mem_map.1 listed
  rw [String.toList_ofList]
  exact Text.notMem_of_mem_splitAtChar among

/-- Below the root, adding a segment keeps names only. -/
theorem isName_pushSegment {done : List String} (names : ∀ s ∈ done, IsName s) {segment : String}
    (slashless : '/' ∉ segment.toList) : ∀ s ∈ pushSegment true done segment, IsName s := by
  unfold pushSegment
  split
  · exact names
  · rename_i visible
    rw [Bool.or_eq_true, beq_iff_eq, beq_iff_eq, not_or] at visible
    split
    · split
      · exact names
      · rename_i last rest
        have inner := names last List.mem_cons_self
        rw [if_neg (by simpa using inner.notParent)]
        exact fun s listed => names s (List.mem_cons_of_mem _ listed)
    · rename_i notParent
      intro s listed
      rcases List.mem_cons.1 listed with rfl | among
      · exact ⟨visible.1, visible.2, by simpa using notParent, slashless⟩
      · exact names s among

theorem isName_foldl_pushSegment {segments done : List String} (names : ∀ s ∈ done, IsName s)
    (slashless : ∀ s ∈ segments, '/' ∉ s.toList) :
    ∀ s ∈ segments.foldl (pushSegment true) done, IsName s := by
  induction segments generalizing done with
  | nil => exact names
  | cons segment rest ih =>
      exact ih (isName_pushSegment names (slashless segment List.mem_cons_self))
        fun s listed => slashless s (List.mem_cons_of_mem _ listed)

theorem isName_normalSegments {path : String} (absolute : isAbsolute path = true) :
    ∀ s ∈ normalSegments path, IsName s := by
  intro s listed
  rw [normalSegments, absolute, List.mem_reverse] at listed
  exact isName_foldl_pushSegment (fun _ none => absurd none List.not_mem_nil)
    (fun _ => slashless_of_mem_rawSegments) s listed

theorem foldl_pushSegment_names {names : List String} (all : ∀ s ∈ names, IsName s)
    (absolute : Bool) (done : List String) :
    names.foldl (pushSegment absolute) done = names.reverse ++ done := by
  induction names generalizing done with
  | nil => rfl
  | cons name rest ih =>
      have first := all name List.mem_cons_self
      have pushed : pushSegment absolute done name = name :: done := by
        simp [pushSegment, first.nonempty, first.notHere, first.notParent]
      rw [List.foldl_cons, pushed, ih fun s listed => all s (List.mem_cons_of_mem _ listed)]
      simp

theorem rawSegments_joinSegments {names : List String} (some : names ≠ [])
    (slashless : ∀ s ∈ names, '/' ∉ s.toList) : rawSegments (joinSegments names) = names := by
  induction names with
  | nil => exact absurd rfl some
  | cons name rest ih =>
      have first := slashless name List.mem_cons_self
      by_cases more : rest = []
      · subst more
        rw [joinSegments, String.intercalate_singleton, rawSegments,
          Text.splitAtChar_of_notMem first]
        simp
      · have later := ih more fun s listed => slashless s (List.mem_cons_of_mem _ listed)
        rw [rawSegments, Glob.toList_joinSegments_cons name more, Text.splitAtChar_append_cons,
          Text.splitAtChar_of_notMem first, List.map_append, ← rawSegments, later]
        simp

/-- The path with slashes at its start and then names. -/
def rooted (slashes : Nat) (names : List String) : String :=
  String.ofList (List.replicate slashes '/') ++ joinSegments names

theorem toList_rooted (slashes : Nat) (names : List String) :
    (rooted slashes names).toList = List.replicate slashes '/' ++ (joinSegments names).toList := by
  rw [rooted, String.toList_append, String.toList_ofList]

theorem isAbsolute_iff {path : String} :
    isAbsolute path = true ↔ ∃ rest, path.toList = '/' :: rest := by
  rw [isAbsolute, String.startsWith_string_iff]
  constructor
  · rintro ⟨rest, whole⟩
    exact ⟨rest, whole.symm⟩
  · rintro ⟨rest, whole⟩
    exact ⟨rest, whole.symm⟩

/-- What is joined from segments that are not empty does not start at the root. -/
theorem not_isAbsolute_joinSegments {names : List String}
    (visible : ∀ s ∈ names, s ≠ "" ∧ '/' ∉ s.toList) :
    isAbsolute (joinSegments names) = false := by
  rw [← Bool.not_eq_true, isAbsolute_iff]
  rintro ⟨rest, slash⟩
  cases names with
  | nil => simp [joinSegments] at slash
  | cons name others =>
      have first := visible name List.mem_cons_self
      obtain ⟨c, tail, chars⟩ := List.exists_cons_of_ne_nil
        (mt String.toList_eq_nil_iff.mp first.1)
      have start : (joinSegments (name :: others)).toList.head? = some c := by
        by_cases more : others = []
        · simp [more, joinSegments, chars]
        · simp [Glob.toList_joinSegments_cons name more, chars]
      have same : '/' = c := by simpa [slash] using start
      exact first.2 (by rw [chars, same]; exact List.mem_cons_self)

/-- The slashes at the start count up to the first other character. -/
theorem leadingSlashes_of_toList {path : String} {slashes : Nat} (few : slashes = 1 ∨ slashes = 2)
    {chars : List Char} (noSlash : ∀ rest, chars ≠ '/' :: rest)
    (whole : path.toList = List.replicate slashes '/' ++ chars) :
    leadingSlashes path = slashes := by
  rw [leadingSlashes, whole]
  rcases few with rfl | rfl <;> rcases chars with _ | ⟨c, rest⟩
  · rfl
  · have other : c ≠ '/' := fun same => noSlash rest (same ▸ rfl)
    simp [other]
  · rfl
  · simp [List.replicate]

theorem leadingSlashes_rooted {slashes : Nat} (few : slashes = 1 ∨ slashes = 2)
    {names : List String} (all : ∀ s ∈ names, IsName s) :
    leadingSlashes (rooted slashes names) = slashes := by
  refine leadingSlashes_of_toList few (fun rest slash => ?_) (toList_rooted slashes names)
  have relative := not_isAbsolute_joinSegments fun s listed =>
    ⟨(all s listed).nonempty, (all s listed).slashless⟩
  exact Bool.eq_false_iff.1 relative (isAbsolute_iff.2 ⟨rest, slash⟩)

theorem isAbsolute_rooted {slashes : Nat} (few : slashes = 1 ∨ slashes = 2)
    (names : List String) : isAbsolute (rooted slashes names) = true := by
  rw [isAbsolute_iff, toList_rooted]
  rcases few with rfl | rfl <;> exact ⟨_, rfl⟩

theorem rawSegments_slash {path : String} (rest : String)
    (whole : path.toList = '/' :: rest.toList) :
    rawSegments path = "" :: rawSegments rest := by
  rw [rawSegments, whole, ← List.nil_append ('/' :: _), Text.splitAtChar_append_cons]
  rfl

theorem rawSegments_rooted {slashes : Nat} (few : slashes = 1 ∨ slashes = 2)
    (names : List String) :
    rawSegments (rooted slashes names) =
      List.replicate slashes "" ++ rawSegments (joinSegments names) := by
  rcases few with rfl | rfl
  · exact rawSegments_slash (joinSegments names) (toList_rooted 1 names)
  · rw [rawSegments_slash (rooted 1 names) (by simp [toList_rooted, List.replicate]),
      rawSegments_slash (joinSegments names) (toList_rooted 1 names)]
    rfl

theorem normalSegments_rooted {slashes : Nat} (few : slashes = 1 ∨ slashes = 2)
    {names : List String} (all : ∀ s ∈ names, IsName s) :
    normalSegments (rooted slashes names) = names := by
  have skipped : (List.replicate slashes "").foldl (pushSegment true) [] = [] := by
    rcases few with rfl | rfl <;> rfl
  rw [normalSegments, isAbsolute_rooted few, rawSegments_rooted few, List.foldl_append, skipped]
  by_cases none : names = []
  · subst none
    rfl
  · rw [rawSegments_joinSegments none fun s listed => (all s listed).slashless,
      foldl_pushSegment_names all]
    simp

theorem rooted_ne_empty {slashes : Nat} (few : slashes = 1 ∨ slashes = 2) (names : List String) :
    rooted slashes names ≠ "" := by
  obtain ⟨rest, whole⟩ := isAbsolute_iff.1 (isAbsolute_rooted few names)
  rintro none
  simp [none] at whole

/-- A path of the normal form is its own normal form. -/
theorem normalize_rooted {slashes : Nat} (few : slashes = 1 ∨ slashes = 2) {names : List String}
    (all : ∀ s ∈ names, IsName s) : normalize (rooted slashes names) = rooted slashes names := by
  rw [normalize, leadingSlashes_rooted few all, normalSegments_rooted few all]
  exact if_neg fun none => rooted_ne_empty few names (eq_of_beq none)

theorem leadingSlashes_of_isAbsolute {path : String} (absolute : isAbsolute path = true) :
    leadingSlashes path = 1 ∨ leadingSlashes path = 2 := by
  obtain ⟨rest, whole⟩ := isAbsolute_iff.1 absolute
  rw [leadingSlashes, whole]
  split <;> simp_all

theorem normalize_of_isAbsolute {path : String} (absolute : isAbsolute path = true) :
    normalize path = rooted (leadingSlashes path) (normalSegments path) :=
  if_neg fun none =>
    rooted_ne_empty (leadingSlashes_of_isAbsolute absolute) _ (eq_of_beq none)

/-- The normal form of an absolute path is an absolute path that is its own normal form. -/
theorem normalize_normalize {path : String} (absolute : isAbsolute path = true) :
    isAbsolute (normalize path) = true ∧ normalize (normalize path) = normalize path := by
  have few := leadingSlashes_of_isAbsolute absolute
  rw [normalize_of_isAbsolute absolute]
  exact ⟨isAbsolute_rooted few _, normalize_rooted few (isName_normalSegments absolute)⟩

theorem isAbsolute_join {base : String} (rooted : isAbsolute base = true) (rest : String) :
    isAbsolute (join base rest) = true := by
  obtain ⟨others, whole⟩ := isAbsolute_iff.1 rooted
  unfold join
  split
  · assumption
  · rw [isAbsolute_iff]
    split <;> simp [whole]

/-- Making a path absolute twice is the same as making it absolute once. -/
theorem absolute_absolute {workingDirectory : String}
    (rooted : isAbsolute workingDirectory = true) (path : String) :
    absolute workingDirectory (absolute workingDirectory path) =
      absolute workingDirectory path := by
  have seen : isAbsolute (if isAbsolute path then path else join workingDirectory path) = true := by
    split
    · assumption
    · exact isAbsolute_join rooted path
  obtain ⟨again, same⟩ := normalize_normalize seen
  rw [absolute, absolute, if_pos again, same]

end Path

theorem Disk.absolutePath_absolutePath {disk : Disk}
    (rooted : Path.isAbsolute disk.workingDirectory = true) (path : String) :
    disk.absolutePath (disk.absolutePath path) = disk.absolutePath path :=
  Path.absolute_absolute rooted path

end SourceAtlas
