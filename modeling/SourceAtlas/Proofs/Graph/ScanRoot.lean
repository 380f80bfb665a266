/-
# What the root of a scan makes internal

A specifier counts as internal if its text starts with the text of the root. Texts know nothing of
segments. Told by segments, all but the last one of the root have to be there as they are written,
and the last one only has to begin the segment in its place. What comes after it is not looked at.

So for specifiers in normal form the verdict is right about the root and everything beneath it, and
wrong about the places beside the root whose names go on from its name. A specifier in another form
is judged by how it is written: one that leaves the root by `..` is internal, and one that leads
into the root by another spelling is not.
-/

import SourceAtlas.Proofs.Disk.Resolving
import SourceAtlas.Proofs.Graph.Reparsing

namespace SourceAtlas

namespace Text

/-- Where two texts meet, the last piece of the first and the first piece of the second are one. -/
theorem exists_splitAtChar_append (sep : Char) (before after : List Char) :
    ∃ above last more below, splitAtChar sep before = above ++ [last] ∧
      splitAtChar sep after = more :: below ∧
      splitAtChar sep (before ++ after) = above ++ (last ++ more) :: below := by
  induction before with
  | nil =>
      obtain ⟨more, below, split⟩ := List.exists_cons_of_ne_nil (splitAtChar_ne_nil sep after)
      exact ⟨[], [], more, below, rfl, split, split⟩
  | cons c rest ih =>
      obtain ⟨above, last, more, below, first, second, both⟩ := ih
      by_cases slash : c = sep
      · refine ⟨[] :: above, last, more, below, ?_, second, ?_⟩
        · cases above <;> simp_all [splitAtChar]
        · cases above <;> simp_all [splitAtChar]
      · cases above with
        | nil =>
            refine ⟨[], c :: last, more, below, ?_, second, ?_⟩
            · simp_all [splitAtChar]
            · simp_all [splitAtChar]
        | cons piece pieces =>
            refine ⟨(c :: piece) :: pieces, last, more, below, ?_, second, ?_⟩
            · simp_all [splitAtChar]
            · simp_all [splitAtChar]

/-- A text begins with its first pieces, each with the separator behind it, and is nothing more if
no piece is left. -/
theorem exists_eq_of_splitAtChar {sep : Char} {text piece : List Char}
    {front back : List (List Char)}
    (split : splitAtChar sep text = front ++ piece :: back) :
    ∃ tail, text = front.flatMap (· ++ [sep]) ++ piece ++ tail ∧ (back = [] → tail = []) := by
  induction text generalizing front piece with
  | nil =>
      cases front with
      | nil =>
          cases split
          exact ⟨[], rfl, fun _ => rfl⟩
      | cons first others => simp [splitAtChar] at split
  | cons c rest ih =>
      obtain ⟨first, others, inner⟩ := List.exists_cons_of_ne_nil (splitAtChar_ne_nil sep rest)
      rw [splitAtChar, inner] at split
      dsimp only at split
      by_cases slash : c = sep
      · subst slash
        rw [if_pos (beq_self_eq_true c)] at split
        cases front with
        | nil =>
            cases split
            exact ⟨c :: rest, rfl, fun none => absurd none (List.cons_ne_nil _ _)⟩
        | cons f front =>
            rw [List.cons_append, List.cons.injEq] at split
            obtain ⟨rfl, same⟩ := split
            obtain ⟨tail, whole, last⟩ := ih (inner.trans same)
            exact ⟨tail, by simp [whole], last⟩
      · rw [if_neg (by simpa using slash)] at split
        cases front with
        | nil =>
            cases split
            have start : splitAtChar sep rest = [] ++ first :: back := inner
            obtain ⟨tail, whole, last⟩ := ih start
            exact ⟨tail, by simp [whole], last⟩
        | cons f front =>
            rw [List.cons_append, List.cons.injEq] at split
            obtain ⟨rfl, same⟩ := split
            have start : splitAtChar sep rest = (first :: front) ++ piece :: back := by
              rw [inner, same]
              rfl
            obtain ⟨tail, whole, last⟩ := ih start
            exact ⟨tail, by simp [whole], last⟩

end Text

namespace Path

/-- A path is written with the segments of another one at its start, but for the last of them, which
may go on. -/
def IsSpelledFrom (root path : String) : Prop :=
  ∃ above last more below, rawSegments root = above ++ [last] ∧
    rawSegments path = above ++ (last ++ more) :: below

/-- A path leads to another one or to something beneath it. -/
def LiesWithin (root path : String) : Prop := normalSegments root <+: normalSegments path

instance (root path : String) : Decidable (LiesWithin root path) :=
  inferInstanceAs (Decidable (_ <+: _))

/-- A path leads to a place beside another one, or to something beneath such a place, whose name
goes on from the name of the other one. -/
def LiesBeside (root path : String) : Prop :=
  ∃ above name more below, normalSegments root = above ++ [name] ∧ more ≠ "" ∧
    normalSegments path = above ++ (name ++ more) :: below

/-- A path begins with its first segments, each with a slash behind it, and is nothing more if no
segment is left. -/
theorem exists_toList_eq_of_rawSegments {path segment : String} {front back : List String}
    (split : rawSegments path = front ++ segment :: back) :
    ∃ tail, path.toList = front.flatMap (·.toList ++ ['/']) ++ segment.toList ++ tail ∧
      (back = [] → tail = []) := by
  have pieces : Text.splitAtChar '/' path.toList = (rawSegments path).map String.toList := by
    simp [rawSegments]
  rw [split, List.map_append, List.map_cons] at pieces
  obtain ⟨tail, whole, last⟩ := Text.exists_eq_of_splitAtChar pieces
  refine ⟨tail, ?_, fun none => last (by rw [none]; rfl)⟩
  rw [whole, List.flatMap_map]

/-- **Text and segments.** A path starts with the text of another one exactly if it is spelled from
it. -/
theorem startsWith_iff_isSpelledFrom {root path : String} :
    path.startsWith root = true ↔ IsSpelledFrom root path := by
  rw [String.startsWith_string_iff]
  constructor
  · rintro ⟨rest, whole⟩
    obtain ⟨above, last, more, below, first, -, both⟩ :=
      Text.exists_splitAtChar_append '/' root.toList rest
    refine ⟨above.map String.ofList, String.ofList last, String.ofList more,
      below.map String.ofList, ?_, ?_⟩
    · rw [rawSegments, first, List.map_append]
      rfl
    · rw [rawSegments, ← whole, both, List.map_append, List.map_cons, String.ofList_append]
  · rintro ⟨above, last, more, below, first, both⟩
    obtain ⟨none, root_eq, ends⟩ := exists_toList_eq_of_rawSegments first
    obtain ⟨tail, path_eq, -⟩ := exists_toList_eq_of_rawSegments both
    refine ⟨more.toList ++ tail, ?_⟩
    rw [root_eq, path_eq, ends rfl]
    simp

theorem not_liesWithin_of_liesBeside {root path : String} (beside : LiesBeside root path) :
    ¬ LiesWithin root path := by
  obtain ⟨above, name, more, below, ends, longer, segments⟩ := beside
  rintro ⟨rest, whole⟩
  rw [ends, segments, List.append_assoc, List.append_cancel_left_eq, List.singleton_append,
    List.cons.injEq] at whole
  apply longer
  have same := congrArg String.toList whole.1
  simpa using same

/-- A path that goes on from another one, but for its last name, lies within it or beside it. -/
theorem exists_longer_name_iff {root path : String} {above : List String} {name : String}
    (ends : normalSegments root = above ++ [name]) :
    (∃ more below, normalSegments path = above ++ (name ++ more) :: below) ↔
      LiesWithin root path ∨ LiesBeside root path := by
  constructor
  · rintro ⟨more, below, segments⟩
    by_cases none : more = ""
    · refine .inl ⟨below, ?_⟩
      rw [ends, segments, none, String.append_empty, List.append_assoc, List.singleton_append]
    · exact .inr ⟨above, name, more, below, ends, none, segments⟩
  · rintro (⟨rest, whole⟩ | ⟨other, last, more, below, also, -, segments⟩)
    · refine ⟨"", rest, ?_⟩
      rw [← whole, ends, String.append_empty, List.append_assoc, List.singleton_append]
    · rw [ends] at also
      obtain ⟨rfl, same⟩ := List.append_inj' also rfl
      cases same
      exact ⟨more, below, segments⟩

/-- Segments that two paths have in common at their starts do not matter. -/
theorem isSpelledFrom_iff_of_common {root path last : String} {common above segments : List String}
    (rootRaw : rawSegments root = common ++ (above ++ [last]))
    (pathRaw : rawSegments path = common ++ segments) :
    IsSpelledFrom root path ↔ ∃ more below, segments = above ++ (last ++ more) :: below := by
  constructor
  · rintro ⟨front, final, more, below, first, both⟩
    rw [rootRaw, ← List.append_assoc] at first
    obtain ⟨rfl, same⟩ := List.append_inj' first rfl
    cases same
    rw [pathRaw, List.append_assoc, List.append_cancel_left_eq] at both
    exact ⟨more, below, both⟩
  · rintro ⟨more, below, rfl⟩
    exact ⟨common ++ above, last, more, below, by rw [rootRaw, List.append_assoc],
      by rw [pathRaw, List.append_assoc]⟩

/-- Normal paths with as many slashes at their starts are spelled from one another exactly if one
lies within the other or beside it. -/
theorem IsNormal.isSpelledFrom_iff {root path : String} (rootNormal : IsNormal root)
    (normal : IsNormal path) (slashes : leadingSlashes path = leadingSlashes root) :
    IsSpelledFrom root path ↔ LiesWithin root path ∨ LiesBeside root path := by
  have few := leadingSlashes_of_isAbsolute rootNormal.isAbsolute
  have names := isName_normalSegments rootNormal.isAbsolute
  have others := isName_normalSegments normal.isAbsolute
  have rootRaw : rawSegments root = List.replicate (leadingSlashes root) "" ++
      rawSegments (joinSegments (normalSegments root)) := by
    conv_lhs => rw [rootNormal.eq_rooted, rawSegments_rooted few]
  have pathRaw : rawSegments path = List.replicate (leadingSlashes root) "" ++
      rawSegments (joinSegments (normalSegments path)) := by
    conv_lhs => rw [normal.eq_rooted, slashes, rawSegments_rooted few]
  rcases List.eq_nil_or_concat' (normalSegments root) with top | ⟨above, name, ends⟩
  · -- The root of the disk: everything is spelled from it and lies within it.
    have within : LiesWithin root path := by
      rw [LiesWithin, top]
      exact List.nil_prefix
    have blank : rawSegments (joinSegments []) = [] ++ [""] := rfl
    rw [top, blank] at rootRaw
    rw [isSpelledFrom_iff_of_common rootRaw pathRaw]
    obtain ⟨first, rest, split⟩ := List.exists_cons_of_ne_nil
      (show rawSegments (joinSegments (normalSegments path)) ≠ [] by
        simp [rawSegments, Text.splitAtChar_ne_nil])
    refine iff_of_true ⟨first, rest, ?_⟩ (.inl within)
    rw [split, String.empty_append, List.nil_append]
  · rw [rawSegments_joinSegments (by simp [ends]) fun s listed => (names s listed).slashless,
      ends] at rootRaw
    rw [isSpelledFrom_iff_of_common rootRaw pathRaw, ← exists_longer_name_iff ends]
    by_cases none : normalSegments path = []
    · -- No name is empty, so nothing but slashes is no longer than a name.
      have visible : name ≠ "" := (names name (by simp [ends])).nonempty
      have blank : rawSegments (joinSegments []) = [""] := rfl
      rw [none, blank]
      refine iff_of_false ?_ ?_
      · rintro ⟨more, below, same⟩
        cases above with
        | nil =>
            have empty : name ++ more = "" := (List.cons.inj same).1.symm
            exact visible (String.append_eq_empty_iff.mp empty).1
        | cons first rest => simp at same
      · rintro ⟨more, below, same⟩
        simp at same
    · rw [rawSegments_joinSegments none fun s listed => (others s listed).slashless]

end Path

namespace Graph

/-! ## The verdict on specifiers -/

/-- Nothing but a normal root makes a specifier internal that is not relative. -/
structure InternalScope.IsRootOnly (scope : InternalScope) : Prop where
  normal : Path.IsNormal scope.root
  packages : scope.packages = []
  scope : scope.scope.getD "" = ""

namespace InternalScope.IsRootOnly

variable {scope : InternalScope} (rootOnly : scope.IsRootOnly)
include rootOnly

theorem isInternal_iff {specifier : String} :
    scope.isInternal specifier = true ↔
      specifier.startsWith "." = true ∨ Path.IsSpelledFrom scope.root specifier := by
  have given : scope.root ≠ "" := by
    intro none
    have absolute := rootOnly.normal.isAbsolute
    rw [none] at absolute
    cases absolute
  rw [InternalScope.isInternal, rootOnly.packages, rootOnly.scope,
    ← Path.startsWith_iff_isSpelledFrom]
  simp [startsWithGiven, given]

/-- A specifier that starts at the root of the disk does not start with a dot. -/
theorem isInternal_iff_of_isAbsolute {specifier : String}
    (absolute : Path.isAbsolute specifier = true) :
    scope.isInternal specifier = true ↔ Path.IsSpelledFrom scope.root specifier := by
  rw [rootOnly.isInternal_iff, or_iff_right]
  intro relative
  obtain ⟨rest, slash⟩ := Path.isAbsolute_iff.mp absolute
  obtain ⟨others, dot⟩ := String.startsWith_string_iff.mp relative
  rw [slash] at dot
  cases dot

end InternalScope.IsRootOnly

namespace DependencyGraph

/-- Links put placeholders where the internal records of the files lead. -/
theorem Sound.exists_node_mem_linkAdditions_iff {g : DependencyGraph} (sound : g.Sound)
    {scope : InternalScope} {key : String} :
    (∃ n, .node key n ∈ g.linkAdditions scope) ↔ ∃ source, g.HasRecord scope source key := by
  simp only [sound.mem_linkAdditions_iff, ImportRecord.mem_linkAdditions_iff]
  constructor
  · rintro ⟨m, source, n, found, r, internal, put | drawn⟩
    · cases put
      exact ⟨source, n, found, r, internal, rfl⟩
    · cases drawn
  · rintro ⟨source, n, found, r, internal, rfl⟩
    exact ⟨r.placeholder, source, n, found, r, internal, .inl rfl⟩

/-- A build has the keys of its files, of what they declare and of what their internal records lead
to. Nothing is assumed of the files. -/
theorem mem_keys_build_iff (scope : InternalScope) (sources : List SourceFile) (key : String) :
    key ∈ (applyAll {} (buildAdditions scope {} sources)).keys ↔
      (∃ s ∈ sources, s.path = key ∨ s.Declares key) ∨
        ∃ source, (applyAll {} (buildAdditions scope {} sources)).HasRecord scope source key := by
  have added : (withSources {} sources).Sound := (sound_empty.addSources sources).2
  have before : key ∈ (withSources {} sources).keys ↔
      ∃ s ∈ sources, s.path = key ∨ s.Declares key := by
    rw [withSources, mem_keys_applyAll, exists_node_mem_additions_iff, or_iff_right]
    exact List.not_mem_nil
  simp only [hasRecord_applyAll_buildAdditions]
  rw [applyAll_buildAdditions, mem_keys_applyAll, before, added.exists_node_mem_linkAdditions_iff]

theorem hasImport_build_iff (scope : InternalScope) (sources : List SourceFile)
    (source target : String) :
    (applyAll {} (buildAdditions scope {} sources)).HasImport source target ↔
      (applyAll {} (buildAdditions scope {} sources)).HasRecord scope source target := by
  rw [sound_empty.hasImport_build, or_iff_left]
  rintro ⟨drawn, -⟩
  exact hasImport_empty source target drawn

end DependencyGraph

open DependencyGraph in
/-- **The root is compared as a text.** A specifier from the root of the disk is internal exactly if
it is spelled from the scanned root. Where both are written in normal form with as many slashes at
their starts, these are the specifiers that lie within the root and also those that lie beside it.
In a build exactly the relative records and those spelled from the root are linked, and what they
lead to are the only keys besides those of the files and their declarations. -/
theorem links_spelled_from_root {scope : InternalScope} (rootOnly : scope.IsRootOnly)
    (sources : List SourceFile) :
    (∀ specifier, Path.isAbsolute specifier = true →
      (scope.isInternal specifier = true ↔ Path.IsSpelledFrom scope.root specifier)) ∧
    (∀ specifier, Path.IsNormal specifier →
      Path.leadingSlashes specifier = Path.leadingSlashes scope.root →
        (scope.isInternal specifier = true ↔
          Path.LiesWithin scope.root specifier ∨ Path.LiesBeside scope.root specifier) ∧
        ¬ (Path.LiesWithin scope.root specifier ∧ Path.LiesBeside scope.root specifier)) ∧
    ∃ g, buildGraph scope sources = .ok g ∧
      (∀ source target, g.HasImport source target ↔
        ∃ n, g.node? source = some (.file n) ∧ ∃ r ∈ n.imports,
          (r.specifier.startsWith "." = true ∨ Path.IsSpelledFrom scope.root r.specifier) ∧
            r.targetKey = target) ∧
      ∀ key, key ∈ g.keys ↔
        (∃ s ∈ sources, s.path = key ∨ s.Declares key) ∨ ∃ source, g.HasImport source key := by
  refine ⟨fun specifier absolute => rootOnly.isInternal_iff_of_isAbsolute absolute, ?_,
    _, (sound_empty.build scope sources).1, ?_, ?_⟩
  · intro specifier normal slashes
    rw [rootOnly.isInternal_iff_of_isAbsolute normal.isAbsolute,
      rootOnly.normal.isSpelledFrom_iff normal slashes]
    exact ⟨Iff.rfl, fun both => Path.not_liesWithin_of_liesBeside both.2 both.1⟩
  · intro source target
    rw [hasImport_build_iff, HasRecord]
    simp only [InternalScope.internalRecords, List.mem_filter, rootOnly.isInternal_iff, and_assoc]
  · intro key
    simp only [mem_keys_build_iff, hasImport_build_iff]

/-- A file that imports from the root, from beside it, from above it and by another spelling of the
root. -/
def neighbouringFile : SourceFile where
  path := "/repo/a.ts"
  imports :=
    [ { specifier := "/repo/b", line := 1 }, { specifier := "/repository/b", line := 2 },
      { specifier := "/repo/../b", line := 3 }, { specifier := "///repo/b", line := 4 } ]

theorem isRootOnly_repo : InternalScope.IsRootOnly { root := "/repo" } :=
  ⟨⟨by decide +kernel, by decide +kernel⟩, rfl, rfl⟩

open DependencyGraph in
/-- The file is linked to three of the four, and two of them lie outside of the root. -/
theorem links_spelled_from_root_neighbouringFile :
    InternalScope.IsRootOnly { root := "/repo" } ∧
      (InternalScope.isInternal { root := "/repo" } "/repository/b" = true ↔
        Path.LiesWithin "/repo" "/repository/b" ∨ Path.LiesBeside "/repo" "/repository/b") ∧
      Path.LiesBeside "/repo" "/repository/b" ∧
      ∃ g, buildGraph { root := "/repo" } [neighbouringFile] = .ok g ∧
        g.keys = ["/repo/a.ts", "/repo/b", "/repository/b", "/repo/../b"] ∧
        ∀ key, key ∈ g.keys ↔ "/repo/a.ts" = key ∨ ∃ source, g.HasImport source key := by
  obtain ⟨-, normal, g, built, -, stored⟩ := links_spelled_from_root isRootOnly_repo
    [neighbouringFile]
  have evaluated : (buildGraph { root := "/repo" } [neighbouringFile]).toOption.map keys =
      some ["/repo/a.ts", "/repo/b", "/repository/b", "/repo/../b"] := by
    decide +kernel
  rw [built] at evaluated
  have verdict := normal "/repository/b" ⟨by decide +kernel, by decide +kernel⟩ (by decide +kernel)
  refine ⟨isRootOnly_repo, verdict.1, ⟨[], "repo", "sitory", ["b"], ?_⟩, g, built,
    Option.some.inj evaluated, ?_⟩
  · decide +kernel
  · intro key
    rw [stored]
    simp [neighbouringFile, SourceFile.Declares]

open DependencyGraph in
/-- A name that goes on from that of the root and a way out of it by `..` are internal although they
lie outside, and another spelling of the root is not internal although it leads into it. Both of the
former get a node and an edge. -/
theorem isInternal_outside_repo :
    (InternalScope.isInternal { root := "/repo" } "/repository/b" = true ∧
        ¬ Path.LiesWithin "/repo" "/repository/b") ∧
      (InternalScope.isInternal { root := "/repo" } "/repo/../b" = true ∧
        Path.normalize "/repo/../b" = "/b" ∧ ¬ Path.LiesWithin "/repo" "/repo/../b") ∧
      (InternalScope.isInternal { root := "/repo" } "///repo/b" = false ∧
        Path.normalize "///repo/b" = "/repo/b" ∧ Path.LiesWithin "/repo" "///repo/b") ∧
      ∃ g, buildGraph { root := "/repo" } [neighbouringFile] = .ok g ∧
        "/repository/b" ∈ g.keys ∧ g.hasEdge "/repo/a.ts" "/repository/b" = true ∧
        "/repo/../b" ∈ g.keys ∧ g.hasEdge "/repo/a.ts" "/repo/../b" = true := by
  have evaluated : (buildGraph { root := "/repo" } [neighbouringFile]).toOption.map
      (fun g => (g.keys, g.hasEdge "/repo/a.ts" "/repository/b",
        g.hasEdge "/repo/a.ts" "/repo/../b")) =
      some (["/repo/a.ts", "/repo/b", "/repository/b", "/repo/../b"], true, true) := by
    decide +kernel
  obtain ⟨g, built, facts⟩ := Option.map_eq_some_iff.mp evaluated
  obtain ⟨keys, edges⟩ := Prod.mk.inj facts
  obtain ⟨beside, above⟩ := Prod.mk.inj edges
  refine ⟨by decide +kernel, by decide +kernel, by decide +kernel, g, eq_ok_of_toOption built, ?_,
    beside, ?_, above⟩
  · rw [keys]
    decide
  · rw [keys]
    decide

end Graph

end SourceAtlas
