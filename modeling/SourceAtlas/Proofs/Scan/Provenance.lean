/-
# From which files a graph was made

A scanner keeps its graphs and, beside them, the files that were found by the last scan that looked
at the disk. A ledger follows the calls and notes which scan found what, without a scanner: it says
from which files every graph was made. A new graph is made from the files that the scanner then
keeps. A remembered graph was made from those of an earlier scan, and the scanner keeps what the
latest one found, so the two belong together only if both scans found the same. The disk may change
between the calls.
-/

import SourceAtlas.Proofs.Scan.Dependencies

namespace SourceAtlas.Scan

open SourceAtlas.Graph Settings

/-- A call of a scanner and the disk as it is then. -/
structure Visit where
  disk : Disk
  call : Call

def Scanner.afterVisits (s : Scanner) (visits : List Visit) : Scanner :=
  visits.foldl (fun s visit => s.afterCall visit.disk visit.call) s

/-- What a scan that looks at the disk finds, before a graph is built of it. -/
structure Finding where
  /-- What its graph is remembered under. -/
  key : CacheKey
  scope : InternalScope
  sources : List SourceFile

/-- What a scan of a root would find on a disk. -/
def Scanner.finding (s : Scanner) (disk : Disk) (root : String) (options : Options) : Finding where
  key := s.cacheKey disk (disk.absolutePath root) options
  scope := scopeOf (disk.absolutePath root) options
  sources := usable (examine s.parser disk s.config (disk.absolutePath root) options)

/-- What scans have found so far: a scanner keeps the files of the last finding only, and a graph
for each of those that it remembers. -/
structure Ledger where
  /-- The findings of which the graph is still remembered, the latest first. -/
  recalled : List Finding := []
  /-- The files that were found last. -/
  latest : List SourceFile := []

/-- The finding of which the graph is remembered under a key. -/
def Ledger.recalled? (ledger : Ledger) (key : CacheKey) : Option Finding :=
  ledger.recalled.find? fun made => made.key == key

/-- Notes a visit: the first scan under a key looks at the disk, those that follow do not. -/
def Scanner.note (s : Scanner) (ledger : Ledger) (visit : Visit) : Ledger :=
  match visit.call with
  | .clearCache => { ledger with recalled := [] }
  | .scan root options =>
    let found := s.finding visit.disk root (options.getD s.options)
    if visit.disk.isDirectory (visit.disk.absolutePath root) &&
        (ledger.recalled? found.key).isNone then
      { recalled := found :: ledger.recalled, latest := found.sources }
    else ledger

def Scanner.ledger (s : Scanner) (visits : List Visit) : Ledger :=
  visits.foldl s.note {}

theorem Scanner.SetUpAs.finding_eq {s t : Scanner} (same : s.SetUpAs t) :
    s.finding = t.finding := by
  funext disk root options
  rw [finding, finding, cacheKey_congr same.config, same.parser, same.config]

section Noting

variable (s : Scanner) {ledger : Ledger} {disk : Disk} {root : String} {options : Option Options}

theorem Scanner.note_of_not_directory
    (absent : disk.isDirectory (disk.absolutePath root) = false) :
    s.note ledger ⟨disk, .scan root options⟩ = ledger := by
  simp [note, absent]

theorem Scanner.note_of_recalled {made : Finding}
    (known : ledger.recalled? (s.finding disk root (options.getD s.options)).key = some made) :
    s.note ledger ⟨disk, .scan root options⟩ = ledger := by
  simp [note, known]

theorem Scanner.note_of_new (there : disk.isDirectory (disk.absolutePath root) = true)
    (unknown : ledger.recalled? (s.finding disk root (options.getD s.options)).key = none) :
    s.note ledger ⟨disk, .scan root options⟩ =
      { recalled := s.finding disk root (options.getD s.options) :: ledger.recalled
        latest := (s.finding disk root (options.getD s.options)).sources } := by
  simp [note, there, unknown]

end Noting

/-- A remembered graph is the one that was made from a finding. -/
def IsMadeFrom (entry : CacheKey × DependencyGraph) (made : Finding) : Prop :=
  entry.1 = made.key ∧ buildGraph made.scope made.sources = .ok entry.2

theorem rel_lookup_find? {cache : List (CacheKey × DependencyGraph)} {recalled : List Finding}
    (each : List.Forall₂ IsMadeFrom cache recalled) (key : CacheKey) :
    Option.Rel (fun graph made => buildGraph made.scope made.sources = .ok graph)
      (cache.lookup key) (recalled.find? fun made => made.key == key) := by
  induction each with
  | nil => exact .none
  | @cons entry made cache recalled first _ ih =>
      obtain ⟨stored, graph⟩ := entry
      obtain ⟨rfl, built⟩ := first
      rw [List.lookup_cons, List.find?_cons]
      by_cases same : made.key = key
      · subst same
        rw [beq_self_eq_true]
        exact .some built
      · rw [beq_false_of_ne same, beq_false_of_ne (Ne.symm same)]
        exact ih

/-- A scanner that has seen what a ledger notes. It is set up as the new one was, has the files that
were found last, and remembers the graph of every recalled finding. -/
structure Scanner.Holds (new : Scanner) (ledger : Ledger) (s : Scanner) : Prop where
  same : s.SetUpAs new
  latest : s.sources = ledger.latest
  recalled : List.Forall₂ IsMadeFrom s.cache ledger.recalled

section Holding

variable {new s : Scanner} {ledger : Ledger}

/-- What a scan can do, told by the ledger. -/
theorem Scanner.Holds.scan_cases (holds : new.Holds ledger s) (disk : Disk) (root : String)
    (options : Option Options) :
    let found := new.finding disk root (options.getD new.options)
    let outcome := s.scan disk root options
    (disk.isDirectory (disk.absolutePath root) = false ∧ outcome.scanner = s ∧
        ∃ fault, outcome.result = .error fault) ∨
      (disk.isDirectory (disk.absolutePath root) = true ∧ ∃ made graph,
        ledger.recalled? found.key = some made ∧
        buildGraph made.scope made.sources = .ok graph ∧ outcome.scanner = s ∧
        outcome.result = .ok graph ∧ outcome.reused = true) ∨
      (disk.isDirectory (disk.absolutePath root) = true ∧ ledger.recalled? found.key = none ∧
        ∃ graph, buildGraph found.scope found.sources = .ok graph ∧
          outcome.scanner =
            { s with sources := found.sources, cache := (found.key, graph) :: s.cache } ∧
          outcome.result = .ok graph ∧ outcome.reused = false) := by
  have own : new.finding disk root (options.getD new.options) =
      s.finding disk root (options.getD s.options) := by
    rw [holds.same.options, holds.same.finding_eq]
  rw [own]
  have known := rel_lookup_find? holds.recalled
    (s.cacheKey disk (disk.absolutePath root) (options.getD s.options))
  intro found outcome
  rcases s.scan_cases disk root options with
    ⟨absent, kept, refused⟩ | ⟨there, graph, remembered, kept, result, reused⟩ |
      ⟨there, unknown, graph, built, after, result, reused⟩
  · exact .inl ⟨absent, kept, _, refused⟩
  · rw [remembered] at known
    generalize noted : List.find? _ ledger.recalled = made? at known
    cases known with
    | some built => exact .inr (.inl ⟨there, _, graph, noted, built, kept, result, reused⟩)
  · rw [unknown] at known
    rw [repositoryGraph] at built
    generalize noted : List.find? _ ledger.recalled = made? at known
    cases known with
    | none => exact .inr (.inr ⟨there, noted, graph, built, after, result, reused⟩)

/-- A scan that succeeds gives the graph of the finding that the ledger has for it, or of a new one.
The scanner keeps the files of that finding exactly if it is new or found what was found last. -/
theorem Scanner.Holds.scan_sources (holds : new.Holds ledger s) {disk : Disk} {root : String}
    {options : Option Options} {graph : DependencyGraph}
    (given : (s.scan disk root options).result = .ok graph) :
    let found := new.finding disk root (options.getD new.options)
    let made := (ledger.recalled? found.key).getD found
    let outcome := s.scan disk root options
    buildGraph made.scope made.sources = .ok graph ∧
      outcome.reused = (ledger.recalled? found.key).isSome ∧
      outcome.scanner.sources = (if outcome.reused then ledger.latest else found.sources) ∧
      (outcome.scanner.sources = made.sources ↔
        outcome.reused = false ∨ ledger.latest = made.sources) := by
  have steps := holds.scan_cases disk root options
  dsimp only at steps ⊢
  generalize s.scan disk root options = outcome at steps given ⊢
  generalize new.finding disk root (options.getD new.options) = found at steps ⊢
  rcases steps with
    ⟨-, -, fault, refused⟩ | ⟨-, earlier, same, noted, built, kept, result, reused⟩ |
      ⟨-, unknown, same, built, after, result, reused⟩
  · cases refused.symm.trans given
  · cases result.symm.trans given
    rw [noted, reused, kept, holds.latest, Option.getD_some]
    exact ⟨built, rfl, rfl, by simp⟩
  · cases result.symm.trans given
    rw [unknown, reused, after, Option.getD_none]
    exact ⟨built, rfl, rfl, by simp⟩

/-- A visit leaves behind a scanner that has seen what the ledger notes of it. -/
theorem Scanner.Holds.afterCall (holds : new.Holds ledger s) (visit : Visit) :
    new.Holds (new.note ledger visit) (s.afterCall visit.disk visit.call) := by
  obtain ⟨disk, call⟩ := visit
  cases call with
  | clearCache =>
      have kept := s.afterCall_setUpAs disk .clearCache
      exact ⟨kept.trans holds.same, holds.latest, .nil⟩
  | scan root options =>
      rw [Scanner.afterCall]
      rcases holds.scan_cases disk root options with
        ⟨absent, kept, -⟩ | ⟨-, made, _, noted, -, kept, -⟩ |
          ⟨there, unknown, graph, built, after, -⟩
      · rw [kept, new.note_of_not_directory absent]
        exact holds
      · rw [kept, new.note_of_recalled noted]
        exact holds
      · rw [after, new.note_of_new there unknown]
        exact ⟨⟨holds.same.parser, holds.same.config, holds.same.options⟩, rfl,
          .cons ⟨rfl, built⟩ holds.recalled⟩

theorem Scanner.Holds.afterVisits (holds : new.Holds ledger s) (visits : List Visit) :
    new.Holds (visits.foldl new.note ledger) (s.afterVisits visits) := by
  induction visits generalizing s ledger with
  | nil => exact holds
  | cons visit visits ih => exact ih (holds.afterCall visit)

end Holding

theorem Scanner.holds_afterVisits (parser : Parser) (config : CompilerConfig) (own : Options)
    (visits : List Visit) :
    let new : Scanner := { parser, config, options := own }
    new.Holds (new.ledger visits) (new.afterVisits visits) :=
  Scanner.Holds.afterVisits ⟨⟨rfl, rfl, rfl⟩, rfl, .nil⟩ visits

/-- **From which files a graph was made.** Whatever a scanner has been asked before, on whatever
disks, a scan succeeds exactly if its root is a directory. The graph is made from the files of the
finding that the ledger has under its key, or else from what is found now. The scanner keeps these
files exactly if the graph was not remembered, or if the scan that last looked at a disk found the
same files. -/
theorem sources_of_scan (parser : Parser) (config : CompilerConfig) (own : Options)
    (visits : List Visit) (disk : Disk) (root : String) (options : Option Options) :
    let new : Scanner := { parser, config, options := own }
    let ledger := new.ledger visits
    let found := new.finding disk root (options.getD own)
    let made := (ledger.recalled? found.key).getD found
    let outcome := (new.afterVisits visits).scan disk root options
    ((∃ graph, outcome.result = .ok graph) ↔
        disk.isDirectory (disk.absolutePath root) = true) ∧
      ∀ graph, outcome.result = .ok graph →
        buildGraph made.scope made.sources = .ok graph ∧
          outcome.reused = (ledger.recalled? found.key).isSome ∧
          outcome.scanner.sources =
            (if outcome.reused then ledger.latest else found.sources) ∧
          (outcome.scanner.sources = made.sources ↔
            outcome.reused = false ∨ ledger.latest = made.sources) := by
  have holds := Scanner.holds_afterVisits parser config own visits
  constructor
  · exact Scanner.exists_result_iff _ disk root options
  · intro graph result
    exact holds.scan_sources result

/-! ## Two places in turn -/

/-- A directory with a source file, and one without. -/
def twoPlaces : Disk where
  root := .directory
    [("a", .directory [("x.ts", .file [])]), ("b", .directory [("notes.md", .file [])])]
  workingDirectory := "/"

/-- A scanner that has not been used. -/
@[reducible]
def unusedScanner (parser : Parser) : Scanner :=
  { parser, config := plainConfig, options := {} }

/-- One place is scanned after the other. -/
def bothPlaces : List Visit :=
  [⟨twoPlaces, .scan "/a" none⟩, ⟨twoPlaces, .scan "/b" none⟩]

theorem isStandard_twoPlaces : twoPlaces.IsStandard where
  rooted := by decide +kernel
  named := by
    refine .directory (by decide) fun place listed => ?_
    simp only [List.mem_cons, List.not_mem_nil, or_false] at listed
    rcases listed with rfl | rfl <;>
    · refine .directory (by decide) fun file listed => ?_
      rw [List.mem_singleton.mp listed]
      exact .file _

section Places

variable (parser : Parser)

/-- The file is among those that are found in the first place. -/
theorem exists_mem_sources_first :
    ∃ s ∈ ((unusedScanner parser).finding twoPlaces "/a" {}).sources, s.path = "/a/x.ts" := by
  have top : twoPlaces.absolutePath "/a" = "/a" := by decide +kernel
  have raw : Path.rawSegments (twoPlaces.fromRoot "/a") = ["", "a"] := by decide +kernel
  have found : twoPlaces.find "/a" = .ok (.directory [("x.ts", .file [])]) :=
    Disk.find_of_follow (by decide) raw rfl
  have discovered : "/a/x.ts" ∈ discover twoPlaces "/a" {} (some plainConfig) := by
    rw [discover, (List.mergeSort_perm _ _).mem_iff, top, Disk.filesBelow, found]
    refine List.mem_map.mpr
      ⟨"x.ts", List.mem_filter.mpr ⟨?_, by decide +kernel⟩, by decide +kernel⟩
    simp [filesBeneath]
  rw [Scanner.finding, top]
  exact ⟨_, readSource_mem_usable discovered (by decide +kernel), path_readSource ..⟩

/-- Nothing is found in the second place. -/
theorem sources_second : ((unusedScanner parser).finding twoPlaces "/b" {}).sources = [] := by
  have top : twoPlaces.absolutePath "/b" = "/b" := by decide +kernel
  have raw : Path.rawSegments (twoPlaces.fromRoot "/b") = ["", "b"] := by decide +kernel
  have found : twoPlaces.find "/b" = .ok (.directory [("notes.md", .file [])]) :=
    Disk.find_of_follow (by decide) raw rfl
  have nothing : discover twoPlaces "/b" {} (some plainConfig) = [] := by
    apply List.eq_nil_iff_forall_not_mem.mpr
    intro path discovered
    obtain ⟨entries, names, there, file, -, keeps⟩ := exists_fileAt_of_mem_discover discovered
    rw [top] at there
    cases found.symm.trans there
    simp only [fileAt_cons_file, not_fileAt_nil, or_false] at file
    subst file
    have ignored : (selection {} (some plainConfig)).keeps (Path.joinSegments ["notes.md"]) =
        false := by decide +kernel
    cases ignored.symm.trans keeps
  rw [Scanner.finding, top]
  simp only [examine, nothing, readSources, List.map_nil, usable, List.filter_nil]

theorem key_first_ne_key_second :
    ((unusedScanner parser).finding twoPlaces "/a" {}).key ≠
      ((unusedScanner parser).finding twoPlaces "/b" {}).key := by
  intro same
  have roots := (Scanner.cacheKey_inj same).1
  exact absurd roots (by decide +kernel)

theorem ledger_bothPlaces :
    let first := (unusedScanner parser).finding twoPlaces "/a" {}
    let second := (unusedScanner parser).finding twoPlaces "/b" {}
    (unusedScanner parser).ledger bothPlaces =
      { recalled := [second, first], latest := second.sources } := by
  intro first second
  have noted : (unusedScanner parser).note {} ⟨twoPlaces, .scan "/a" none⟩ =
      { recalled := [first], latest := first.sources } :=
    (unusedScanner parser).note_of_new (by decide +kernel) rfl
  rw [Scanner.ledger, bothPlaces, List.foldl_cons, noted, List.foldl_cons, List.foldl_nil]
  apply (unusedScanner parser).note_of_new (by decide +kernel)
  exact List.find?_cons_of_neg (mt eq_of_beq (key_first_ne_key_second parser))

theorem recalled?_bothPlaces :
    let first := (unusedScanner parser).finding twoPlaces "/a" {}
    ((unusedScanner parser).ledger bothPlaces).recalled? first.key = some first := by
  intro first
  rw [ledger_bothPlaces, Ledger.recalled?, List.find?_cons, List.find?_cons,
    beq_false_of_ne (key_first_ne_key_second parser).symm, beq_self_eq_true]

/-- Whatever the parser, the remembered graph of the first place is not made from the files that the
scanner keeps. -/
theorem exists_stale_sources (well : parser.NamesWell) :
    let outcome := ((unusedScanner parser).afterVisits bothPlaces).scan twoPlaces "/a" none
    ∃ graph, outcome.result = .ok graph ∧
      ∀ scope, buildGraph scope outcome.scanner.sources ≠ .ok graph := by
  have holds := Scanner.holds_afterVisits parser plainConfig {} bothPlaces
  have there : twoPlaces.isDirectory (twoPlaces.absolutePath "/a") = true := by decide +kernel
  obtain ⟨graph, result⟩ :=
    ((unusedScanner parser).afterVisits bothPlaces).scan_of_directory there none
  obtain ⟨built, reused, sources, -⟩ := holds.scan_sources result
  simp only [Option.getD_none, recalled?_bothPlaces, Option.getD_some, Option.isSome_some]
    at built reused sources
  rw [if_pos reused, ledger_bothPlaces, sources_second] at sources
  refine ⟨graph, result, fun scope same => ?_⟩
  -- The file of the first place has a node, and there is none in a graph of no files.
  obtain ⟨s, given, path⟩ := exists_mem_sources_first parser
  have stored := (knownByPath_usable well isStandard_twoPlaces).node?_build
    ((unusedScanner parser).finding twoPlaces "/a" {}).scope given
  have absent : graph.node? "/a/x.ts" = none := by
    rw [show _ = [] from sources] at same
    cases same
    rfl
  cases (DependencyGraph.sound_empty.build _ _).1.symm.trans built
  rw [path] at stored
  cases stored.symm.trans absent

end Places

theorem sources_of_scan_bothPlaces :
    let outcome := ((unusedScanner strictParser).afterVisits bothPlaces).scan twoPlaces "/a" none
    let first := (unusedScanner strictParser).finding twoPlaces "/a" {}
    let second := (unusedScanner strictParser).finding twoPlaces "/b" {}
    twoPlaces.isDirectory (twoPlaces.absolutePath "/a") = true ∧
      ∃ graph, outcome.result = .ok graph ∧
        buildGraph first.scope first.sources = .ok graph ∧ outcome.reused = true ∧
        outcome.scanner.sources = second.sources ∧
        (outcome.scanner.sources = first.sources ↔ second.sources = first.sources) := by
  intro outcome first second
  have there : twoPlaces.isDirectory (twoPlaces.absolutePath "/a") = true := by decide +kernel
  obtain ⟨succeeds, told⟩ :=
    sources_of_scan strictParser plainConfig {} bothPlaces twoPlaces "/a" none
  obtain ⟨graph, result⟩ := succeeds.mpr there
  obtain ⟨built, reused, sources, same⟩ := told graph result
  rw [Option.getD_none] at built reused sources same
  rw [recalled?_bothPlaces] at built reused same
  rw [reused, ledger_bothPlaces] at sources same
  refine ⟨there, graph, result, built, reused, sources, same.trans ?_⟩
  simp [first, second]

/-- **A remembered graph beside files of another scan.** After a scan of another place, the graph of
the first one is given again, and the files that the scanner keeps are not those from which it was
made: no scope makes it from them. -/
theorem stale_sources_bothPlaces :
    let outcome := ((unusedScanner strictParser).afterVisits bothPlaces).scan twoPlaces "/a" none
    ∃ graph, outcome.result = .ok graph ∧
      ∀ scope, buildGraph scope outcome.scanner.sources ≠ .ok graph :=
  exists_stale_sources strictParser namesWell_strictParser

end SourceAtlas.Scan
