/-
# Remembered graphs are the graphs of fresh scans

A scanner is called again and again, with any roots and any options, and forgets its graphs from
time to time. What it remembers under a key was made from a root and options of that key. As long as
no two of the options that were used share a digest without sharing their payload, every other scan
under that key would have made the same graph: the graph depends on the options through their
payload alone. The disk does not change, and its working directory is an absolute path.
-/

import SourceAtlas.Proofs.Disk.Listing
import SourceAtlas.Proofs.Disk.Normal
import SourceAtlas.Proofs.Graph.Integrity
import SourceAtlas.Proofs.Settings.Payload
import SourceAtlas.Scan.Scanner

namespace SourceAtlas.Scan

open SourceAtlas.Graph Settings

/-- A call of a scanner. -/
inductive Call where
  /-- A scan with the scanner's options or with others. -/
  | scan (root : String) (options : Option Options)
  | clearCache
deriving DecidableEq

/-- The options with which a call scans, by a scanner with options of its own. -/
def Call.options? (own : Options) : Call → Option Options
  | .scan _ options => some (options.getD own)
  | .clearCache => none

def usedOptions (own : Options) (calls : List Call) : List Options :=
  calls.filterMap (Call.options? own)

def Scanner.afterCall (disk : Disk) (s : Scanner) : Call → Scanner
  | .scan root options => (s.scan disk root options).scanner
  | .clearCache => s.clearCache

def Scanner.afterCalls (disk : Disk) (s : Scanner) (calls : List Call) : Scanner :=
  calls.foldl (Scanner.afterCall disk) s

/-- No two of the options have the same digest and different payloads. -/
def DigestsApart (used : List Options) : Prop :=
  ∀ o ∈ used, ∀ p ∈ used, o.digest = p.digest → o.payload = p.payload

/-- Options that agree on what can change what a scan finds give the same graph. -/
theorem repositoryGraph_of_agree {o p : Options} (agree : o.Agree p) (parser : Parser)
    (disk : Disk) (config : CompilerConfig) (root : String) :
    repositoryGraph parser disk config root o = repositoryGraph parser disk config root p := by
  obtain ⟨files, ignored, packages, internal, extensions⟩ := agree
  have same : p = { o with debug := p.debug, workers := p.workers } := by
    rw [files, ignored, packages, internal, extensions]
  rw [same]
  rfl

theorem repositoryGraph_isOk (parser : Parser) (disk : Disk) (config : CompilerConfig)
    (root : String) (options : Options) :
    ∃ graph, repositoryGraph parser disk config root options = .ok graph :=
  ⟨_, (DependencyGraph.sound_empty.build _ _).1⟩

theorem Scanner.scanAfresh_eq (s : Scanner) (disk : Disk) (root : String) (options : Options)
    {graph : DependencyGraph}
    (made : repositoryGraph s.parser disk s.config root options = .ok graph) :
    (s.scanAfresh disk root options).scanner =
        { s with
          sources := usable (examine s.parser disk s.config root options)
          cache := (s.cacheKey disk root options, graph) :: s.cache } ∧
      (s.scanAfresh disk root options).result = .ok graph ∧
      (s.scanAfresh disk root options).reused = false := by
  rw [repositoryGraph] at made
  rw [scanAfresh]
  simp [made]

/-- What a scan can do: a root that is not there changes nothing, a graph that is remembered changes
nothing, and any other graph is remembered from then on, with the files from which it was made. -/
theorem Scanner.scan_cases (s : Scanner) (disk : Disk) (root : String) (options : Option Options) :
    let asked := options.getD s.options
    let top := disk.absolutePath root
    let key := s.cacheKey disk top asked
    let outcome := s.scan disk root options
    (disk.isDirectory top = false ∧ outcome.scanner = s ∧
        outcome.result = .error (.rootNotFound top)) ∨
      (disk.isDirectory top = true ∧ ∃ graph, s.cache.lookup key = some graph ∧
        outcome.scanner = s ∧ outcome.result = .ok graph ∧ outcome.reused = true) ∨
      (disk.isDirectory top = true ∧ s.cache.lookup key = none ∧ ∃ graph,
        repositoryGraph s.parser disk s.config top asked = .ok graph ∧
        outcome.scanner =
          { s with
            sources := usable (examine s.parser disk s.config top asked)
            cache := (key, graph) :: s.cache } ∧
        outcome.result = .ok graph ∧ outcome.reused = false) := by
  intro asked top key outcome
  cases there : disk.isDirectory top with
  | false =>
      have stopped : outcome = { scanner := s, result := .error (.rootNotFound top) } := by
        simp [outcome, scan, top, there]
      exact .inl ⟨rfl, by rw [stopped], by rw [stopped]⟩
  | true =>
      cases found : s.cache.lookup key with
      | some graph =>
          have recalled : outcome = { scanner := s, result := .ok graph, reused := true
                                      log := s.report [.reusing top] } := by
            simp [outcome, scan, top, asked, there,
              show s.cache.lookup (s.cacheKey disk _ _) = _ from found]
          rw [recalled]
          exact .inr (.inl ⟨rfl, graph, rfl, rfl, rfl, rfl⟩)
      | none =>
          have afresh : outcome = s.scanAfresh disk top asked := by
            simp [outcome, scan, top, asked, there,
              show s.cache.lookup (s.cacheKey disk _ _) = _ from found]
          obtain ⟨graph, made⟩ := repositoryGraph_isOk s.parser disk s.config top asked
          have after := s.scanAfresh_eq disk top asked made
          rw [← afresh] at after
          exact .inr (.inr ⟨rfl, rfl, graph, made, after⟩)

/-! ## What is remembered -/

/-- A scanner that was set up as another one was, whatever the two remember. -/
structure Scanner.SetUpAs (s t : Scanner) : Prop where
  parser : s.parser = t.parser
  config : s.config = t.config
  options : s.options = t.options

theorem Scanner.SetUpAs.trans {s t u : Scanner} (first : s.SetUpAs t) (second : t.SetUpAs u) :
    s.SetUpAs u :=
  ⟨first.parser.trans second.parser, first.config.trans second.config,
    first.options.trans second.options⟩

theorem Scanner.afterCall_setUpAs (s : Scanner) (disk : Disk) (call : Call) :
    (s.afterCall disk call).SetUpAs s := by
  cases call with
  | clearCache => exact ⟨rfl, rfl, rfl⟩
  | scan root options =>
      rcases s.scan_cases disk root options with
        ⟨-, after, -⟩ | ⟨-, _, -, after, -⟩ | ⟨-, -, _, -, after, -⟩ <;>
      · rw [afterCall, after]
        exact ⟨rfl, rfl, rfl⟩

theorem Scanner.afterCalls_setUpAs (s : Scanner) (disk : Disk) (calls : List Call) :
    (s.afterCalls disk calls).SetUpAs s := by
  induction calls generalizing s with
  | nil => exact ⟨rfl, rfl, rfl⟩
  | cons call calls ih =>
      have first := s.afterCall_setUpAs disk call
      have later := ih (s.afterCall disk call)
      exact later.trans first

theorem Scanner.cacheKey_congr {s t : Scanner} (same : s.config = t.config) (disk : Disk)
    (root : String) (options : Options) :
    s.cacheKey disk root options = t.cacheKey disk root options := by
  rw [cacheKey, cacheKey, same]

/-- Every remembered graph was made from an absolute root with some of the options. -/
def Scanner.Recalls (disk : Disk) (used : List Options) (s : Scanner) : Prop :=
  ∀ key graph, (key, graph) ∈ s.cache → ∃ top, ∃ o ∈ used, disk.absolutePath top = top ∧
    key = s.cacheKey disk top o ∧ repositoryGraph s.parser disk s.config top o = .ok graph

section Recalling

variable {disk : Disk} {used : List Options} {s : Scanner}

theorem Scanner.Recalls.mono (recalls : s.Recalls disk used) (more : List Options) :
    s.Recalls disk (used ++ more) := by
  intro key graph listed
  obtain ⟨top, o, among, made⟩ := recalls key graph listed
  exact ⟨top, o, List.mem_append_left _ among, made⟩

variable (rooted : Path.isAbsolute disk.workingDirectory = true)
include rooted

/-- A call remembers at most a graph made with its own options. -/
theorem Scanner.Recalls.afterCall (recalls : s.Recalls disk used) (call : Call) :
    (s.afterCall disk call).Recalls disk (used ++ (call.options? s.options).toList) := by
  cases call with
  | clearCache => exact fun key graph listed => absurd listed List.not_mem_nil
  | scan root options =>
      rcases s.scan_cases disk root options with
        ⟨-, same, -⟩ | ⟨-, _, -, same, -⟩ | ⟨-, -, graph, made, after, -⟩
      · rw [Scanner.afterCall, same]
        exact recalls.mono _
      · rw [Scanner.afterCall, same]
        exact recalls.mono _
      · rw [Scanner.afterCall, after]
        intro key graph' listed
        rcases List.mem_cons.1 listed with new | old
        · obtain ⟨rfl, rfl⟩ := Prod.mk.inj new
          exact ⟨disk.absolutePath root, options.getD s.options, by simp [Call.options?],
            disk.absolutePath_absolutePath rooted root, Scanner.cacheKey_congr rfl .., made⟩
        · obtain ⟨top, o, among, fixed, key_eq, made'⟩ := recalls.mono _ key graph' old
          exact ⟨top, o, among, fixed, key_eq.trans (Scanner.cacheKey_congr rfl ..), made'⟩

theorem Scanner.Recalls.afterCalls (recalls : s.Recalls disk used) (calls : List Call) :
    (s.afterCalls disk calls).Recalls disk (used ++ usedOptions s.options calls) := by
  induction calls generalizing s used with
  | nil => simpa [Scanner.afterCalls, usedOptions] using recalls
  | cons call calls ih =>
      have known := ih (recalls.afterCall rooted call)
      rw [(s.afterCall_setUpAs disk call).options, List.append_assoc] at known
      have whole : usedOptions s.options (call :: calls) =
          (call.options? s.options).toList ++ usedOptions s.options calls := by
        cases call <;> rfl
      rw [whole]
      exact known

end Recalling

/-- Two keys are the same only if the roots are and the digests of the options are. -/
theorem Scanner.cacheKey_inj {s : Scanner} {disk : Disk} {top top' : String} {o p : Options}
    (same : s.cacheKey disk top o = s.cacheKey disk top' p) :
    disk.absolutePath top = disk.absolutePath top' ∧ o.digest = p.digest := by
  rw [cacheKey, cacheKey, CacheKey.mk.injEq] at same
  refine ⟨same.1, ?_⟩
  have chars := congrArg String.toList same.2
  simp only [toString, String.toList_append, List.append_assoc] at chars
  exact String.toList_injective (List.append_cancel_right chars)

/-- A root that is not there is refused, and the scanner stays as it is. -/
theorem Scanner.scan_of_not_directory (s : Scanner) {disk : Disk} {root : String}
    (absent : disk.isDirectory (disk.absolutePath root) = false) (options : Option Options) :
    (s.scan disk root options).scanner = s ∧
      (s.scan disk root options).result = .error (.rootNotFound (disk.absolutePath root)) := by
  rcases s.scan_cases disk root options with ⟨-, stopped⟩ | ⟨there, -⟩ | ⟨there, -⟩
  · exact stopped
  · rw [absent] at there
    cases there
  · rw [absent] at there
    cases there

/-- A directory that is there is scanned. -/
theorem Scanner.scan_of_directory (s : Scanner) {disk : Disk} {root : String}
    (there : disk.isDirectory (disk.absolutePath root) = true) (options : Option Options) :
    ∃ graph, (s.scan disk root options).result = .ok graph := by
  rcases s.scan_cases disk root options with
    ⟨absent, -⟩ | ⟨-, graph, -, -, result, -⟩ | ⟨-, -, graph, -, -, result, -⟩
  · rw [there] at absent
    cases absent
  · exact ⟨graph, result⟩
  · exact ⟨graph, result⟩

theorem Scanner.exists_result_iff (s : Scanner) (disk : Disk) (root : String)
    (options : Option Options) :
    (∃ graph, (s.scan disk root options).result = .ok graph) ↔
      disk.isDirectory (disk.absolutePath root) = true := by
  constructor
  · rintro ⟨graph, result⟩
    by_contra absent
    have refused := s.scan_of_not_directory (Bool.eq_false_iff.mpr absent) options
    cases refused.2.symm.trans result
  · intro there
    exact s.scan_of_directory there options

section Recalled

variable {disk : Disk} (rooted : Path.isAbsolute disk.workingDirectory = true) {used : List Options}
  {s : Scanner} (recalls : s.Recalls disk used) (root : String) (options : Option Options)
include rooted recalls

/-- Whatever is remembered, a graph that a scan gives was made from the root that is asked for, with
options of the digest that is asked for. -/
theorem Scanner.Recalls.exists_options {graph : DependencyGraph}
    (result : (s.scan disk root options).result = .ok graph) :
    ∃ o ∈ used ++ [options.getD s.options], o.digest = (options.getD s.options).digest ∧
      repositoryGraph s.parser disk s.config (disk.absolutePath root) o = .ok graph := by
  rcases s.scan_cases disk root options with
    ⟨-, -, refused⟩ | ⟨-, recalled, found, -, given, -⟩ | ⟨-, -, fresh, made, -, given, -⟩
  · cases refused.symm.trans result
  · cases given.symm.trans result
    have listed := mem_of_lookup found
    obtain ⟨top, o, among, fixed, same, made⟩ := recalls _ graph listed
    obtain ⟨roots, digests⟩ := Scanner.cacheKey_inj same
    rw [disk.absolutePath_absolutePath rooted, fixed] at roots
    refine ⟨o, List.mem_append_left _ among, digests.symm, ?_⟩
    rw [roots]
    exact made
  · cases given.symm.trans result
    exact ⟨_, List.mem_append_right _ (List.mem_singleton_self _), rfl, made⟩

/-- Whatever is remembered, a scan of a directory gives the graph that the disk gives. -/
theorem Scanner.Recalls.scan_result (apart : DigestsApart (used ++ [options.getD s.options]))
    (there : disk.isDirectory (disk.absolutePath root) = true) :
    ∃ graph, (s.scan disk root options).result = .ok graph ∧
      repositoryGraph s.parser disk s.config (disk.absolutePath root) (options.getD s.options) =
        .ok graph := by
  obtain ⟨graph, result⟩ := s.scan_of_directory there options
  obtain ⟨o, among, digests, made⟩ := recalls.exists_options rooted root options result
  have agree := agree_of_payload_eq
    (apart o among _ (List.mem_append_right _ (List.mem_singleton_self _)) digests)
  refine ⟨graph, result, ?_⟩
  rw [← repositoryGraph_of_agree agree]
  exact made

end Recalled

/-- Whatever a scanner has been asked before, a scan of a directory gives a graph that the disk
gives with some of the options that were used. -/
theorem exists_repositoryGraph_afterCalls (parser : Parser) {disk : Disk}
    (rooted : Path.isAbsolute disk.workingDirectory = true) (config : CompilerConfig)
    (own : Options) (calls : List Call) {root : String} (options : Option Options)
    (there : disk.isDirectory (disk.absolutePath root) = true) :
    let new : Scanner := { parser, config, options := own }
    ∃ graph, ((new.afterCalls disk calls).scan disk root options).result = .ok graph ∧
      ∃ o ∈ usedOptions own (calls ++ [.scan root options]),
        o.digest = (options.getD own).digest ∧
          repositoryGraph parser disk config (disk.absolutePath root) o = .ok graph := by
  intro new
  obtain ⟨graph, result⟩ := (new.afterCalls disk calls).scan_of_directory there options
  have nothing : new.Recalls disk [] := fun key graph listed => absurd listed List.not_mem_nil
  have same := new.afterCalls_setUpAs disk calls
  obtain ⟨o, among, digest, made⟩ :=
    (nothing.afterCalls rooted calls).exists_options rooted root options result
  rw [same.options] at among digest
  rw [same.parser, same.config] at made
  refine ⟨graph, result, o, ?_, digest, made⟩
  rw [usedOptions, List.filterMap_append]
  exact among

/-- Whatever a scanner has been asked before, a scan gives what a new scanner would give that looks
at one file after the other, and a scan that fails changes nothing. -/
theorem scan_afterCalls (parser : Parser) (disk : Disk)
    (rooted : Path.isAbsolute disk.workingDirectory = true) (config : CompilerConfig)
    (own : Options) (calls : List Call) (root : String) (options : Option Options)
    (apart : DigestsApart (usedOptions own (calls ++ [.scan root options]))) :
    let new : Scanner := { parser, config, options := own }
    let s := new.afterCalls disk calls
    let outcome := s.scan disk root options
    outcome.result =
        (new.scan disk root (some { options.getD own with workers := 1 })).result ∧
      ((∃ graph, outcome.result = .ok graph) ↔
        disk.isDirectory (disk.absolutePath root) = true) ∧
      ∀ fault, outcome.result = .error fault →
        fault = .rootNotFound (disk.absolutePath root) ∧ outcome.scanner = s := by
  intro new s outcome
  have nothing : new.Recalls disk [] := fun key graph listed => absurd listed List.not_mem_nil
  have set := new.afterCalls_setUpAs disk calls
  have recalls := nothing.afterCalls rooted calls
  rw [List.nil_append] at recalls
  rw [usedOptions, List.filterMap_append] at apart
  cases there : disk.isDirectory (disk.absolutePath root) with
  | false =>
      obtain ⟨kept, refused⟩ := s.scan_of_not_directory there options
      obtain ⟨-, alsoRefused⟩ := new.scan_of_not_directory there
        (some { options.getD own with workers := 1 })
      refine ⟨refused.trans alsoRefused.symm, ⟨?_, by simp⟩, ?_⟩
      · rintro ⟨graph, result⟩
        cases refused.symm.trans result
      · intro fault result
        cases refused.symm.trans result
        exact ⟨rfl, kept⟩
  | true =>
      have alone :
          DigestsApart ([] ++ [(some { options.getD own with workers := 1 }).getD own]) := by
        simp [DigestsApart]
      have asked : options.getD s.options = options.getD own := by rw [set.options]
      obtain ⟨graph, result, made⟩ := recalls.scan_result rooted root options
        (by rw [asked]; exact apart) there
      obtain ⟨graph', result', made'⟩ := nothing.scan_result rooted root _ alone there
      have agree : Options.Agree { options.getD own with workers := 1 } (options.getD own) :=
        ⟨rfl, rfl, rfl, rfl, rfl⟩
      have same : graph' = graph := by
        rw [asked, set.parser, set.config, ← repositoryGraph_of_agree agree] at made
        exact Except.ok.inj (made'.symm.trans made)
      refine ⟨result.trans (same ▸ result'.symm), ⟨fun _ => rfl, fun _ => ⟨graph, result⟩⟩, ?_⟩
      intro fault failed
      cases result.symm.trans failed

/-- A disk with one directory that can be scanned. -/
def workspace : Disk where
  root := .directory [("app", .directory [("a.ts", .file [])])]
  workingDirectory := "/"

/-- Calls with options that differ in what they report, one of them a call that fails. -/
def mixedCalls : List Call :=
  [.scan "/app" none, .scan "/gone" none, .clearCache, .scan "app/." (some { debug := true })]

theorem digestsApart_mixedCalls :
    DigestsApart (usedOptions {} (mixedCalls ++ [.scan "/app" (some { workers := 4 })])) := by
  have payload : ∀ o ∈ usedOptions {} (mixedCalls ++ [.scan "/app" (some { workers := 4 })]),
      o.payload = ({} : Options).payload := by
    simp only [usedOptions, mixedCalls, List.cons_append, List.nil_append, List.filterMap_cons,
      Call.options?, List.filterMap_nil, List.forall_mem_cons]
    exact ⟨rfl, rfl, rfl, rfl, fun _ none => absurd none List.not_mem_nil⟩
  intro o used p alsoUsed _
  rw [payload o used, payload p alsoUsed]

theorem scan_afterCalls_mixedCalls :
    Path.isAbsolute workspace.workingDirectory = true ∧
      DigestsApart (usedOptions {} (mixedCalls ++ [.scan "/app" (some { workers := 4 })])) ∧
      ∀ (parser : Parser) (config : CompilerConfig),
        let new : Scanner := { parser, config, options := {} }
        ∃ graph, ((new.afterCalls workspace mixedCalls).scan workspace "/app"
            (some { workers := 4 })).result = .ok graph ∧
          (new.scan workspace "/app" (some { workers := 1 })).result = .ok graph := by
  have rooted : Path.isAbsolute workspace.workingDirectory = true := by decide +kernel
  refine ⟨rooted, digestsApart_mixedCalls, fun parser config => ?_⟩
  obtain ⟨same, succeeds, -⟩ := scan_afterCalls parser workspace rooted config {} mixedCalls
    "/app" (some { workers := 4 }) digestsApart_mixedCalls
  obtain ⟨graph, result⟩ := succeeds.2 (by decide +kernel)
  exact ⟨graph, result, same.symm.trans result⟩

end SourceAtlas.Scan
