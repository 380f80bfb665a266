/-
# What files that are not scanned hold

Two disks have the same directories and names. They agree on the configurations that a scanner reads
when it is set up, and on the files that its scans discover. Then the scanner cannot tell them
apart: it is set up in the same way, and every scan has the same outcome, whatever the other files
hold. That such a file is there can make a difference, for an import may lead to it.
-/

import SourceAtlas.Proofs.Disk.Shape
import SourceAtlas.Proofs.Scan.Caching
import SourceAtlas.Proofs.Settings.Discovery
import SourceAtlas.Proofs.Settings.Extending

namespace SourceAtlas

open Disk (SameTree AgreeAt)

namespace Settings

variable {disk other : Disk}

/-- Which files are scanned does not depend on what files hold. -/
theorem discover_sameTree (same : SameTree disk other) : discover other = discover disk := by
  funext root options config
  have found := (same.filesBelow_perm (Glob.ignoresDirectory (selection options config).ignored)
    (disk.absolutePath root)).symm
  have kept := (found.filter (selection options config).keeps).map
    (Path.join (disk.absolutePath root))
  have listed : (discover other root options config).Perm (discover disk root options config) := by
    rw [discover, discover, same.absolutePath]
    exact (List.mergeSort_perm _ _).trans (kept.trans (List.mergeSort_perm _ _).symm)
  apply listed.eq_of_pairwise
  · intro a b _ _ first second
    exact le_antisymm first second
  · exact pairwise_le_discover other root options config
  · exact pairwise_le_discover disk root options config

theorem discover_absolutePath (rooted : Path.isAbsolute disk.workingDirectory = true)
    (root : String) : discover disk (disk.absolutePath root) = discover disk root := by
  funext options config
  rw [discover, discover, disk.absolutePath_absolutePath rooted]

theorem readConfig_sameTree (same : SameTree disk other) {path : String}
    (agree : AgreeAt disk other path) : readConfig other path = readConfig disk path := by
  rw [readConfig, readConfig, same.isFile, same.readText agree]

/-- A path is met at the start, or beyond the file that stands there. -/
theorem reaches_iff {start next : String} :
    Reaches disk start next ↔ next = start ∨ ∃ members parent,
      ConfigFile.StandsOn disk ⟨start, members⟩ ∧
        ConfigFile.parentPath? ⟨start, members⟩ = some parent ∧ Reaches disk parent next := by
  constructor
  · rintro ⟨trail, follows⟩
    cases follows with
    | here => exact .inl rfl
    | @onward file parent _ trail stands link rest =>
        exact .inr ⟨file.members, parent, stands, link, trail, rest⟩
  · rintro (rfl | ⟨members, parent, stands, link, trail, rest⟩)
    · exact ⟨[], .here _⟩
    · exact ⟨_, .onward stands link rest⟩

/-- Where the file at the start is known, so is the path that it leads to. -/
theorem Reaches.eq_or_exists_parent {start next : String} {link : Option String}
    (evaluated : (readConfig disk start).toOption.map (fun members =>
      ConfigFile.parentPath? ⟨start, members⟩) = some link) (reaches : Reaches disk start next) :
    next = start ∨ ∃ parent, link = some parent ∧ Reaches disk parent next := by
  rcases reaches_iff.mp reaches with same | ⟨members, parent, stands, leads, further⟩
  · exact .inl same
  · rw [readConfig_eq_ok_iff.mpr stands] at evaluated
    have known : link = some parent := (Option.some.inj evaluated).symm.trans leads
    exact .inr ⟨parent, known, further⟩

theorem loadChain_sameTree (same : SameTree disk other) {path : String}
    (normal : Path.IsNormal path)
    (agree : ∀ next, Reaches disk path next → AgreeAt disk other next) (bound : Nat)
    (seen : List String) : loadChain other bound seen path = loadChain disk bound seen path := by
  induction bound generalizing path seen with
  | zero => rw [loadChain, loadChain]
  | succ bound ih =>
      have here := readConfig_sameTree same (agree path (reaches_iff.mpr (.inl rfl)))
      rw [loadChain_succ normal, loadChain_succ normal, here]
      cases read : readConfig disk path with
      | error fault => dsimp only [Except.bind]
      | ok members =>
          dsimp only [Except.bind]
          cases link : ConfigFile.parentPath? ⟨path, members⟩ with
          | none => rw [Option.elim_none, Option.elim_none]
          | some parent =>
              have stands := readConfig_eq_ok_iff.mp read
              have beyond (next : String) (reaches : Reaches disk parent next) :
                  AgreeAt disk other next :=
                agree next (reaches_iff.mpr (.inr ⟨members, parent, stands, link, reaches⟩))
              have parentNormal := @ConfigFile.isNormal_parentPath ⟨path, members⟩ normal _ link
              rw [Option.elim_some, Option.elim_some, ih parentNormal beyond]

theorem loadCompilerConfig_sameTree (same : SameTree disk other) {path : String}
    (normal : Path.IsNormal path)
    (agree : ∀ next, Reaches disk path next → AgreeAt disk other next) :
    loadCompilerConfig other path = loadCompilerConfig disk path := by
  have bound : chainBound other = chainBound disk := by
    rw [chainBound, chainBound, same.fileCount]
  rw [loadCompilerConfig, loadCompilerConfig, bound, loadChain_sameTree same normal agree]

end Settings

namespace Scan

open SourceAtlas.Graph Settings

variable {disk other : Disk}

/-- Two disks agree on the files that a scanner with this configuration and these options discovers
in a call. -/
def Call.AgreesOn (disk other : Disk) (config : CompilerConfig) (own : Options) : Call → Prop
  | .scan root options =>
    ∀ path ∈ discover disk root (options.getD own) (some config), AgreeAt disk other path
  | .clearCache => True

/-- What is found in a file depends on its own bytes and on the names of the disk. -/
theorem readSource_sameTree (same : SameTree disk other) {path : String}
    (agree : AgreeAt disk other path) (parser : Parser) (extensions : List String)
    (scope : InternalScope) :
    readSource parser other extensions scope path =
      readSource parser disk extensions scope path := by
  rw [readSource, readSource, same.readText agree]
  cases disk.readText path with
  | error fault => rfl
  | ok text =>
      dsimp only
      rw [sourceOfText, sourceOfText, same.resolve?]

theorem examine_sameTree (same : SameTree disk other) (parser : Parser)
    {config : CompilerConfig} {root : String} {options : Options}
    (agree : ∀ path ∈ discover disk root options (some config), AgreeAt disk other path) :
    examine parser other config root options = examine parser disk config root options := by
  rw [examine, examine, discover_sameTree same]
  apply List.map_congr_left
  intro path discovered
  exact readSource_sameTree same (agree path discovered) _ _ _

theorem cacheKey_sameTree (same : SameTree disk other) (s : Scanner) :
    s.cacheKey other = s.cacheKey disk := by
  funext root options
  rw [Scanner.cacheKey, Scanner.cacheKey, same.absolutePath]

/-! ## Scanning -/

section Scanning

variable (rooted : Path.isAbsolute disk.workingDirectory = true) (same : SameTree disk other)
include rooted same

theorem setUp_sameTree {path : String}
    (agree : ∀ next, Reaches disk (disk.absolutePath path) next → AgreeAt disk other next)
    (parser : Parser) (options : Option Options) (env : Environment) :
    Scanner.setUp parser other path options env = Scanner.setUp parser disk path options env := by
  have normal := disk.isNormal_absolutePath rooted path
  rw [Scanner.setUp, Scanner.setUp, same.absolutePath,
    loadCompilerConfig_sameTree same normal agree]

/-- A scan has the same outcome on both disks. -/
theorem scan_eq_of_agreesOn {s : Scanner} {root : String} {options : Option Options}
    (agree : (Call.scan root options).AgreesOn disk other s.config s.options) :
    s.scan other root options = s.scan disk root options := by
  have examined :
      examine s.parser other s.config (disk.absolutePath root) (options.getD s.options) =
        examine s.parser disk s.config (disk.absolutePath root) (options.getD s.options) := by
    apply examine_sameTree same
    rw [discover_absolutePath rooted]
    exact agree
  have afresh : s.scanAfresh other (disk.absolutePath root) (options.getD s.options) =
      s.scanAfresh disk (disk.absolutePath root) (options.getD s.options) := by
    rw [Scanner.scanAfresh, Scanner.scanAfresh, examined, cacheKey_sameTree same]
  rw [Scanner.scan, Scanner.scan, same.absolutePath, same.isDirectory, cacheKey_sameTree same,
    afresh]

/-- A call leaves the same scanner behind on both disks. -/
theorem afterCall_eq_of_agreesOn {s : Scanner} {call : Call}
    (agree : call.AgreesOn disk other s.config s.options) :
    s.afterCall other call = s.afterCall disk call := by
  cases call with
  | clearCache => rfl
  | scan root options =>
      rw [Scanner.afterCall, Scanner.afterCall, scan_eq_of_agreesOn rooted same agree]

theorem afterCalls_eq_of_agreesOn {s : Scanner} {calls : List Call}
    (agree : ∀ call ∈ calls, call.AgreesOn disk other s.config s.options) :
    s.afterCalls other calls = s.afterCalls disk calls := by
  induction calls generalizing s with
  | nil => rw [Scanner.afterCalls, Scanner.afterCalls, List.foldl_nil, List.foldl_nil]
  | cons call calls ih =>
      obtain ⟨first, later⟩ := List.forall_mem_cons.mp agree
      have set := s.afterCall_setUpAs disk call
      rw [← set.config, ← set.options] at later
      calc s.afterCalls other (call :: calls)
          = (s.afterCall other call).afterCalls other calls := rfl
        _ = (s.afterCall disk call).afterCalls other calls := by
            rw [afterCall_eq_of_agreesOn rooted same first]
        _ = (s.afterCall disk call).afterCalls disk calls := ih later
        _ = s.afterCalls disk (call :: calls) := rfl

end Scanning

/-- **What is not scanned does not count.** Two disks have the same directories and names, and agree
on every configuration that is met on the way from the given one. Then a scanner is set up in the
same way on both. If they agree on the files that its calls discover as well, each scan has the same
outcome on both, and a scan of a directory gives the same graph. -/
theorem scan_of_sameTree (parser : Parser) (disk other : Disk)
    (rooted : Path.isAbsolute disk.workingDirectory = true) (same : SameTree disk other)
    (configPath : String) (own : Option Options) (env : Environment)
    (configs : ∀ path, Reaches disk (disk.absolutePath configPath) path →
      AgreeAt disk other path) :
    Scanner.setUp parser other configPath own env = Scanner.setUp parser disk configPath own env ∧
      ∀ s, Scanner.setUp parser disk configPath own env = .ok s →
        ∀ (calls : List Call) (root : String) (options : Option Options),
          (∀ call ∈ calls ++ [.scan root options],
            call.AgreesOn disk other s.config s.options) →
          (s.afterCalls other calls).scan other root options =
              (s.afterCalls disk calls).scan disk root options ∧
            (disk.isDirectory (disk.absolutePath root) = true →
              ∃ graph, ((s.afterCalls disk calls).scan disk root options).result = .ok graph ∧
                ((s.afterCalls other calls).scan other root options).result = .ok graph) := by
  refine ⟨setUp_sameTree rooted same configs parser own env, ?_⟩
  intro s _ calls root options agree
  obtain ⟨before, last⟩ := List.forall_mem_append.mp agree
  have asked := last _ (List.mem_singleton_self _)
  have set := s.afterCalls_setUpAs disk calls
  rw [← set.config, ← set.options] at asked
  have outcome : (s.afterCalls other calls).scan other root options =
      (s.afterCalls disk calls).scan disk root options := by
    rw [afterCalls_eq_of_agreesOn rooted same before]
    exact scan_eq_of_agreesOn rooted same asked
  refine ⟨outcome, fun there => ?_⟩
  obtain ⟨graph, result⟩ := (s.afterCalls disk calls).scan_of_directory there options
  refine ⟨graph, result, ?_⟩
  rw [outcome]
  exact result

/-- A page that imports the notes beside it. Its configuration extends another one, and a package is
installed that is not scanned. -/
def annotatedEntries (notes package : List UInt8) : List (String × Entry) :=
  [("config.json", .file "\x7b\"extends\": \"./base\"\x7d".toUTF8.toList),
    ("base.json", .file "\x7b\"exclude\": [\"old\"]\x7d".toUTF8.toList),
    ("page.ts", .file "import './notes.md';".toUTF8.toList),
    ("notes.md", .file notes),
    ("node_modules", .directory [("lib.ts", .file package)])]

/-- The names of the files, from the directory of the page on. -/
def annotatedNames : List (List String) :=
  [["config.json"], ["base.json"], ["page.ts"], ["notes.md"], ["node_modules", "lib.ts"]]

def annotatedDisk (notes package : List UInt8) : Disk where
  root := .directory [("app", .directory (annotatedEntries notes package))]
  workingDirectory := "/"

theorem sameTree_annotatedDisk (notes package others another : List UInt8) :
    SameTree (annotatedDisk notes package) (annotatedDisk others another) where
  start := rfl
  tree := by
    have file (bytes more : List UInt8) :
        Entry.Alike (fun _ _ => True) (.file bytes) (.file more) := .file trivial
    have installed : Entry.Alike (fun _ _ => True) (.directory [("lib.ts", .file package)])
        (.directory [("lib.ts", .file another)]) :=
      .of_forall₂ (by simp) (.cons ⟨rfl, file _ _⟩ .nil)
    apply Entry.Alike.of_forall₂ (by simp)
    refine .cons ⟨rfl, ?_⟩ .nil
    apply Entry.Alike.of_forall₂ (by simp [annotatedEntries])
    exact .cons ⟨rfl, file _ _⟩ (.cons ⟨rfl, file _ _⟩ (.cons ⟨rfl, file _ _⟩
      (.cons ⟨rfl, file _ _⟩ (.cons ⟨rfl, installed⟩ .nil))))

/-- The disk without notes and with an empty package. -/
def quietDisk : Disk := annotatedDisk [] []

/-- The disk with notes that are no UTF-8 and a package that does not parse. -/
def loudDisk : Disk := annotatedDisk [0xFF] "import".toUTF8.toList

theorem agreeAt_of_toOption_eq {path : String}
    (evaluated : (disk.readBytes path).toOption = (other.readBytes path).toOption) :
    AgreeAt disk other path := by
  intro bytes read
  rw [read] at evaluated
  cases there : other.readBytes path with
  | error fault =>
      rw [there] at evaluated
      cases evaluated
  | ok more =>
      rw [there] at evaluated
      cases evaluated
      rfl

theorem agreeAt_of_reaches_quietDisk {path : String}
    (reaches : Reaches quietDisk "/app/config.json" path) : AgreeAt quietDisk loudDisk path := by
  have onward : (readConfig quietDisk "/app/config.json").toOption.map (fun members =>
      ConfigFile.parentPath? ⟨"/app/config.json", members⟩) = some (some "/app/base.json") := by
    decide +kernel
  have final : (readConfig quietDisk "/app/base.json").toOption.map (fun members =>
      ConfigFile.parentPath? ⟨"/app/base.json", members⟩) = some none := by
    decide +kernel
  rcases reaches.eq_or_exists_parent onward with rfl | ⟨parent, link, further⟩
  · exact agreeAt_of_toOption_eq (by decide +kernel)
  cases link
  rcases further.eq_or_exists_parent final with rfl | ⟨parent, none, -⟩
  · exact agreeAt_of_toOption_eq (by decide +kernel)
  · cases none

theorem find_quietDisk :
    quietDisk.find "/app" = .ok (.directory (annotatedEntries [] [])) := by
  have raw : Path.rawSegments (quietDisk.fromRoot "/app") = ["", "app"] := by decide +kernel
  exact Disk.find_of_follow (by decide) raw rfl

/-- Only the page is discovered. -/
theorem exists_config_quietDisk :
    ∃ config, loadCompilerConfig quietDisk "/app/config.json" = .ok config ∧
      ∀ path ∈ discover quietDisk "/app" {} (some config), path = "/app/page.ts" := by
  have top : quietDisk.absolutePath "/app" = "/app" := by decide +kernel
  have evaluated : (loadCompilerConfig quietDisk "/app/config.json").toOption.map (fun config =>
      annotatedNames.map fun names =>
        (selection {} (some config)).keeps (Path.joinSegments names)) =
      some [false, false, true, false, false] := by
    decide +kernel
  cases loaded : loadCompilerConfig quietDisk "/app/config.json" with
  | error fault =>
      rw [loaded] at evaluated
      cases evaluated
  | ok config =>
      rw [loaded] at evaluated
      have kept := Option.some.inj evaluated
      simp only [annotatedNames, List.map_cons, List.map_nil, List.cons.injEq] at kept
      obtain ⟨config', base, -, notes, package, -⟩ := kept
      refine ⟨config, rfl, fun path discovered => ?_⟩
      obtain ⟨entries, names, found, file, rfl, keeps⟩ := exists_fileAt_of_mem_discover discovered
      rw [top] at found ⊢
      cases find_quietDisk.symm.trans found
      simp only [annotatedEntries, fileAt_cons_file, fileAt_cons_directory, not_fileAt_nil,
        or_false] at file
      rcases file with rfl | rfl | rfl | rfl | ⟨below, rfl, rfl⟩
      · cases config'.symm.trans keeps
      · cases base.symm.trans keeps
      · decide +kernel
      · cases notes.symm.trans keeps
      · cases package.symm.trans keeps

theorem scan_of_sameTree_annotatedDisk :
    Path.isAbsolute quietDisk.workingDirectory = true ∧ SameTree quietDisk loudDisk ∧
      (∀ path, Reaches quietDisk (quietDisk.absolutePath "/app/config.json") path →
        AgreeAt quietDisk loudDisk path) ∧
      ∀ parser env, ∃ s,
        Scanner.setUp parser quietDisk "/app/config.json" (some {}) env = .ok s ∧
        Scanner.setUp parser loudDisk "/app/config.json" (some {}) env = .ok s ∧
        (∀ call ∈ [.scan "/app" none, .clearCache] ++ [Call.scan "/app" none],
          call.AgreesOn quietDisk loudDisk s.config s.options) ∧
        ∃ graph,
          ((s.afterCalls quietDisk [.scan "/app" none, .clearCache]).scan quietDisk "/app"
            none).result = .ok graph ∧
          ((s.afterCalls loudDisk [.scan "/app" none, .clearCache]).scan loudDisk "/app"
            none).result = .ok graph := by
  have rooted : Path.isAbsolute quietDisk.workingDirectory = true := by decide +kernel
  have same : SameTree quietDisk loudDisk := sameTree_annotatedDisk ..
  have start : quietDisk.absolutePath "/app/config.json" = "/app/config.json" := by decide +kernel
  have configs : ∀ path, Reaches quietDisk (quietDisk.absolutePath "/app/config.json") path →
      AgreeAt quietDisk loudDisk path := by
    rw [start]
    exact fun path => agreeAt_of_reaches_quietDisk
  refine ⟨rooted, same, configs, fun parser env => ?_⟩
  obtain ⟨sets, scans⟩ :=
    scan_of_sameTree parser quietDisk loudDisk rooted same "/app/config.json" (some {}) env configs
  obtain ⟨config, loaded, only⟩ := exists_config_quietDisk
  have made : Scanner.setUp parser quietDisk "/app/config.json" (some {}) env =
      .ok { parser, config, options := {} } := by
    rw [Scanner.setUp, start, loaded]
    rfl
  have page : (Call.scan "/app" none).AgreesOn quietDisk loudDisk config {} := by
    intro path discovered
    rw [only path discovered]
    exact agreeAt_of_toOption_eq (by decide +kernel)
  have agree : ∀ call ∈ [.scan "/app" none, .clearCache] ++ [Call.scan "/app" none],
      call.AgreesOn quietDisk loudDisk config {} :=
    List.forall_mem_cons.mpr ⟨page, List.forall_mem_cons.mpr
      ⟨trivial, List.forall_mem_singleton.mpr page⟩⟩
  obtain ⟨-, succeeds⟩ := scans _ made [.scan "/app" none, .clearCache] "/app" none agree
  exact ⟨_, made, sets.trans made, agree, succeeds (by decide +kernel)⟩

end Scan

end SourceAtlas
