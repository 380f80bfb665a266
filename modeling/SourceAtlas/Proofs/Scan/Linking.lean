/-
# Relative imports meet the files that are scanned

The path that a relative import leads to and the path under which the same file is discovered are
found in different ways, one from the importing file and one from the root of the scan. Both are
normal and have the slashes of the root at their start, so they are the same text. A link is
therefore drawn to the node of the file.

Only a declaration whose name starts with a slash could stand in the place of the file, and a name
is whatever the parser says. So this is asked of the parser, and of nothing else about it; the
parser that follows the grammars does it.
-/

import SourceAtlas.Proofs.Disk.Resolving
import SourceAtlas.Proofs.Grammar.Names
import SourceAtlas.Proofs.Graph.Reparsing
import SourceAtlas.Proofs.Scan.Caching
import SourceAtlas.Proofs.Settings.Discovery

namespace SourceAtlas

/-- A disk as file systems hold them: the working directory is absolute, and the names of entries
are names of a path. -/
structure Disk.IsStandard (disk : Disk) : Prop where
  rooted : Path.isAbsolute disk.workingDirectory = true
  named : disk.root.NamesAre Path.IsName

namespace Path

/-- Normal paths of one place differ at most in the slashes at their start. -/
theorem IsNormal.eq_of_samePlace {first second : String} (normal : IsNormal first)
    (alsoNormal : IsNormal second) (slashes : leadingSlashes first = leadingSlashes second)
    (same : SamePlace first second) : first = second := by
  rw [normal.eq_rooted, slashes, same]
  exact alsoNormal.eq_rooted.symm

end Path

namespace Disk

variable {disk : Disk}

theorem leadingSlashes_of_resolve? {extensions : List String}
    (slashless : ∀ e ∈ extensions, '/' ∉ e.toList) {importer specifier path : String}
    (normal : Path.IsNormal importer) (relative : specifier.startsWith "." = true)
    (resolved : disk.resolve? extensions importer specifier = some path) :
    Path.leadingSlashes path = Path.leadingSlashes importer := by
  obtain ⟨names, all, rfl⟩ := exists_rooted_of_resolve? slashless normal relative resolved
  exact Path.leadingSlashes_rooted (Path.leadingSlashes_of_isAbsolute normal.isAbsolute) all

end Disk

namespace Settings

variable {disk : Disk} (standard : disk.IsStandard) {root : String} {options : Options}
  {config : Option CompilerConfig}
include standard

/-- A discovered path has the segments of the root at its start. -/
theorem exists_rooted_of_mem_discover {path : String}
    (discovered : path ∈ discover disk root options config) :
    ∃ names, (∀ s ∈ names, Path.IsName s) ∧
      path = Path.rooted (Path.leadingSlashes (disk.absolutePath root))
        (Path.normalSegments (disk.absolutePath root) ++ names) := by
  obtain ⟨entries, names, found, file, rfl, -⟩ := exists_fileAt_of_mem_discover discovered
  have top := disk.isNormal_absolutePath standard.rooted root
  have named := (Disk.namesAre_find standard.named found).of_fileAt file
  refine ⟨names, named, ?_⟩
  conv_lhs => rw [top.eq_rooted]
  exact Path.join_rooted (Path.leadingSlashes_of_isAbsolute top.isAbsolute)
    (Path.isName_normalSegments top.isAbsolute) file.ne_nil named

theorem isNormal_of_mem_discover {path : String}
    (discovered : path ∈ discover disk root options config) :
    Path.IsNormal path ∧
      Path.leadingSlashes path = Path.leadingSlashes (disk.absolutePath root) := by
  obtain ⟨names, named, rfl⟩ := exists_rooted_of_mem_discover standard discovered
  have top := disk.isNormal_absolutePath standard.rooted root
  have few := Path.leadingSlashes_of_isAbsolute top.isAbsolute
  have all : ∀ s ∈ Path.normalSegments (disk.absolutePath root) ++ names, Path.IsName s :=
    List.forall_mem_append.mpr ⟨Path.isName_normalSegments top.isAbsolute, named⟩
  exact ⟨Path.isNormal_rooted few all, Path.leadingSlashes_rooted few all⟩

variable {extensions : List String} (slashless : ∀ e ∈ extensions, '/' ∉ e.toList)
  {importer specifier path : String} (relative : specifier.startsWith "." = true)
  (discovered : importer ∈ discover disk root options config)
  (resolved : disk.resolve? extensions importer specifier = some path)
include slashless relative discovered resolved

theorem isNormal_of_resolve?_discovered :
    Path.IsNormal path ∧
      Path.leadingSlashes path = Path.leadingSlashes (disk.absolutePath root) := by
  obtain ⟨normal, slashes⟩ := isNormal_of_mem_discover standard discovered
  refine ⟨Disk.isNormal_of_resolve? slashless normal relative resolved, ?_⟩
  rw [Disk.leadingSlashes_of_resolve? slashless normal relative resolved, slashes]

/-- Where a relative import of a discovered file leads, no other spelling is discovered. -/
theorem eq_of_samePlace_discovered {listed : String}
    (also : listed ∈ discover disk root options config) (same : Path.SamePlace listed path) :
    listed = path := by
  obtain ⟨normal, slashes⟩ := isNormal_of_mem_discover standard also
  obtain ⟨alsoNormal, alsoSlashes⟩ :=
    isNormal_of_resolve?_discovered standard slashless relative discovered resolved
  exact normal.eq_of_samePlace alsoNormal (slashes.trans alsoSlashes.symm) same

/-- A file beneath the root that a relative import of a discovered file leads to is spelled as a
walk from the root spells it. -/
theorem eq_join_of_resolve?_discovered {names : List String} (file : disk.isFile path = true)
    (beneath : Path.normalSegments path =
      Path.normalSegments (disk.absolutePath root) ++ names) :
    path = Path.join (disk.absolutePath root) (Path.joinSegments names) := by
  obtain ⟨normal, slashes⟩ :=
    isNormal_of_resolve?_discovered standard slashless relative discovered resolved
  have top := disk.isNormal_absolutePath standard.rooted root
  have spelled : path = Path.rooted (Path.leadingSlashes (disk.absolutePath root))
      (Path.normalSegments (disk.absolutePath root) ++ names) := by
    rw [← slashes, ← beneath]
    exact normal.eq_rooted
  have named : ∀ s ∈ names, Path.IsName s := by
    have all := Path.isName_normalSegments normal.isAbsolute
    rw [beneath] at all
    exact (List.forall_mem_append.mp all).2
  -- The root is a directory, so the file is not the root itself.
  have deeper : names ≠ [] := by
    intro none
    obtain ⟨entries, -, found, -⟩ := exists_fileAt_of_mem_discover discovered
    rw [none, List.append_nil, ← top.eq_rooted] at spelled
    rw [spelled, Disk.isFile, found] at file
    cases file
  conv_rhs => rw [top.eq_rooted]
  rw [Path.join_rooted (Path.leadingSlashes_of_isAbsolute top.isAbsolute)
    (Path.isName_normalSegments top.isAbsolute) deeper named]
  exact spelled

end Settings

namespace Syntax

open SourceAtlas.Graph

variable {α : Type}

theorem specifier_addClauseChild (record : ImportRecord) (child : Tree α) :
    (addClauseChild record child).specifier = record.specifier := by
  rw [addClauseChild]
  split
  · rfl
  · split
    · rfl
    · split
      · dsimp only
        split
        · rfl
        · rfl
      · rfl

theorem specifier_addClause (record : ImportRecord) (clause : Tree α) :
    (addClause record clause).specifier = record.specifier := by
  rw [addClause]
  induction clause.children generalizing record with
  | nil => rfl
  | cons child rest ih => rw [List.foldl_cons, ih, specifier_addClauseChild]

theorem specifier_foldl_addClause (record : ImportRecord) (clauses : List (Tree α)) :
    (clauses.foldl addClause record).specifier = record.specifier := by
  induction clauses generalizing record with
  | nil => rfl
  | cons clause rest ih => rw [List.foldl_cons, ih, specifier_addClause]

/-- A record keeps what its own specifier leads to. -/
theorem resolvedPath_of_mem_importRecords {resolve : String → Option String} {root : Tree α}
    {r : ImportRecord} (listed : r ∈ importRecords resolve root) :
    r.resolvedPath = resolve r.specifier := by
  obtain ⟨statement, -, found⟩ := List.mem_filterMap.mp listed
  rw [importRecord?] at found
  split at found
  · obtain ⟨source, -, rfl⟩ := Option.map_eq_some_iff.mp found
    dsimp only
    split
    · rw [specifier_foldl_addClause]
    · rw [specifier_foldl_addClause]
  · cases found

end Syntax

namespace Graph

/-- Files that are known by their paths, with no declaration under the path of one of them. -/
structure KnownByPath (sources : List SourceFile) : Prop where
  one : ∀ s ∈ sources, ∀ t ∈ sources, s.path = t.path → s = t
  apart : ∀ s ∈ sources, ∀ t ∈ sources, ¬ s.Declares t.path

open DependencyGraph

variable {sources : List SourceFile} (known : KnownByPath sources) (scope : InternalScope)
include known

/-- The node of every file is stored under its path. -/
theorem KnownByPath.node?_build {t : SourceFile} (given : t ∈ sources) :
    (({} : DependencyGraph).applyAll (buildAdditions scope {} sources)).node? t.path =
      some t.fileNode := by
  have put : ∀ n ∈ nodesAt t.path (sources.flatMap SourceFile.additions), n = t.fileNode := by
    intro n made
    obtain ⟨s, also, ⟨here, rfl⟩ | ⟨declared, here⟩⟩ := mem_nodesAt_sources.mp made
    · rw [known.one s also t given here]
    · exact absurd ⟨n, declared, here⟩ (known.apart s also t given)
  have some_put : nodesAt t.path (sources.flatMap SourceFile.additions) ≠ [] :=
    List.ne_nil_of_mem (mem_nodesAt_sources.mpr ⟨t, given, .inl ⟨rfl, rfl⟩⟩)
  have before : (({} : DependencyGraph).withSources sources).node? t.path = some t.fileNode := by
    rw [withSources, node?_applyAll]
    exact foldl_settle_same rfl rfl put some_put
  -- The links come after all files and put placeholders only, which a file absorbs.
  rw [applyAll_buildAdditions]
  refine node?_applyAll_of_file before fun m placed => ?_
  rw [← mem_nodesAt, nodesAt_linkAdditions] at placed
  obtain ⟨r, -, rfl⟩ := List.mem_map.mp placed
  simp [ImportRecord.placeholder, Node.kind]

/-- Every internal record of a file is a link from its path. -/
theorem KnownByPath.hasImport_build {s : SourceFile} (given : s ∈ sources) {r : ImportRecord}
    (listed : r ∈ s.imports) (internal : scope.isInternal r.specifier = true) :
    (({} : DependencyGraph).applyAll (buildAdditions scope {} sources)).HasImport s.path
      r.targetKey := by
  rw [sound_empty.hasImport_build]
  exact .inl ⟨_, known.node?_build scope given, r, List.mem_filter.mpr ⟨listed, internal⟩, rfl⟩

end Graph

/-! ## Scans -/

namespace Scan

open SourceAtlas.Graph Settings

/-- No declaration that a parser finds in a text has a name that starts with a slash, whether the
text is of the language or the parser recovered a tree for it. In all the languages the name of a
declaration is an identifier; a parser that recovers may take one for missing, and its text is then
empty. -/
def Parser.NamesWell (parser : Parser) : Prop :=
  ∀ dialect text, (parser dialect text).tree.DeclaresWell

theorem Parsed.declaresWell_ofTree? (text : List Char) {result : Option Grammar.Tree}
    (well : ∀ tree, result = some tree → tree.NamesWell) :
    (ofTree? text result).tree.DeclaresWell := by
  cases result with
  | none => exact (Syntax.Tree.namesWell_node (List.forall_mem_nil _)).declaresWell
  | some tree => exact (well tree rfl).declaresWell

theorem namesWell_strictParser : strictParser.NamesWell := by
  intro dialect text
  rw [strictParser]
  exact Parsed.declaresWell_ofTree? text fun tree => Grammar.namesWell_of_parse?

variable {parser : Parser} {disk : Disk} {config : CompilerConfig} {root : String}
  {options : Options}

theorem path_readSource (parser : Parser) (disk : Disk) (extensions : List String)
    (scope : InternalScope) (path : String) :
    (readSource parser disk extensions scope path).path = path := by
  rw [readSource]
  split <;> rfl

/-- What is found in a file: nothing, or the imports and declarations of its tree. -/
theorem readSource_cases (parser : Parser) (disk : Disk) (extensions : List String)
    (scope : InternalScope) (path : String) :
    let s := readSource parser disk extensions scope path
    (s.imports = [] ∧ s.declarations = []) ∨
      ∃ text tree, (parser (Grammar.dialectOfPath path) text).tree = tree ∧
        s.imports = Syntax.importRecords (disk.resolve? extensions path) tree ∧
        s.declarations = Syntax.declarations path tree := by
  intro s
  dsimp only [s]
  rw [readSource]
  split
  · exact .inl ⟨rfl, rfl⟩
  · rename_i text _
    exact .inr ⟨text, _, rfl, rfl, rfl⟩

/-- A usable file was discovered, and what was found in it is what reading it gives. -/
theorem of_mem_usable {s : SourceFile}
    (given : s ∈ usable (examine parser disk config root options)) :
    s.path ∈ discover disk root options (some config) ∧
      s = readSource parser disk options.extensions (scopeOf root options) s.path := by
  obtain ⟨path, discovered, rfl⟩ := List.mem_map.mp (List.mem_filter.mp given).1
  rw [path_readSource]
  exact ⟨discovered, rfl⟩

/-- A file that is discovered and can be read is among those from which the graph is made. -/
theorem readSource_mem_usable {path : String}
    (discovered : path ∈ discover disk root options (some config))
    (legible : (disk.readText path).isOk = true) :
    readSource parser disk options.extensions (scopeOf root options) path ∈
      usable (examine parser disk config root options) := by
  refine List.mem_filter.mpr ⟨List.mem_map_of_mem discovered, ?_⟩
  rw [readSource]
  cases read : disk.readText path with
  | error fault =>
      rw [read] at legible
      cases legible
  | ok text => rfl

theorem resolvedPath_of_mem_imports {extensions : List String} {scope : InternalScope}
    {path : String} {r : ImportRecord}
    (listed : r ∈ (readSource parser disk extensions scope path).imports) :
    r.resolvedPath = disk.resolve? extensions path r.specifier := by
  rcases readSource_cases parser disk extensions scope path with
    ⟨none, -⟩ | ⟨-, tree, -, found, -⟩
  · rw [none] at listed
    cases listed
  · rw [found] at listed
    exact Syntax.resolvedPath_of_mem_importRecords listed

theorem Parser.NamesWell.noSlashFirst_of_declares (well : parser.NamesWell)
    {extensions : List String} {scope : InternalScope} {path key : String}
    (declares : (readSource parser disk extensions scope path).Declares key) :
    Syntax.NoSlashFirst key := by
  obtain ⟨d, listed, rfl⟩ := declares
  rcases readSource_cases parser disk extensions scope path with
    ⟨-, none⟩ | ⟨text, tree, rfl, -, found⟩
  · rw [none] at listed
    cases listed
  · rw [found] at listed
    exact Syntax.noSlashFirst_of_mem_declarations (well _ text) listed

/-- Every relative import that leads to the place of a file is a link to the node of that file. -/
def LinksToFiles (sources : List SourceFile) (g : DependencyGraph) : Prop :=
  ∀ s ∈ sources, ∀ r ∈ s.imports, r.specifier.startsWith "." = true →
    ∀ path, r.resolvedPath = some path → ∀ t ∈ sources, Path.SamePlace t.path path →
      path = t.path ∧ r.targetKey = t.path ∧ g.HasImport s.path t.path ∧
        g.node? t.path = some t.fileNode

section Standard

variable (well : parser.NamesWell) (standard : disk.IsStandard)
include well standard

theorem knownByPath_usable :
    KnownByPath (usable (examine parser disk config root options)) where
  one s given t also same := by
    rw [(of_mem_usable given).2, (of_mem_usable also).2, same]
  apart s given t also declares := by
    -- The path of a file starts with a slash, and no key of a declaration does.
    obtain ⟨discovered, -⟩ := of_mem_usable also
    obtain ⟨rest, slash⟩ :=
      Path.isAbsolute_iff.mp (isNormal_of_mem_discover standard discovered).1.isAbsolute
    rw [(of_mem_usable given).2] at declares
    apply well.noSlashFirst_of_declares declares
    rw [slash]
    rfl

theorem linksToFiles_of_repositoryGraph (slashless : ∀ e ∈ options.extensions, '/' ∉ e.toList)
    {g : DependencyGraph} (made : repositoryGraph parser disk config root options = .ok g) :
    LinksToFiles (usable (examine parser disk config root options)) g := by
  have known : KnownByPath (usable (examine parser disk config root options)) :=
    knownByPath_usable well standard
  cases (DependencyGraph.sound_empty.build (scopeOf root options) _).1.symm.trans made
  intro s given r listed relative path resolved t also same
  obtain ⟨importing, read⟩ := of_mem_usable given
  obtain ⟨discovered, -⟩ := of_mem_usable also
  have leads : disk.resolve? options.extensions s.path r.specifier = some path := by
    rw [← resolved, resolvedPath_of_mem_imports (read ▸ listed)]
  have spelled : t.path = path :=
    eq_of_samePlace_discovered standard slashless relative importing leads discovered same
  have target : r.targetKey = t.path := by
    have nonempty : path ≠ "" := by
      rintro rfl
      have absolute := (isNormal_of_mem_discover standard discovered).1.isAbsolute
      rw [spelled] at absolute
      cases absolute
    rw [ImportRecord.targetKey, resolved, spelled]
    exact if_neg (mt eq_of_beq nonempty)
  have internal : (scopeOf root options).isInternal r.specifier = true := by
    rw [InternalScope.isInternal, relative, Bool.true_or, Bool.true_or, Bool.true_or]
  refine ⟨spelled.symm, target, ?_, known.node?_build _ also⟩
  rw [← target]
  exact known.hasImport_build _ given listed internal

end Standard

/-- **Relative imports meet the files that are scanned.** On a standard disk, what a relative
specifier leads to from a normal absolute path exists, is normal and absolute, and leads to itself
from anywhere. From a discovered file, a file beneath the root is spelled as the walk spells it, and
no other spelling of the place is discovered. So whatever the parser makes of a text, as long as no
declaration has a name that starts with a slash, and whatever scans came before, a scan of a
directory gives a graph in which every relative import that leads to a scanned file is a link to the
node of that file. -/
theorem relativeImports_meet_scannedFiles (disk : Disk) (standard : disk.IsStandard) :
    (∀ (extensions : List String) (importer specifier path : String),
      (∀ e ∈ extensions, '/' ∉ e.toList) → Path.IsNormal importer →
      specifier.startsWith "." = true →
      disk.resolve? extensions importer specifier = some path →
      disk.doesExist path = true ∧ Path.IsNormal path ∧
        (∀ other, disk.resolve? extensions other path = some path) ∧
        ∀ root options config, importer ∈ discover disk root options config →
          (∀ names, disk.isFile path = true →
            Path.normalSegments path = Path.normalSegments (disk.absolutePath root) ++ names →
            path = Path.join (disk.absolutePath root) (Path.joinSegments names)) ∧
          ∀ listed ∈ discover disk root options config,
            Path.SamePlace listed path → listed = path) ∧
      ∀ (parser : Parser), parser.NamesWell →
        ∀ (config : CompilerConfig) (own : Options) (calls : List Call) (root : String)
          (options : Option Options),
        let new : Scanner := { parser, config, options := own }
        let used := usedOptions own (calls ++ [.scan root options])
        (∀ o ∈ used, ∀ e ∈ o.extensions, '/' ∉ e.toList) →
        disk.isDirectory (disk.absolutePath root) = true →
        ∃ g, ((new.afterCalls disk calls).scan disk root options).result = .ok g ∧
          ∃ o ∈ used, o.digest = (options.getD own).digest ∧
            repositoryGraph parser disk config (disk.absolutePath root) o = .ok g ∧
            LinksToFiles (usable (examine parser disk config (disk.absolutePath root) o)) g := by
  constructor
  · intro extensions importer specifier path slashless normal relative resolved
    have spelled := Disk.isNormal_of_resolve? slashless normal relative resolved
    refine ⟨Disk.doesExist_of_resolve? resolved, spelled, Disk.resolve?_self spelled resolved, ?_⟩
    intro root options config discovered
    constructor
    · intro names file beneath
      exact eq_join_of_resolve?_discovered standard slashless relative discovered resolved file
        beneath
    · intro listed also same
      exact eq_of_samePlace_discovered standard slashless relative discovered resolved also same
  · intro parser well config own calls root options new used slashless there
    -- A remembered graph was made on the same disk, so it does not matter which scan made it.
    obtain ⟨g, result, o, asked, digest, made⟩ :=
      exists_repositoryGraph_afterCalls parser standard.rooted config own calls options there
    exact ⟨g, result, o, asked, digest, made,
      linksToFiles_of_repositoryGraph well standard (slashless o asked) made⟩

/-- The text of a page that imports from the directory beside it, by a detour. -/
def pageText : String := "import './lib/../util';"

def pageEntries : List (String × Entry) :=
  [("page.ts", .file pageText.toUTF8.toList), ("util", .directory [("index.ts", .file [])])]

def pageDisk : Disk where
  root := .directory [("app", .directory pageEntries)]
  workingDirectory := "/"

/-- A configuration that sets nothing. -/
def plainConfig : CompilerConfig where
  path := "/config.json"
  directory := "/"

/-- A node over a part of the page. -/
def pageNode (kind : String) (named : Bool) (field : Option String) (start stop : Nat)
    (children : List Grammar.Tree) : Grammar.Tree :=
  .node
    { label := ⟨start, stop⟩, kind, startRow := 0, endRow := 0, named, field
      text := some (String.ofList (pageText.toList.extract start stop)) }
    children

def pageTree : Grammar.Tree :=
  pageNode "program" true none 0 23
    [pageNode "import_statement" true none 0 23
      [pageNode "import" false none 0 6 [],
        pageNode "string" true (some "source") 7 22
          [pageNode "\x27" false none 7 8 [], pageNode "string_fragment" true none 8 21 [],
            pageNode "\x27" false none 21 22 []],
        pageNode ";" false none 22 23 []]]

/-- A parser that knows the page and the empty text, in which it finds nothing. -/
def pageParser : Parser := fun _ text =>
  if text = pageText.toList then { tree := pageTree, flawed := false }
  else { tree := pageNode "program" true none 0 0 [], flawed := !text.isEmpty }

/-- The only import of the page. -/
def pageRecord : ImportRecord where
  specifier := "./lib/../util"
  resolvedPath := some "/app/util/index.ts"
  line := 1

/-- No part of the page is in the role of a name. -/
theorem namesWell_pageNode {kind : String} {named : Bool} {field : Option String}
    {start stop : Nat} {children : List Grammar.Tree} (other : field ≠ some "name")
    (all : ∀ c ∈ children, Syntax.Tree.NamedWell c ∧ Syntax.Tree.NamesWell c) :
    Syntax.Tree.NamedWell (pageNode kind named field start stop children) ∧
      Syntax.Tree.NamesWell (pageNode kind named field start stop children) :=
  ⟨fun same => absurd same other, Syntax.Tree.namesWell_node all⟩

theorem namesWell_pageParser : pageParser.NamesWell := by
  have page : Syntax.Tree.NamesWell pageTree := by
    refine (namesWell_pageNode (by decide) ?_).2
    refine List.forall_mem_singleton.mpr (namesWell_pageNode (by decide) ?_)
    simp only [List.forall_mem_cons]
    refine ⟨namesWell_pageNode ?_ ?_, namesWell_pageNode ?_ ?_, namesWell_pageNode ?_ ?_, ?_⟩
    all_goals simp [namesWell_pageNode]
  intro dialect text
  rw [pageParser]
  split
  · exact page.declaresWell
  · exact (namesWell_pageNode (by decide) (List.forall_mem_nil _)).2.declaresWell

theorem isStandard_pageDisk : pageDisk.IsStandard where
  rooted := by decide +kernel
  named := by
    refine .directory (by decide) fun app listed => ?_
    rw [List.mem_singleton.mp listed]
    refine .directory (by decide) fun entry listed => ?_
    simp only [pageEntries, List.mem_cons, List.not_mem_nil, or_false] at listed
    rcases listed with rfl | rfl
    · exact .file _
    · refine .directory (by decide) fun index listed => ?_
      rw [List.mem_singleton.mp listed]
      exact .file _

theorem absolutePath_pageDisk : pageDisk.absolutePath "/app" = "/app" := by decide +kernel

/-- The page and what it imports are discovered. -/
theorem mem_discover_pageDisk :
    "/app/page.ts" ∈ discover pageDisk "/app" {} none ∧
      "/app/util/index.ts" ∈ discover pageDisk "/app" {} none := by
  have raw : Path.rawSegments (pageDisk.fromRoot "/app") = ["", "app"] := by decide +kernel
  have found : pageDisk.find "/app" = .ok (.directory pageEntries) :=
    Disk.find_of_follow (by decide) raw rfl
  rw [discover, (List.mergeSort_perm _ _).mem_iff, (List.mergeSort_perm _ _).mem_iff,
    absolutePath_pageDisk, Disk.filesBelow, found]
  constructor
  · refine List.mem_map.mpr
      ⟨"page.ts", List.mem_filter.mpr ⟨?_, by decide +kernel⟩, by decide +kernel⟩
    simp [pageEntries, filesBeneath]
  · refine List.mem_map.mpr
      ⟨"util/index.ts", List.mem_filter.mpr ⟨?_, by decide +kernel⟩, by decide +kernel⟩
    have entered : Glob.ignoresDirectory (selection {} none).ignored "util" = false := by
      decide +kernel
    simp [pageEntries, filesBeneath, entered]

theorem mem_usable_pageDisk :
    readSource pageParser pageDisk defaultExtensions (scopeOf "/app" {}) "/app/page.ts" ∈
        usable (examine pageParser pageDisk plainConfig "/app" {}) ∧
      readSource pageParser pageDisk defaultExtensions (scopeOf "/app" {}) "/app/util/index.ts" ∈
        usable (examine pageParser pageDisk plainConfig "/app" {}) :=
  ⟨readSource_mem_usable mem_discover_pageDisk.1 (by decide +kernel),
    readSource_mem_usable mem_discover_pageDisk.2 (by decide +kernel)⟩

theorem importRecords_pageTree (resolve : String → Option String) :
    Syntax.importRecords resolve pageTree =
      [{ specifier := "./lib/../util", resolvedPath := resolve "./lib/../util", line := 1 }] := rfl

/-- The page has one import. -/
theorem imports_page (scope : InternalScope) :
    (readSource pageParser pageDisk defaultExtensions scope "/app/page.ts").imports =
      [pageRecord] := by
  have read : pageDisk.readText "/app/page.ts" = .ok pageText.toList :=
    eq_ok_of_toOption (by decide +kernel)
  have leads : pageDisk.resolve? defaultExtensions "/app/page.ts" "./lib/../util" =
      some "/app/util/index.ts" := by decide +kernel
  rw [readSource, read]
  dsimp only
  rw [sourceOfText, pageParser, if_pos rfl]
  dsimp only
  rw [importRecords_pageTree, leads]
  rfl

theorem relativeImports_meet_scannedFiles_pageDisk :
    pageDisk.IsStandard ∧ pageParser.NamesWell ∧ Path.IsNormal "/app/page.ts" ∧
      pageDisk.resolve? [] "/app/page.ts" "./lib/../util" = some "/app/util/index.ts" ∧
      pageDisk.doesExist "/app/util/index.ts" = true ∧ Path.IsNormal "/app/util/index.ts" ∧
      (∀ other, pageDisk.resolve? [] other "/app/util/index.ts" = some "/app/util/index.ts") ∧
      "/app/page.ts" ∈ discover pageDisk "/app" {} none ∧
      "/app/util/index.ts" = Path.join "/app" (Path.joinSegments ["util", "index.ts"]) ∧
      (∀ listed ∈ discover pageDisk "/app" {} none,
        Path.SamePlace listed "/app/util/index.ts" → listed = "/app/util/index.ts") ∧
      ∃ g, (({ parser := pageParser, config := plainConfig, options := {} } : Scanner).scan
          pageDisk "/app" none).result = .ok g ∧
        (∃ s ∈ usable (examine pageParser pageDisk plainConfig "/app" {}),
          s.path = "/app/page.ts" ∧ s.imports = [pageRecord]) ∧
        pageRecord.targetKey = "/app/util/index.ts" ∧
        g.HasImport "/app/page.ts" "/app/util/index.ts" ∧
        ∃ n, g.node? "/app/util/index.ts" = some (.file n) := by
  have normal : Path.IsNormal "/app/page.ts" := ⟨by decide +kernel, by decide +kernel⟩
  have resolved : pageDisk.resolve? [] "/app/page.ts" "./lib/../util" =
      some "/app/util/index.ts" := by decide +kernel
  obtain ⟨resolves, scans⟩ := relativeImports_meet_scannedFiles pageDisk isStandard_pageDisk
  obtain ⟨stands, alsoNormal, again, spelled⟩ := resolves [] "/app/page.ts" "./lib/../util"
    "/app/util/index.ts" (by simp) normal (by decide +kernel) resolved
  obtain ⟨walked, once⟩ := spelled "/app" {} none mem_discover_pageDisk.1
  have joined := walked ["util", "index.ts"] (by decide +kernel) (by decide +kernel)
  rw [absolutePath_pageDisk] at joined
  refine ⟨isStandard_pageDisk, namesWell_pageParser, normal, resolved, stands, alsoNormal, again,
    mem_discover_pageDisk.1, joined, once, ?_⟩
  have slashless : ∀ o ∈ usedOptions {} [.scan "/app" none], ∀ e ∈ o.extensions,
      '/' ∉ e.toList := by
    intro o used
    cases List.mem_singleton.mp used
    decide +kernel
  obtain ⟨g, result, o, used, -, -, links⟩ := scans pageParser namesWell_pageParser plainConfig {}
    [] "/app" none slashless (by decide +kernel)
  cases List.mem_singleton.mp used
  rw [absolutePath_pageDisk] at links
  obtain ⟨page, target⟩ := mem_usable_pageDisk
  have importing : pageRecord ∈ (readSource pageParser pageDisk defaultExtensions
      (scopeOf "/app" {}) "/app/page.ts").imports := by
    rw [imports_page]
    exact List.mem_singleton_self _
  obtain ⟨-, key, link, node⟩ := links _ page pageRecord importing (by decide +kernel)
    "/app/util/index.ts" rfl _ target (by rw [path_readSource]; rfl)
  rw [path_readSource] at key link node
  rw [path_readSource] at link
  exact ⟨g, result, ⟨_, page, path_readSource .., imports_page _⟩, key, link, _, node⟩

end Scan

end SourceAtlas
