/-
# Configurations that extend each other

A configuration may extend another one, which may extend a third. `Follows` says which files are met
on the way, without a bound and without a memory of what was met before. On a finite disk the way
ends: it comes to a path again, to a file that cannot be read, or to one that extends no other. The
loader stops in the same place, because its bound exceeds the number of normal paths to files, and
gives what the nearest file of the way sets.
-/

import SourceAtlas.Proofs.Disk.Counting
import SourceAtlas.Proofs.Settings.ConfigReading

namespace SourceAtlas.Settings

/-- The path of the file that a file extends, if it extends one. -/
def ConfigFile.parentPath? (file : ConfigFile) : Option String :=
  extendedPath? (Path.directory file.path) file.members

/-- The files that are met on the way from one path to another, each extending the next. -/
inductive Follows (disk : Disk) : String → List ConfigFile → String → Prop
  | here (path : String) : Follows disk path [] path
  | onward {file : ConfigFile} {parent next : String} {trail : List ConfigFile}
      (stands : file.StandsOn disk) (link : file.parentPath? = some parent)
      (rest : Follows disk parent trail next) : Follows disk file.path (file :: trail) next

/-- A path is met when files are followed from another one. -/
def Reaches (disk : Disk) (start next : String) : Prop :=
  ∃ trail, Follows disk start trail next

/-- Files that lead from a path to one that extends no other, no two of them under one path. -/
structure IsChain (disk : Disk) (start : String) (chain : List ConfigFile) : Prop where
  ends : ∃ trail last, chain = trail ++ [last] ∧ Follows disk start trail last.path ∧
    last.StandsOn disk ∧ last.parentPath? = none
  distinct : (chain.map ConfigFile.path).Nodup

/-- The list under a key in the nearest of some files that has one. -/
def nearest (key : String) (chain : List ConfigFile) : List String :=
  (chain.findSome? fun file => entryList? key file.members).getD []

/-- The configuration of a file and those that it extends: what it says itself, and the lists of the
nearest file that has them. -/
def resolved (first : ConfigFile) (rest : List ConfigFile) : CompilerConfig where
  path := first.path
  directory := Path.directory first.path
  included := nearest "include" (first :: rest)
  excluded := nearest "exclude" (first :: rest)
  raw := first.members

section Following

variable {disk : Disk} {start next : String} {trail : List ConfigFile}

/-- The path that a file with a normal path extends is normal. -/
theorem ConfigFile.isNormal_parentPath {file : ConfigFile} (normal : Path.IsNormal file.path)
    {parent : String} (link : file.parentPath? = some parent) : Path.IsNormal parent := by
  rw [parentPath?, extendedPath?] at link
  split at link
  · rename_i target _
    split at link
    · rename_i relative
      obtain ⟨names, all, leads⟩ := Path.exists_rooted_normalize_join normal relative
      have few := Path.leadingSlashes_of_isAbsolute normal.isAbsolute
      generalize Path.leadingSlashes file.path = slashes at few leads
      simp only [leads, Option.some.injEq] at link
      split at link
      · rw [← link]
        exact Path.isNormal_rooted few all
      · rw [← link]
        -- What is appended belongs to the last name, or is the only one.
        rcases List.eq_nil_or_concat' names with rfl | ⟨front, last, rfl⟩
        · have only : Path.rooted slashes [] ++ ".json" = Path.rooted slashes [".json"] := by
            simp [Path.rooted, Path.joinSegments]
          rw [only]
          exact Path.isNormal_rooted few (by decide +kernel)
        · rw [Path.rooted_concat_append]
          obtain ⟨before, name⟩ := List.forall_mem_append.mp all
          have longer : Path.IsName (last ++ ".json") :=
            (List.forall_mem_singleton.mp name).append (by decide +kernel)
          apply Path.isNormal_rooted few
          exact List.forall_mem_append.mpr ⟨before, List.forall_mem_singleton.mpr longer⟩
    · cases link
  · cases link

theorem Follows.isNormal (follows : Follows disk start trail next)
    (normal : Path.IsNormal start) :
    Path.IsNormal next ∧ ∀ file ∈ trail, Path.IsNormal file.path := by
  induction follows with
  | here path =>
      constructor
      · exact normal
      · intro file none
        cases none
  | onward stands link rest ih =>
      obtain ⟨last, later⟩ := ih (ConfigFile.isNormal_parentPath normal link)
      exact ⟨last, List.forall_mem_cons.mpr ⟨normal, later⟩⟩

theorem Follows.standsOn (follows : Follows disk start trail next) :
    ∀ file ∈ trail, file.StandsOn disk := by
  induction follows with
  | here path =>
      intro file none
      cases none
  | onward stands link rest ih => exact List.forall_mem_cons.mpr ⟨stands, ih⟩

theorem Follows.concat {file : ConfigFile} {parent : String}
    (follows : Follows disk start trail file.path) (stands : file.StandsOn disk)
    (link : file.parentPath? = some parent) : Follows disk start (trail ++ [file]) parent := by
  generalize there : file.path = middle at follows
  induction follows with
  | here path =>
      rw [← there]
      exact .onward stands link (.here parent)
  | onward before leads rest ih => exact .onward before leads (ih there)

/-- A way without repetition meets at most twice as many files as there are. -/
theorem Follows.length_le (follows : Follows disk start trail next)
    (normal : Path.IsNormal start) (distinct : (trail.map ConfigFile.path).Nodup) :
    trail.length ≤ 2 * disk.fileCount := by
  rw [← List.length_map ConfigFile.path]
  apply Disk.length_le_of_nodup distinct
  intro path listed
  obtain ⟨file, met, rfl⟩ := List.mem_map.mp listed
  exact ⟨(follows.isNormal normal).2 file met, (follows.standsOn file met).isFile⟩

theorem nodup_paths_concat {file : ConfigFile} :
    ((trail ++ [file]).map ConfigFile.path).Nodup ↔
      file.path ∉ trail.map ConfigFile.path ∧ (trail.map ConfigFile.path).Nodup := by
  rw [List.map_append, List.map_singleton, ← List.concat_eq_append, List.nodup_concat]

/-- A way without repetition either goes on or comes to its end: it is back at a path, or at one
from which no file leads on. -/
theorem exists_follows_of_length (disk : Disk) (start : String) (count : Nat) :
    ∃ trail next, Follows disk start trail next ∧ (trail.map ConfigFile.path).Nodup ∧
      (trail.length = count ∨ next ∈ trail.map ConfigFile.path ∨
        ∀ members, ConfigFile.StandsOn disk ⟨next, members⟩ →
          ConfigFile.parentPath? ⟨next, members⟩ = none) := by
  induction count with
  | zero => exact ⟨[], start, .here start, List.nodup_nil, .inl rfl⟩
  | succ count ih =>
      obtain ⟨trail, next, follows, distinct, long | ended⟩ := ih
      · by_cases back : next ∈ trail.map ConfigFile.path
        · exact ⟨trail, next, follows, distinct, .inr (.inl back)⟩
        by_cases final : ∀ members, ConfigFile.StandsOn disk ⟨next, members⟩ →
            ConfigFile.parentPath? ⟨next, members⟩ = none
        · exact ⟨trail, next, follows, distinct, .inr (.inr final)⟩
        push Not at final
        obtain ⟨members, stands, leads⟩ := final
        obtain ⟨parent, link⟩ := Option.ne_none_iff_exists'.mp leads
        have longer := @Follows.concat disk start trail ⟨next, members⟩ parent follows stands link
        refine ⟨_, parent, longer, ?_, .inl ?_⟩
        · exact nodup_paths_concat.mpr ⟨back, distinct⟩
        · rw [List.length_append, long, List.length_singleton]
      · exact ⟨trail, next, follows, distinct, .inr ended⟩

/-- **Every way ends.** On a finite disk a way without repetition comes back or to an end. -/
theorem exists_follows_end (normal : Path.IsNormal start) :
    ∃ trail next, Follows disk start trail next ∧ (trail.map ConfigFile.path).Nodup ∧
      (next ∈ trail.map ConfigFile.path ∨
        ∀ members, ConfigFile.StandsOn disk ⟨next, members⟩ →
          ConfigFile.parentPath? ⟨next, members⟩ = none) := by
  obtain ⟨trail, next, follows, distinct, long | ended⟩ :=
    exists_follows_of_length disk start (2 * disk.fileCount + 1)
  · have short := follows.length_le normal distinct
    omega
  · exact ⟨trail, next, follows, distinct, ended⟩

/-- From every file of a way the rest of it goes on. -/
theorem Follows.of_mem (follows : Follows disk start trail next) {file : ConfigFile}
    (met : file ∈ trail) : ∃ later, later.Sublist trail ∧ Follows disk file.path later next := by
  induction follows with
  | here path => cases met
  | onward stands link rest ih =>
      rcases List.mem_cons.mp met with rfl | later
      · exact ⟨_, List.Sublist.refl _, .onward stands link rest⟩
      · obtain ⟨shorter, among, onward⟩ := ih later
        exact ⟨shorter, among.cons _, onward⟩

/-- Whatever is reached is reached without repetition: what lies between two visits is left out. -/
theorem Reaches.exists_distinct (reaches : Reaches disk start next) :
    ∃ trail, Follows disk start trail next ∧ (trail.map ConfigFile.path).Nodup := by
  obtain ⟨trail, follows⟩ := reaches
  induction follows with
  | here path => exact ⟨[], .here path, List.nodup_nil⟩
  | @onward file parent next trail stands link rest ih =>
      obtain ⟨shorter, onward, distinct⟩ := ih
      by_cases again : file.path ∈ shorter.map ConfigFile.path
      · obtain ⟨other, met, same⟩ := List.mem_map.mp again
        obtain ⟨later, among, follows⟩ := onward.of_mem met
        rw [same] at follows
        exact ⟨later, follows, distinct.sublist (among.map _)⟩
      · refine ⟨file :: shorter, .onward stands link onward, ?_⟩
        rw [List.map_cons, List.nodup_cons]
        exact ⟨again, distinct⟩

end Following

/-! ## The loader along a chain -/

section Loading

variable {disk : Disk} {start next : String} {trail : List ConfigFile}

/-- What one step of the loader does at a normal path. -/
theorem loadChain_succ {path : String} (normal : Path.IsNormal path) (bound : Nat)
    (seen : List String) :
    loadChain disk (bound + 1) seen path =
      if path ∈ seen then .error (.circular path)
      else (readConfig disk path).bind fun members =>
        (ConfigFile.parentPath? ⟨path, members⟩).elim (.ok (overlay path members none))
          fun parent => (loadChain disk bound (path :: seen) parent).map fun base =>
            overlay path members (some base) := by
  rw [loadChain, Disk.absolutePath_of_isNormal normal]
  by_cases again : path ∈ seen
  · rw [if_pos again, if_pos (List.contains_iff_mem.mpr again)]
    rfl
  · rw [if_neg again, if_neg (mt List.contains_iff_mem.mp again)]
    cases readConfig disk path with
    | error fault => rfl
    | ok members =>
        dsimp only [bind, Except.bind, ConfigFile.parentPath?]
        cases extendedPath? (Path.directory path) members with
        | none => rfl
        | some parent => cases loadChain disk bound (path :: seen) parent <;> rfl

/-- A configuration under those that extend it, one after the other. -/
def overlayAll (trail : List ConfigFile) (base : CompilerConfig) : CompilerConfig :=
  trail.foldr (fun file base => overlay file.path file.members (some base)) base

/-- The loader goes the way that the files lead, as long as no path comes again. -/
theorem Follows.loadChain_add (follows : Follows disk start trail next)
    (normal : Path.IsNormal start) (distinct : (trail.map ConfigFile.path).Nodup)
    {seen : List String} (apart : ∀ file ∈ trail, file.path ∉ seen) (bound : Nat) :
    loadChain disk (trail.length + bound) seen start =
      (loadChain disk bound ((trail.map ConfigFile.path).reverse ++ seen) next).map
        (overlayAll trail) := by
  induction follows generalizing seen with
  | here path =>
      rw [List.length_nil, Nat.zero_add, List.map_nil, List.reverse_nil, List.nil_append]
      cases loadChain disk bound seen path <;> rfl
  | @onward file parent next trail stands link rest ih =>
      rw [List.map_cons, List.nodup_cons] at distinct
      have new : file.path ∉ seen := apart file List.mem_cons_self
      have later : ∀ other ∈ trail, other.path ∉ file.path :: seen := by
        intro other met
        rw [List.mem_cons, not_or]
        constructor
        · intro same
          exact distinct.1 (List.mem_map.mpr ⟨other, met, same⟩)
        · exact apart other (List.mem_cons_of_mem _ met)
      have read : readConfig disk file.path = .ok file.members := readConfig_eq_ok_iff.mpr stands
      have onward := ih (ConfigFile.isNormal_parentPath normal link) distinct.2 later
      rw [List.length_cons, Nat.add_right_comm, loadChain_succ normal, if_neg new, read]
      change Option.elim file.parentPath? _ _ = _
      rw [link, Option.elim_some, onward, List.map_cons, List.reverse_cons, List.append_assoc,
        List.singleton_append]
      cases loadChain disk bound ((trail.map ConfigFile.path).reverse ++ file.path :: seen) next <;>
        rfl

theorem loadChain_absolutePath (rooted : Path.isAbsolute disk.workingDirectory = true)
    (bound : Nat) (seen : List String) (path : String) :
    loadChain disk (bound + 1) seen (disk.absolutePath path) =
      loadChain disk (bound + 1) seen path := by
  rw [loadChain, loadChain, Disk.absolutePath_absolutePath rooted]

/-- With any bound from the loader's own on, a way without repetition is gone to its end. -/
theorem Follows.exists_loadChain (rooted : Path.isAbsolute disk.workingDirectory = true)
    {path : String} (follows : Follows disk (disk.absolutePath path) trail next)
    (distinct : (trail.map ConfigFile.path).Nodup) (more : Nat) :
    ∃ bound, loadChain disk (chainBound disk + more) [] path =
      (loadChain disk (bound + 1) (trail.map ConfigFile.path).reverse next).map
        (overlayAll trail) := by
  have normal := disk.isNormal_absolutePath rooted path
  have short := follows.length_le normal distinct
  have enough : chainBound disk + more =
      trail.length + ((2 * disk.fileCount + 1 + more - trail.length) + 1) := by
    rw [chainBound]
    omega
  have positive : chainBound disk + more = (2 * disk.fileCount + 1 + more) + 1 := by
    rw [chainBound]
    omega
  refine ⟨2 * disk.fileCount + 1 + more - trail.length, ?_⟩
  rw [positive, ← loadChain_absolutePath rooted, ← positive, enough,
    follows.loadChain_add normal distinct (fun _ _ => List.not_mem_nil), List.append_nil]

/-- At the end of a way it does not matter how far the loader could go on. -/
theorem loadChain_end (normal : Path.IsNormal next) {visited : List String}
    (ended : next ∈ visited ∨ ∀ members, ConfigFile.StandsOn disk ⟨next, members⟩ →
      ConfigFile.parentPath? ⟨next, members⟩ = none) (bound : Nat) :
    loadChain disk (bound + 1) visited next =
      if next ∈ visited then .error (.circular next)
      else (readConfig disk next).map fun members => overlay next members none := by
  rw [loadChain_succ normal]
  by_cases back : next ∈ visited
  · rw [if_pos back, if_pos back]
  · rw [if_neg back, if_neg back]
    cases read : readConfig disk next with
    | error fault => rfl
    | ok members =>
        have final := ended.resolve_left back members (readConfig_eq_ok_iff.mp read)
        dsimp only [Except.bind, Except.map]
        rw [final]
        rfl

/-- **How a load ends.** The loader goes the only way there is without repetition, and stops at a
path that comes again, at a file that cannot be read, or at one that extends no other. -/
theorem loadCompilerConfig_cases (rooted : Path.isAbsolute disk.workingDirectory = true)
    (path : String) :
    ∃ trail next, Follows disk (disk.absolutePath path) trail next ∧
      (trail.map ConfigFile.path).Nodup ∧
      (∀ more, loadChain disk (chainBound disk + more) [] path = loadCompilerConfig disk path) ∧
      ((next ∈ trail.map ConfigFile.path ∧
          loadCompilerConfig disk path = .error (.circular next)) ∨
        next ∉ trail.map ConfigFile.path ∧
          ((∃ fault, readConfig disk next = .error fault ∧
              loadCompilerConfig disk path = .error fault) ∨
            ∃ members, ConfigFile.StandsOn disk ⟨next, members⟩ ∧
              ConfigFile.parentPath? ⟨next, members⟩ = none ∧
              loadCompilerConfig disk path =
                .ok (overlayAll trail (overlay next members none)))) := by
  have normal := disk.isNormal_absolutePath rooted path
  obtain ⟨trail, next, follows, distinct, ended⟩ := exists_follows_end normal
  have outcome (more : Nat) : loadChain disk (chainBound disk + more) [] path =
      (if next ∈ trail.map ConfigFile.path then .error (.circular next)
        else (readConfig disk next).map fun members => overlay next members none).map
          (overlayAll trail) := by
    obtain ⟨bound, gone⟩ := follows.exists_loadChain rooted distinct more
    have stopped := loadChain_end (follows.isNormal normal).1
      (ended.imp_left List.mem_reverse.mpr) bound
    rw [gone, stopped]
    simp only [List.mem_reverse]
  have own : loadCompilerConfig disk path = _ := outcome 0
  refine ⟨trail, next, follows, distinct, fun more => (outcome more).trans own.symm, ?_⟩
  by_cases back : next ∈ trail.map ConfigFile.path
  · left
    rw [own, if_pos back]
    exact ⟨back, rfl⟩
  · right
    refine ⟨back, ?_⟩
    rw [own, if_neg back]
    cases read : readConfig disk next with
    | error fault => exact .inl ⟨fault, rfl, rfl⟩
    | ok members =>
        have stands := readConfig_eq_ok_iff.mp read
        exact .inr ⟨members, stands, ended.resolve_left back members stands, rfl⟩

open CommandLine in
/-- Where all files on the way are legible, whatever is wrong is a fault of the configuration. -/
theorem kind_of_loadCompilerConfig_eq_error
    (rooted : Path.isAbsolute disk.workingDirectory = true) {path : String}
    (legible : ∀ next bytes, Reaches disk (disk.absolutePath path) next →
      disk.readBytes next = .ok bytes → IsLegible bytes)
    {fault : ConfigFault} (failed : loadCompilerConfig disk path = .error fault) :
    (RunFault.config fault).kind = .configuration := by
  obtain ⟨trail, next, follows, -, -, outcome⟩ := loadCompilerConfig_cases rooted path
  rcases outcome with ⟨-, circular⟩ | ⟨-, ⟨other, refused, same⟩ | ⟨members, -, -, made⟩⟩
  · cases circular.symm.trans failed
    rfl
  · cases same.symm.trans failed
    exact kind_of_readConfig_eq_error (fun bytes => legible next bytes ⟨trail, follows⟩) refused
  · cases made.symm.trans failed

open CommandLine in
/-- A file on the way that is not legible gives a fault of another kind, whatever leads to it. -/
theorem loadCompilerConfig_of_not_isLegible
    (rooted : Path.isAbsolute disk.workingDirectory = true) {path : String}
    (reaches : Reaches disk (disk.absolutePath path) next) {bytes : List UInt8}
    (read : disk.readBytes next = .ok bytes) (illegible : ¬ IsLegible bytes) :
    ∃ fault, loadCompilerConfig disk path = .error fault ∧
      (RunFault.config fault).kind = .value := by
  obtain ⟨fault, refused, kind⟩ := readConfig_of_not_isLegible read illegible
  obtain ⟨trail, follows, distinct⟩ := reaches.exists_distinct
  -- The files that are passed hold objects, so the one that is not legible is none of them.
  have new : next ∉ trail.map ConfigFile.path := by
    intro met
    obtain ⟨file, among, same⟩ := List.mem_map.mp met
    have held := readConfig_eq_ok_iff.mpr (follows.standsOn file among)
    rw [same] at held
    cases held.symm.trans refused
  obtain ⟨bound, gone⟩ := follows.exists_loadChain rooted distinct 0
  have normal := (follows.isNormal (disk.isNormal_absolutePath rooted path)).1
  rw [loadChain_succ normal, if_neg (mt List.mem_reverse.mp new), refused] at gone
  exact ⟨fault, gone, kind⟩

end Loading

/-! ## What a chain sets -/

theorem nearest_cons (key : String) (file : ConfigFile) (rest : List ConfigFile) :
    nearest key (file :: rest) = (entryList? key file.members).getD (nearest key rest) := by
  rw [nearest, List.findSome?_cons]
  cases entryList? key file.members with
  | none => rfl
  | some entries => rfl

theorem overlay_eq_resolved (last : ConfigFile) :
    overlay last.path last.members none = resolved last [] := by
  rw [overlay, resolved, nearest_cons, nearest_cons]
  rfl

theorem overlay_resolved (file first : ConfigFile) (rest : List ConfigFile) :
    overlay file.path file.members (some (resolved first rest)) =
      resolved file (first :: rest) := by
  conv_rhs => rw [resolved, nearest_cons _ file, nearest_cons _ file]
  rfl

/-- Overlaid one after the other, the files of a chain give what the nearest of them set. -/
theorem overlayAll_eq_resolved {trail rest : List ConfigFile} {last first : ConfigFile}
    (split : trail ++ [last] = first :: rest) :
    overlayAll trail (overlay last.path last.members none) = resolved first rest := by
  induction trail generalizing first rest with
  | nil =>
      cases split
      exact overlay_eq_resolved last
  | cons file later ih =>
      rw [List.cons_append, List.cons.injEq] at split
      obtain ⟨rfl, rfl⟩ := split
      obtain ⟨second, others, shape⟩ := List.exists_cons_of_ne_nil
        (show later ++ [last] ≠ [] from List.concat_ne_nil _ _)
      have inner := ih shape
      rw [shape, ← overlay_resolved, ← inner]
      rfl

/-- A way and the file at its end make a chain. -/
theorem isChain_of_follows {disk : Disk} {start next : String} {trail : List ConfigFile}
    {members : List (String × Json)} (follows : Follows disk start trail next)
    (distinct : (trail.map ConfigFile.path).Nodup) (new : next ∉ trail.map ConfigFile.path)
    (stands : ConfigFile.StandsOn disk ⟨next, members⟩)
    (final : ConfigFile.parentPath? ⟨next, members⟩ = none) :
    IsChain disk start (trail ++ [⟨next, members⟩]) where
  ends := ⟨trail, ⟨next, members⟩, rfl, follows, stands, final⟩
  distinct := nodup_paths_concat.mpr ⟨new, distinct⟩

/-- The loader gives the configuration of a chain. -/
theorem IsChain.loadCompilerConfig_eq {disk : Disk}
    (rooted : Path.isAbsolute disk.workingDirectory = true) {path : String} {first : ConfigFile}
    {rest : List ConfigFile} (chain : IsChain disk (disk.absolutePath path) (first :: rest)) :
    loadCompilerConfig disk path = .ok (resolved first rest) := by
  obtain ⟨⟨trail, last, split, follows, stands, final⟩, distinct⟩ := chain
  rw [split] at distinct
  obtain ⟨new, distinct⟩ := nodup_paths_concat.mp distinct
  obtain ⟨bound, gone⟩ := follows.exists_loadChain rooted distinct 0
  have normal := (follows.isNormal (disk.isNormal_absolutePath rooted path)).1
  have read : readConfig disk last.path = .ok last.members := readConfig_eq_ok_iff.mpr stands
  have stopped : loadChain disk (bound + 1) (trail.map ConfigFile.path).reverse last.path =
      .ok (overlay last.path last.members none) := by
    rw [loadChain_succ normal, if_neg (mt List.mem_reverse.mp new), read]
    change Option.elim last.parentPath? _ _ = _
    rw [final]
    rfl
  rw [stopped] at gone
  exact gone.trans (congrArg Except.ok (overlayAll_eq_resolved split.symm))

open CommandLine in
/-- **A load follows the chain.** The loader ends whatever its bound beyond the number of paths. It
gives a configuration exactly if the files that extend each other, from the path on, all stand on
the disk under different paths, hold an object or nothing, and end in one that extends no other. The
configuration is then that of the first file, with each list taken from the nearest file that has
it. Everything else on a disk of legible files is a fault of the configuration. -/
theorem loadCompilerConfig_along_chain (disk : Disk)
    (rooted : Path.isAbsolute disk.workingDirectory = true) (path : String) :
    (∀ more, loadChain disk (chainBound disk + more) [] path = loadCompilerConfig disk path) ∧
      (∀ config, loadCompilerConfig disk path = .ok config ↔
        ∃ first rest, IsChain disk (disk.absolutePath path) (first :: rest) ∧
          config = resolved first rest) ∧
      (disk.root.FilesAre IsLegible →
        (¬ ∃ chain, IsChain disk (disk.absolutePath path) chain) →
        ∃ fault, loadCompilerConfig disk path = .error fault ∧
          (RunFault.config fault).kind = .configuration) := by
  obtain ⟨trail, next, follows, distinct, bounded, outcome⟩ := loadCompilerConfig_cases rooted path
  have returns (config : CompilerConfig) : loadCompilerConfig disk path = .ok config ↔
      ∃ first rest, IsChain disk (disk.absolutePath path) (first :: rest) ∧
        config = resolved first rest := by
    constructor
    · intro loaded
      rcases outcome with ⟨-, failed⟩ | ⟨new, ⟨fault, -, failed⟩ | ⟨members, stands, final, made⟩⟩
      · cases failed.symm.trans loaded
      · cases failed.symm.trans loaded
      · have chain := isChain_of_follows follows distinct new stands final
        obtain ⟨first, rest, split⟩ := List.exists_cons_of_ne_nil
          (show trail ++ [⟨next, members⟩] ≠ [] from List.concat_ne_nil _ _)
        rw [split] at chain
        refine ⟨first, rest, chain, ?_⟩
        cases loaded.symm.trans made
        exact overlayAll_eq_resolved split
    · rintro ⟨first, rest, chain, rfl⟩
      exact chain.loadCompilerConfig_eq rooted
  refine ⟨bounded, returns, ?_⟩
  intro legible none
  cases loaded : loadCompilerConfig disk path with
  | error fault =>
      refine ⟨fault, rfl, kind_of_loadCompilerConfig_eq_error rooted ?_ loaded⟩
      intro next bytes _ read
      exact Disk.readBytes_of_filesAre legible read
  | ok config =>
      obtain ⟨first, rest, chain, -⟩ := (returns config).mp loaded
      exact absurd ⟨_, chain⟩ none

/-- A configuration with a comment that extends one in the directory above, beside one that extends
itself. -/
def layeredDisk : Disk where
  root := .directory
    [("app", .directory
        [("config.json", .file
          "\x7b\"extends\": \"../base\", /* own */ \"include\": [\"src\",]\x7d".toUTF8.toList)]),
      ("base.json",
        .file "\x7b\"include\": [\"lib\"], \"exclude\": [\"old\", 1]\x7d".toUTF8.toList),
      ("loop.json", .file "\x7b\"extends\": \"./app/../loop\"\x7d".toUTF8.toList)]
  workingDirectory := "/app"

theorem filesAre_isLegible_layeredDisk : layeredDisk.root.FilesAre IsLegible := by
  apply Entry.FilesAre.directory
  intro entry listed
  simp only [List.mem_cons, List.not_mem_nil, or_false] at listed
  rcases listed with rfl | rfl | rfl
  · apply Entry.FilesAre.directory
    intro inner among
    rw [List.mem_singleton.mp among]
    exact .file (isLegible_of_isOk (by decide +kernel))
  · exact .file (isLegible_of_isOk (by decide +kernel))
  · exact .file (isLegible_of_isOk (by decide +kernel))

theorem loadCompilerConfig_along_chain_layeredDisk :
    Path.isAbsolute layeredDisk.workingDirectory = true ∧
      layeredDisk.root.FilesAre IsLegible ∧
      (∃ first rest, IsChain layeredDisk (layeredDisk.absolutePath "config.json") (first :: rest) ∧
        loadCompilerConfig layeredDisk "config.json" = .ok (resolved first rest) ∧
        nearest "include" (first :: rest) = ["src"] ∧
        nearest "exclude" (first :: rest) = ["old", "1"]) ∧
      (¬ ∃ chain, IsChain layeredDisk (layeredDisk.absolutePath "/loop.json") chain) ∧
      ∃ fault, loadCompilerConfig layeredDisk "/loop.json" = .error fault ∧
        (CommandLine.RunFault.config fault).kind = .configuration := by
  have rooted : Path.isAbsolute layeredDisk.workingDirectory = true := by decide +kernel
  have evaluated : (loadCompilerConfig layeredDisk "config.json").toOption.map
      (fun config => (config.included, config.excluded)) = some (["src"], ["old", "1"]) := by
    decide +kernel
  have refused : (loadCompilerConfig layeredDisk "/loop.json").isOk = false := by decide +kernel
  obtain ⟨-, returns, -⟩ := loadCompilerConfig_along_chain layeredDisk rooted "config.json"
  obtain ⟨-, loops, fails⟩ := loadCompilerConfig_along_chain layeredDisk rooted "/loop.json"
  have endless : ¬ ∃ chain, IsChain layeredDisk (layeredDisk.absolutePath "/loop.json") chain := by
    rintro ⟨chain, is⟩
    cases chain with
    | nil =>
        obtain ⟨trail, last, split, -⟩ := is.ends
        exact absurd split.symm (List.concat_ne_nil _ _)
    | cons first rest =>
        rw [(loops _).mpr ⟨first, rest, is, rfl⟩] at refused
        cases refused
  refine ⟨rooted, filesAre_isLegible_layeredDisk, ?_, endless,
    fails filesAre_isLegible_layeredDisk endless⟩
  cases loaded : loadCompilerConfig layeredDisk "config.json" with
  | error fault =>
      rw [loaded] at evaluated
      cases evaluated
  | ok config =>
      rw [loaded, Except.toOption, Option.map_some, Option.some.injEq, Prod.mk.injEq] at evaluated
      obtain ⟨first, rest, chain, rfl⟩ := (returns config).mp loaded
      exact ⟨first, rest, chain, rfl, evaluated⟩

/-- A configuration without any text. -/
def blankDisk : Disk where
  root := .directory [("config.json", .file [])]
  workingDirectory := "/"

/-- No text at all is no object, but it stands for one. -/
theorem loadCompilerConfig_blankDisk :
    (blankDisk.readText "/config.json").toOption = some [] ∧
      (∀ members, Json.read (Json.stripComments []) ≠ .ok (.object members)) ∧
      ∃ config, loadCompilerConfig blankDisk "/config.json" = .ok config := by
  refine ⟨by decide +kernel, ?_, ?_⟩
  · intro members absurd
    cases absurd
  · have evaluated : (loadCompilerConfig blankDisk "/config.json").isOk = true := by
      decide +kernel
    cases loaded : loadCompilerConfig blankDisk "/config.json" with
    | error fault =>
        rw [loaded] at evaluated
        cases evaluated
    | ok config => exact ⟨config, rfl⟩

open CommandLine in
/-- **What a load reports.** A load gives a configuration or a fault of the configuration exactly if
all files that it can come to, as far as they are there, are legible. -/
theorem loadCompilerConfig_reports_iff (disk : Disk)
    (rooted : Path.isAbsolute disk.workingDirectory = true) (path : String) :
    ((∃ config, loadCompilerConfig disk path = .ok config) ∨
        ∃ fault, loadCompilerConfig disk path = .error fault ∧
          (RunFault.config fault).kind = .configuration) ↔
      ∀ next bytes, Reaches disk (disk.absolutePath path) next →
        disk.readBytes next = .ok bytes → IsLegible bytes := by
  constructor
  · intro reported next bytes reaches read
    by_contra illegible
    obtain ⟨fault, failed, kind⟩ :=
      loadCompilerConfig_of_not_isLegible rooted reaches read illegible
    rcases reported with ⟨config, loaded⟩ | ⟨other, same, expected⟩
    · cases loaded.symm.trans failed
    · cases same.symm.trans failed
      cases kind.symm.trans expected
  · intro legible
    cases loaded : loadCompilerConfig disk path with
    | ok config => exact .inl ⟨config, rfl⟩
    | error fault =>
        exact .inr ⟨fault, rfl, kind_of_loadCompilerConfig_eq_error rooted legible loaded⟩

theorem loadCompilerConfig_reports_iff_layeredDisk :
    Path.isAbsolute layeredDisk.workingDirectory = true ∧
      ((∃ config, loadCompilerConfig layeredDisk "config.json" = .ok config) ∨
        ∃ fault, loadCompilerConfig layeredDisk "config.json" = .error fault ∧
          (CommandLine.RunFault.config fault).kind = .configuration) := by
  have rooted : Path.isAbsolute layeredDisk.workingDirectory = true := by decide +kernel
  refine ⟨rooted, (loadCompilerConfig_reports_iff layeredDisk rooted "config.json").mpr ?_⟩
  intro next bytes _ read
  exact Disk.readBytes_of_filesAre filesAre_isLegible_layeredDisk read

/-- A configuration that is extended by a legible one but is no UTF-8 itself. -/
def latinDisk : Disk where
  root := .directory
    [("base.json", .file [0xE9]),
      ("config.json", .file "\x7b\"extends\": \"./base\"\x7d".toUTF8.toList)]
  workingDirectory := "/"

open CommandLine in
/-- A file that is no UTF-8 is not reported as a fault of the configuration. -/
theorem loadCompilerConfig_latinDisk :
    ∃ fault, loadCompilerConfig latinDisk "config.json" = .error fault ∧
      (RunFault.config fault).kind = .value := by
  apply exists_error_of_kind
  decide +kernel

end SourceAtlas.Settings
