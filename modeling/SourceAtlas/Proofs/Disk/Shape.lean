/-
# Trees of the same shape

Two trees are alike if their directories list the same names, in any order, and the bytes of their
files are related. A path leads to alike entries in both, or into the same fault. So what a disk
says without the bytes of its files depends on its directories and names alone: which files there
are, what a path leads to, and how an import is resolved.
-/

import Mathlib.Data.List.Forall2
import SourceAtlas.Disk.Resolve
import SourceAtlas.Proofs.Disk.Listing

namespace SourceAtlas

/-- Two computations that give related results or the same fault. -/
inductive Corresponds {ε α β : Type} (R : α → β → Prop) : Except ε α → Except ε β → Prop
  | ok {a : α} {b : β} (related : R a b) : Corresponds R (.ok a) (.ok b)
  | error (fault : ε) : Corresponds R (.error fault) (.error fault)

namespace Corresponds

variable {ε α β γ δ : Type} {R : α → β → Prop} {S : γ → δ → Prop}

theorem exists_eq_ok {x : Except ε α} {y : Except ε β} (same : Corresponds R x y) {a : α}
    (result : x = .ok a) : ∃ b, y = .ok b ∧ R a b := by
  cases same with
  | ok related =>
      cases result
      exact ⟨_, rfl, related⟩
  | error fault => cases result

theorem bind {x : Except ε α} {y : Except ε β} (same : Corresponds R x y)
    {f : α → Except ε γ} {g : β → Except ε δ}
    (onward : ∀ a b, R a b → Corresponds S (f a) (g b)) :
    Corresponds S (x >>= f) (y >>= g) := by
  cases same with
  | ok related => exact onward _ _ related
  | error fault => exact .error fault

/-- What one step keeps related, a whole run does. -/
theorem foldlM {σ : Type} {f : α → σ → Except ε α} {g : β → σ → Except ε β}
    (step : ∀ a b s, R a b → Corresponds R (f a s) (g b s)) (inputs : List σ) {a : α} {b : β}
    (start : R a b) : Corresponds R (inputs.foldlM f a) (inputs.foldlM g b) := by
  induction inputs generalizing a b with
  | nil => exact .ok start
  | cons s rest ih =>
      rw [List.foldlM_cons, List.foldlM_cons]
      exact (step a b s start).bind fun _ _ => ih

end Corresponds

theorem exists_lookup_of_mem {entries : List (String × Entry)} {name : String} {entry : Entry}
    (listed : (name, entry) ∈ entries) : ∃ first, entries.lookup name = some first := by
  rw [← Option.isSome_iff_exists, List.lookup_isSome_iff]
  exact ⟨_, listed, beq_self_eq_true name⟩

namespace Entry

/-- Two trees with the same names in their directories and related bytes in their files. -/
inductive Alike (R : List UInt8 → List UInt8 → Prop) : Entry → Entry → Prop
  | file {bytes others : List UInt8} (related : R bytes others) :
      Alike R (.file bytes) (.file others)
  | directory {entries others : List (String × Entry)}
      (names : (entries.map Prod.fst).Perm (others.map Prod.fst))
      (inner : ∀ name a b, (name, a) ∈ entries → (name, b) ∈ others → Alike R a b) :
      Alike R (.directory entries) (.directory others)

namespace Alike

variable {R : List UInt8 → List UInt8 → Prop}

theorem symm {a b : Entry} (alike : Alike R a b) : Alike (fun x y => R y x) b a := by
  induction alike with
  | file related => exact .file related
  | directory names _ ih =>
      exact .directory names.symm fun name a b first second => ih name b a second first

theorem isDirectory {a b : Entry} (alike : Alike R a b) : b.isDirectory = a.isDirectory := by
  cases alike <;> rfl

/-- Whatever one directory lists, the other lists under the same name. -/
theorem exists_mem {entries others : List (String × Entry)}
    (alike : Alike R (.directory entries) (.directory others)) {name : String} {a : Entry}
    (listed : (name, a) ∈ entries) : ∃ b, (name, b) ∈ others ∧ Alike R a b := by
  cases alike with
  | directory names inner =>
      have among := names.mem_iff.mp (List.mem_map.mpr ⟨_, listed, rfl⟩)
      obtain ⟨⟨other, b⟩, found, same⟩ := List.mem_map.mp among
      cases same
      exact ⟨b, found, inner _ a b listed found⟩

/-- Where no name comes twice, it is enough to compare the entries one by one. -/
theorem of_forall₂ {entries others : List (String × Entry)}
    (distinct : (entries.map Prod.fst).Nodup)
    (each : List.Forall₂ (fun x y => x.1 = y.1 ∧ Alike R x.2 y.2) entries others) :
    Alike R (.directory entries) (.directory others) := by
  have names : entries.map Prod.fst = others.map Prod.fst := by
    induction each with
    | nil => rfl
    | cons same _ ih =>
        rw [List.map_cons, List.nodup_cons] at distinct
        rw [List.map_cons, List.map_cons, same.1, ih distinct.2]
  apply Alike.directory (.of_eq names)
  intro name a b here there
  induction each with
  | nil => cases here
  | @cons x y entries others same _ ih =>
      rw [List.map_cons, List.map_cons, same.1, List.cons.injEq] at names
      rw [List.map_cons, List.nodup_cons] at distinct
      rcases List.mem_cons.mp here with rfl | later
      · rcases List.mem_cons.mp there with rfl | elsewhere
        · exact same.2
        · have again : name ∈ entries.map Prod.fst := by
            rw [names.2]
            exact List.mem_map_of_mem elsewhere
          exact absurd again distinct.1
      · have met : name ∈ entries.map Prod.fst := List.mem_map_of_mem later
        rcases List.mem_cons.mp there with rfl | elsewhere
        · rw [same.1] at distinct
          exact absurd met distinct.1
        · exact ih distinct.2 names.2 later elsewhere

theorem isPlain {a b : Entry} (alike : Alike R a b) (plain : a.IsPlain) : b.IsPlain := by
  induction alike with
  | file related => exact .file _
  | directory names inner ih =>
      have back := (Alike.directory names inner).symm
      cases plain with
      | directory distinct named plainInner =>
          apply IsPlain.directory (names.nodup_iff.mp distinct)
          · intro other listed
            obtain ⟨a, found, -⟩ := back.exists_mem listed
            exact named (other.1, a) found
          · intro other listed
            obtain ⟨a, found, -⟩ := back.exists_mem listed
            exact ih _ a other.2 found listed (plainInner _ found)

theorem fileAt {entries others : List (String × Entry)} {names : List String}
    (found : FileAt entries names) (alike : Alike R (.directory entries) (.directory others)) :
    FileAt others names := by
  induction found generalizing others with
  | here listed =>
      obtain ⟨b, other, same⟩ := alike.exists_mem listed
      cases same
      exact .here other
  | beneath listed _ ih =>
      obtain ⟨b, other, same⟩ := alike.exists_mem listed
      cases same with
      | directory names inner => exact .beneath other (ih (.directory names inner))

theorem child? {a b : Entry} (alike : Alike R a b) (name : String) :
    Corresponds (Alike R) (a.child? name) (b.child? name) := by
  cases alike with
  | file related => exact .error _
  | @directory entries others names inner =>
      rw [Entry.child?, Entry.child?]
      by_cases nameable : canBeNamed name
      · rw [if_pos nameable, if_pos nameable]
        have back := (Alike.directory names inner).symm
        cases found : entries.lookup name with
        | some a =>
            obtain ⟨b, listed, -⟩ :=
              (Alike.directory names inner).exists_mem (mem_of_lookup found)
            obtain ⟨first, alsoFound⟩ := exists_lookup_of_mem listed
            rw [alsoFound]
            exact .ok (inner name a first (mem_of_lookup found) (mem_of_lookup alsoFound))
        | none =>
            cases alsoFound : others.lookup name with
            | some b =>
                obtain ⟨a, listed, -⟩ := back.exists_mem (mem_of_lookup alsoFound)
                obtain ⟨first, contrary⟩ := exists_lookup_of_mem listed
                cases found.symm.trans contrary
            | none => exact .error _
      · rw [if_neg nameable, if_neg nameable]
        exact .error _

end Alike

end Entry

/-! ## Walks -/

/-- Where the same names are listed and each gives the same in some order, so do all of them. -/
theorem flatMap_perm_of_names {α β κ : Type} {f : κ × α → List β} {entries others : List (κ × α)}
    (names : (entries.map Prod.fst).Perm (others.map Prod.fst))
    (inner : ∀ name a b, (name, a) ∈ entries → (name, b) ∈ others →
      (f (name, a)).Perm (f (name, b))) :
    (entries.flatMap f).Perm (others.flatMap f) := by
  induction entries generalizing others with
  | nil =>
      have none : others = [] := List.map_eq_nil_iff.mp (List.nil_perm.mp names)
      rw [none]
  | cons entry rest ih =>
      obtain ⟨name, a⟩ := entry
      have among := names.mem_iff.mp List.mem_cons_self
      obtain ⟨⟨same, b⟩, listed, rfl⟩ := List.mem_map.mp among
      obtain ⟨before, after, rfl⟩ := List.append_of_mem listed
      have front : (before ++ (same, b) :: after).Perm ((same, b) :: (before ++ after)) :=
        List.perm_middle
      have fewer : (rest.map Prod.fst).Perm ((before ++ after).map Prod.fst) :=
        (names.trans (front.map Prod.fst)).cons_inv
      have first := inner same a b List.mem_cons_self listed
      have later := ih fewer fun name a b here there =>
        inner name a b (List.mem_cons_of_mem _ here)
          (front.mem_iff.mpr (List.mem_cons_of_mem _ there))
      rw [List.flatMap_cons]
      apply (first.append later).trans
      rw [← List.flatMap_cons]
      exact (front.flatMap_right f).symm

/-- A walk finds the same files in alike trees, in some order. -/
theorem Entry.Alike.filesBeneath_perm {R : List UInt8 → List UInt8 → Prop} {a b : Entry}
    (alike : Alike R a b) (skip : String → Bool) (place name : String) :
    (filesBeneath skip place [(name, a)]).Perm (filesBeneath skip place [(name, b)]) := by
  induction alike generalizing place name with
  | file related => simp [filesBeneath]
  | @directory entries others names inner ih =>
      simp only [filesBeneath, List.append_nil]
      by_cases skipped : skip (place ++ name)
      · rw [if_pos skipped, if_pos skipped]
      · rw [if_neg skipped, if_neg skipped, filesBeneath_eq_flatMap,
          filesBeneath_eq_flatMap _ _ others]
        apply flatMap_perm_of_names names
        intro name a b here there
        exact ih name a b here there _ name

namespace Disk

open Entry (Alike)

variable {R : List UInt8 → List UInt8 → Prop}

/-- One segment leads on in the same way. -/
theorem followSegment_alike {trail others : List Entry}
    (alike : List.Forall₂ (Alike R) trail others) (segment : String) :
    Corresponds (List.Forall₂ (Alike R)) (followSegment trail segment)
      (followSegment others segment) := by
  cases alike with
  | nil => exact .error _
  | @cons here there above aboveThere first rest =>
      simp only [followSegment, first.isDirectory]
      by_cases stays : (segment == "" || segment == ".") = true
      · rw [if_pos stays, if_pos stays]
        split
        · exact .ok (.cons first rest)
        · exact .error _
      rw [if_neg stays, if_neg stays]
      by_cases up : (segment == "..") = true
      · rw [if_pos up, if_pos up]
        split
        · cases rest with
          | nil => exact .ok (.cons first .nil)
          | cons second rest => exact .ok (.cons second rest)
        · exact .error _
      rw [if_neg up, if_neg up]
      apply (first.child? segment).bind
      intro next reached same
      exact .ok (.cons same (.cons first rest))

theorem follow_alike {trail others : List Entry} (alike : List.Forall₂ (Alike R) trail others)
    (segments : List String) :
    Corresponds (List.Forall₂ (Alike R)) (follow trail segments) (follow others segments) :=
  Corresponds.foldlM (fun _ _ segment same => followSegment_alike same segment) segments alike

/-- A path leads to alike entries, or into the same fault. -/
theorem find_alike {disk other : Disk}
    (sameStart : other.workingDirectory = disk.workingDirectory)
    (alike : Alike R disk.root other.root) (path : String) :
    Corresponds (Alike R) (disk.find path) (other.find path) := by
  have samePath : other.fromRoot path = disk.fromRoot path := by
    rw [fromRoot, fromRoot, sameStart]
  rw [find, find, samePath]
  split
  · exact .error _
  · apply (follow_alike (.cons alike .nil) _).bind
    intro trail others same
    cases same with
    | nil => exact .error _
    | cons first rest => exact .ok first

/-- Two disks with the same directories and names, looked at from the same place. -/
structure SameTree (disk other : Disk) : Prop where
  start : other.workingDirectory = disk.workingDirectory
  tree : Alike (fun _ _ => True) disk.root other.root

namespace SameTree

variable {disk other : Disk} (same : SameTree disk other)

include same

theorem find (path : String) :
    Corresponds (Alike fun _ _ => True) (disk.find path) (other.find path) :=
  find_alike same.start same.tree path

theorem absolutePath (path : String) : other.absolutePath path = disk.absolutePath path := by
  rw [Disk.absolutePath, Disk.absolutePath, same.start]

theorem doesExist : other.doesExist = disk.doesExist := by
  funext path
  have found := same.find path
  rw [Disk.doesExist, Disk.doesExist]
  generalize disk.find path = here, other.find path = there at found ⊢
  cases found <;> rfl

theorem isDirectory : other.isDirectory = disk.isDirectory := by
  funext path
  have found := same.find path
  rw [Disk.isDirectory, Disk.isDirectory]
  generalize disk.find path = here, other.find path = there at found ⊢
  cases found with
  | error fault => rfl
  | ok alike => cases alike <;> rfl

theorem isFile : other.isFile = disk.isFile := by
  funext path
  have found := same.find path
  rw [Disk.isFile, Disk.isFile]
  generalize disk.find path = here, other.find path = there at found ⊢
  cases found with
  | error fault => rfl
  | ok alike => cases alike <;> rfl

theorem indexFile? : other.indexFile? = disk.indexFile? := by
  funext directory extensions
  rw [Disk.indexFile?, Disk.indexFile?, same.isFile]

/-- How imports are resolved does not depend on what files hold. -/
theorem resolve? : other.resolve? = disk.resolve? := by
  funext extensions importer specifier
  rw [Disk.resolve?, Disk.resolve?, same.doesExist, same.isDirectory, same.indexFile?, same.isFile]

theorem filesBelow_perm (skip : String → Bool) (directory : String) :
    (disk.filesBelow skip directory).Perm (other.filesBelow skip directory) := by
  have found := same.find directory
  rw [Disk.filesBelow, Disk.filesBelow]
  generalize disk.find directory = here, other.find directory = there at found ⊢
  cases found with
  | error fault => exact .nil
  | ok alike =>
      cases alike with
      | file related => exact .nil
      | @directory entries others names inner =>
          dsimp only
          rw [filesBeneath_eq_flatMap, filesBeneath_eq_flatMap _ _ others]
          apply flatMap_perm_of_names names
          intro name a b here there
          exact (inner name a b here there).filesBeneath_perm skip "" name

theorem fileCount : other.fileCount = disk.fileCount :=
  (same.tree.filesBeneath_perm _ "" "").length_eq.symm

end SameTree

/-- What one disk holds in a file, the other does too. -/
def AgreeAt (disk other : Disk) (path : String) : Prop :=
  ∀ bytes, disk.readBytes path = .ok bytes → other.readBytes path = .ok bytes

/-- Where two disks of one tree agree, they give the same bytes or the same fault. -/
theorem SameTree.readBytes {disk other : Disk} (same : SameTree disk other) {path : String}
    (agree : AgreeAt disk other path) : other.readBytes path = disk.readBytes path := by
  have found := same.find path
  generalize here : disk.find path = entry, there : other.find path = reached at found
  cases found with
  | error fault => rw [Disk.readBytes, Disk.readBytes, here, there]
  | ok alike =>
      cases alike with
      | directory names inner => rw [Disk.readBytes, Disk.readBytes, here, there]
      | @file bytes others related =>
          have held : disk.readBytes path = .ok bytes := by rw [Disk.readBytes, here]
          rw [held, agree bytes held]

theorem SameTree.readText {disk other : Disk} (same : SameTree disk other) {path : String}
    (agree : AgreeAt disk other path) : other.readText path = disk.readText path := by
  rw [Disk.readText, Disk.readText, same.readBytes agree]

end Disk

end SourceAtlas
