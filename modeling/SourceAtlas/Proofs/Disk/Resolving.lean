/-
# Where relative specifiers lead

A relative specifier, seen from a file with a normal absolute path, leads to a normal absolute path
with as many slashes at its start: the segments of the specifier are followed from the directory of
the file, and what is appended for an index file or an extension only makes a longer last name. Such
a path is found again from anywhere: as a specifier it leads to itself. Paths with the same normal
segments are spellings of one place, and lead to the same entry.
-/

import SourceAtlas.Disk.Resolve
import SourceAtlas.Proofs.Disk.Listing
import SourceAtlas.Proofs.Disk.Normal

namespace SourceAtlas

namespace Path

/-- Two spellings of one place, for there are no links. -/
def SamePlace (first second : String) : Prop :=
  normalSegments first = normalSegments second

/-- An absolute path that is its own normal form. -/
structure IsNormal (path : String) : Prop where
  isAbsolute : isAbsolute path = true
  normalize : normalize path = path

theorem isNormal_rooted {slashes : Nat} (few : slashes = 1 ∨ slashes = 2) {names : List String}
    (all : ∀ s ∈ names, IsName s) : IsNormal (rooted slashes names) :=
  ⟨isAbsolute_rooted few names, normalize_rooted few all⟩

theorem IsNormal.eq_rooted {path : String} (normal : IsNormal path) :
    path = rooted (leadingSlashes path) (normalSegments path) := by
  rw [← normalize_of_isAbsolute normal.isAbsolute, normal.normalize]

theorem pathAbove_eq {names : List String} (some : names ≠ []) :
    pathAbove names = joinSegments names ++ "/" := by
  obtain ⟨start, last, rfl⟩ := List.eq_nil_or_concat' names |>.resolve_left some
  rw [← pathAbove_append_directory, pathAbove_append_name]

/-- The last character of joined names is one of the last name. -/
theorem exists_toList_joinSegments {names : List String} (some : names ≠ [])
    (all : ∀ s ∈ names, IsName s) :
    ∃ start c, (joinSegments names).toList = start ++ [c] ∧ c ≠ '/' := by
  obtain ⟨start, last, rfl⟩ := List.eq_nil_or_concat' names |>.resolve_left some
  have name := all last (List.mem_append_right _ (List.mem_singleton_self _))
  obtain ⟨front, c, chars⟩ := List.eq_nil_or_concat' last.toList |>.resolve_left
    (mt String.toList_eq_nil_iff.mp name.nonempty)
  refine ⟨(pathAbove start).toList ++ front, c, ?_, ?_⟩
  · rw [← pathAbove_append_name, String.toList_append, chars, List.append_assoc]
  · intro slash
    apply name.slashless
    rw [chars, slash]
    exact List.mem_append_right _ (List.mem_singleton_self _)

/-- The first character of joined names is one of the first name. -/
theorem exists_cons_toList_joinSegments {names : List String} (some : names ≠ [])
    (all : ∀ s ∈ names, IsName s) :
    ∃ c rest, (joinSegments names).toList = c :: rest ∧ c ≠ '/' := by
  obtain ⟨start, last, chars, -⟩ := exists_toList_joinSegments some all
  obtain ⟨c, rest, whole⟩ := List.exists_cons_of_ne_nil
    (show (joinSegments names).toList ≠ [] by rw [chars]; exact List.concat_ne_nil _ _)
  have relative := not_isAbsolute_joinSegments fun s listed =>
    ⟨(all s listed).nonempty, (all s listed).slashless⟩
  refine ⟨c, rest, whole, ?_⟩
  rintro rfl
  rw [isAbsolute_iff.mpr ⟨rest, whole⟩] at relative
  cases relative

theorem endsWith_slash_iff {path : String} :
    path.endsWith "/" = true ↔ ∃ start, path.toList = start ++ ['/'] := by
  rw [String.endsWith, String.Slice.endsWith_string_iff, String.copy_toSlice]
  exact ⟨fun ⟨start, whole⟩ => ⟨start, whole.symm⟩, fun ⟨start, whole⟩ => ⟨start, whole.symm⟩⟩

theorem endsWith_slash_rooted_nil {slashes : Nat} (few : slashes = 1 ∨ slashes = 2) :
    (rooted slashes []).endsWith "/" = true := by
  rw [endsWith_slash_iff, toList_rooted]
  rcases few with rfl | rfl
  · exact ⟨[], rfl⟩
  · exact ⟨['/'], rfl⟩

/-- Names seen from a rooted path stand behind its own names. -/
theorem join_rooted {slashes : Nat} (few : slashes = 1 ∨ slashes = 2) {names beneath : List String}
    (all : ∀ s ∈ names, IsName s) (more : beneath ≠ []) (inner : ∀ s ∈ beneath, IsName s) :
    join (rooted slashes names) (joinSegments beneath) = rooted slashes (names ++ beneath) := by
  have relative : isAbsolute (joinSegments beneath) = false :=
    not_isAbsolute_joinSegments fun s listed =>
      ⟨(inner s listed).nonempty, (inner s listed).slashless⟩
  rw [join, relative, if_neg Bool.false_ne_true]
  by_cases none : names = []
  · rw [none, endsWith_slash_rooted_nil few, Bool.or_true, if_pos rfl, List.nil_append, rooted,
      rooted, String.append_assoc]
    rfl
  · have nonempty : (rooted slashes names == "") = false :=
      beq_eq_false_iff_ne.mpr (rooted_ne_empty few names)
    have ends : (rooted slashes names).endsWith "/" = false := by
      rw [← Bool.not_eq_true, endsWith_slash_iff]
      rintro ⟨start, whole⟩
      obtain ⟨front, c, chars, other⟩ := exists_toList_joinSegments none all
      rw [toList_rooted, chars, ← List.append_assoc] at whole
      exact other (List.append_inj_right' whole rfl |> List.singleton_inj.mp)
    rw [nonempty, ends, Bool.or_false, if_neg Bool.false_ne_true, rooted, rooted,
      joinSegments_append names more, pathAbove_eq none]
    simp only [String.append_assoc]

/-- What is appended to the last name of a rooted path belongs to that name. -/
theorem rooted_concat_append (slashes : Nat) (start : List String) (last ending : String) :
    rooted slashes (start ++ [last]) ++ ending = rooted slashes (start ++ [last ++ ending]) := by
  rw [rooted, rooted, ← pathAbove_append_name, ← pathAbove_append_name]
  simp only [String.append_assoc]

theorem IsName.append {name : String} (isName : IsName name) {ending : String}
    (slashless : '/' ∉ ending.toList) : IsName (name ++ ending) := by
  obtain ⟨first, rest, chars⟩ := List.exists_cons_of_ne_nil
    (mt String.toList_eq_nil_iff.mp isName.nonempty)
  -- A name is neither empty nor made of dots only, up to two, so neither is anything longer.
  have start {text : String} (same : name ++ ending = text) :
      first :: (rest ++ ending.toList) = text.toList := by
    rw [← same, String.toList_append, chars, List.cons_append]
  refine ⟨fun same => ?_, fun same => ?_, fun same => ?_, ?_⟩
  · cases start same
  · have dot := start same
    have only : name = "." := by
      rw [← String.toList_inj, chars]
      simp_all
    exact isName.notHere only
  · have dots := start same
    rcases rest with _ | ⟨second, others⟩
    · exact isName.notHere (by
        rw [← String.toList_inj, chars]
        simp_all)
    · exact isName.notParent (by
        rw [← String.toList_inj, chars]
        simp_all)
  · rw [String.toList_append, List.mem_append, not_or]
    exact ⟨isName.slashless, slashless⟩

theorem splitLast_eq {path : String} {head name : List Char}
    (whole : path.toList = head ++ '/' :: name) (slashless : '/' ∉ name) :
    splitLast path = (head ++ ['/'], name) := by
  have reversed : path.toList.reverse = name.reverse ++ '/' :: head.reverse := by
    rw [whole]
    simp
  have last : path.toList.reverse.takeWhile (· != '/') = name.reverse := by
    rw [reversed, List.takeWhile_append_of_pos]
    · simp
    · intro c listed
      simpa using fun same : c = '/' => slashless (same ▸ List.mem_reverse.mp listed)
  have start : head ++ '/' :: name = (head ++ ['/']) ++ name := by simp
  rw [splitLast, last, List.reverse_reverse, ← String.length_toList, whole, start,
    List.length_append, Nat.add_sub_cancel, List.take_left]

theorem directory_rooted {slashes : Nat} (few : slashes = 1 ∨ slashes = 2) {names : List String}
    (all : ∀ s ∈ names, IsName s) :
    directory (rooted slashes names) = rooted slashes names.dropLast := by
  -- A path with at most one name has nothing but slashes before it.
  have shallow (name : String) (slashless : '/' ∉ name.toList)
      (single : joinSegments names = name) :
      directory (rooted slashes names) = rooted slashes [] := by
    have head : splitLast (rooted slashes names) = (List.replicate slashes '/', name.toList) := by
      have whole := toList_rooted slashes names
      rw [single] at whole
      rcases few with rfl | rfl
      · exact @splitLast_eq (rooted 1 names) [] name.toList whole slashless
      · exact @splitLast_eq (rooted 2 names) ['/'] name.toList whole slashless
    have only : (List.replicate slashes '/').all (· == '/') = true := by simp
    rw [directory, head]
    simp only [only, if_true]
    rw [rooted, joinSegments, String.intercalate_nil, String.append_empty]
  rcases List.eq_nil_or_concat' names with none | ⟨start, last, split⟩
  · rw [shallow "" (by simp) (by rw [none]; rfl), none, List.dropLast_nil]
  · have name := all last (by rw [split]; exact List.mem_append_right _ (List.mem_singleton_self _))
    by_cases single : start = []
    · rw [shallow last name.slashless (by rw [split, single]; exact String.intercalate_singleton),
        split, List.dropLast_concat, single]
    · have front : ∀ s ∈ start, IsName s := by
        intro s listed
        exact all s (by rw [split]; exact List.mem_append_left _ listed)
      obtain ⟨chars, c, ends, other⟩ := exists_toList_joinSegments single front
      have whole : (rooted slashes names).toList =
          (rooted slashes start).toList ++ '/' :: last.toList := by
        rw [split, toList_rooted, ← pathAbove_append_name, pathAbove_eq single, toList_rooted]
        simp
      have head := splitLast_eq whole name.slashless
      have more : (((rooted slashes start).toList ++ ['/']).all (· == '/')) = false := by
        rw [toList_rooted, ends]
        simp [other]
      rw [directory, head]
      simp only [more, Bool.false_eq_true, if_false]
      rw [split, List.dropLast_concat, List.reverse_append, List.reverse_singleton,
        List.singleton_append, List.dropWhile_cons_of_pos (by simp), toList_rooted, ends,
        ← List.append_assoc, List.reverse_append, List.reverse_singleton, List.singleton_append,
        List.dropWhile_cons_of_neg (by simpa using other)]
      rw [← List.singleton_append, ← List.reverse_singleton, ← List.reverse_append,
        List.reverse_reverse, List.append_assoc, ← ends, ← toList_rooted, String.ofList_toList]

/-- From a directory with a normal path, a relative specifier leads to a path with as many slashes
at its start. -/
theorem leadingSlashes_join_rooted {slashes : Nat} (few : slashes = 1 ∨ slashes = 2)
    {names : List String} (all : ∀ s ∈ names, IsName s) {rest : List Char} {specifier : String}
    (relative : specifier.toList = '.' :: rest) :
    leadingSlashes (join (rooted slashes names) specifier) = slashes := by
  have notAbsolute : isAbsolute specifier = false := by
    rw [← Bool.not_eq_true, isAbsolute_iff]
    rintro ⟨others, slash⟩
    rw [relative] at slash
    cases slash
  have begins {path : String} {c : Char} (below : List Char) (other : c ≠ '/')
      (whole : path.toList = List.replicate slashes '/' ++ c :: below) :
      leadingSlashes path = slashes :=
    leadingSlashes_of_toList few (fun _ slash => other (List.cons.inj slash).1) whole
  rw [join, notAbsolute, if_neg Bool.false_ne_true]
  by_cases none : names = []
  · rw [none, endsWith_slash_rooted_nil few, Bool.or_true, if_pos rfl]
    have dot : '.' ≠ '/' := by decide
    apply begins rest dot
    rw [String.toList_append, toList_rooted, relative, List.append_assoc]
    rfl
  · obtain ⟨c, below, joined, other⟩ := exists_cons_toList_joinSegments none all
    split
    · apply begins (below ++ specifier.toList) other
      rw [String.toList_append, toList_rooted, joined, List.append_assoc, List.cons_append]
    · apply begins (below ++ ("/".toList ++ specifier.toList)) other
      rw [String.toList_append, String.toList_append, toList_rooted, joined, List.append_assoc,
        List.append_assoc, List.cons_append]

/-- A relative specifier, seen from a normal path, leads to a rooted path. -/
theorem exists_rooted_normalize_join {importer specifier : String} (normal : IsNormal importer)
    (relative : specifier.startsWith "." = true) :
    ∃ names, (∀ s ∈ names, IsName s) ∧
      normalize (join (directory importer) specifier) =
        rooted (leadingSlashes importer) names := by
  have few := leadingSlashes_of_isAbsolute normal.isAbsolute
  have above := isName_normalSegments normal.isAbsolute
  have upper : directory importer =
      rooted (leadingSlashes importer) (normalSegments importer).dropLast := by
    conv_lhs => rw [normal.eq_rooted]
    exact directory_rooted few above
  have dropped : ∀ s ∈ (normalSegments importer).dropLast, IsName s := fun s listed =>
    above s (List.mem_of_mem_dropLast listed)
  obtain ⟨rest, dot⟩ : ∃ rest, specifier.toList = '.' :: rest := by
    obtain ⟨rest, whole⟩ := String.startsWith_string_iff.mp relative
    exact ⟨rest, whole.symm⟩
  rw [upper]
  have absolute := isAbsolute_join (isAbsolute_rooted few (normalSegments importer).dropLast)
    specifier
  refine ⟨_, isName_normalSegments absolute, ?_⟩
  rw [normalize_of_isAbsolute absolute, leadingSlashes_join_rooted few dropped dot]

end Path

namespace Disk

variable {disk : Disk}

theorem isNormal_absolutePath (rooted : Path.isAbsolute disk.workingDirectory = true)
    (path : String) : Path.IsNormal (disk.absolutePath path) := by
  have absolute : Path.isAbsolute
      (if Path.isAbsolute path then path else Path.join disk.workingDirectory path) = true := by
    split
    · assumption
    · exact Path.isAbsolute_join rooted path
  obtain ⟨isAbsolute, normalize⟩ := Path.normalize_normalize absolute
  exact ⟨isAbsolute, normalize⟩

theorem absolutePath_of_isNormal {path : String} (normal : Path.IsNormal path) :
    disk.absolutePath path = path := by
  rw [absolutePath, Path.absolute, if_pos normal.isAbsolute, normal.normalize]

/-! ## One place, one entry -/

theorem follow_concat_eq_ok_iff {trail next : List Entry} {segments : List String}
    {segment : String} :
    follow trail (segments ++ [segment]) = .ok next ↔
      ∃ middle, follow trail segments = .ok middle ∧ followSegment middle segment = .ok next := by
  rw [follow, List.foldlM_append]
  change (follow trail segments >>= _) = _ ↔ _
  cases followed : follow trail segments with
  | error fault =>
      constructor
      · intro absurd
        cases absurd
      · rintro ⟨middle, absurd, -⟩
        cases absurd
  | ok middle =>
      have last : (Except.ok middle >>= fun all => [segment].foldlM followSegment all) =
          followSegment middle segment := by
        change (followSegment middle segment >>= pure) = _
        exact bind_pure _
      rw [last]
      constructor
      · intro step
        exact ⟨middle, rfl, step⟩
      · rintro ⟨_, same, step⟩
        cases same
        exact step

/-- A name leads to an entry of the directory, and the trail grows by it. -/
theorem followSegment_name {trail next : List Entry} {name : String} (isName : Path.IsName name)
    (step : followSegment trail name = .ok next) : ∃ entry, next = entry :: trail := by
  cases trail with
  | nil => cases step
  | cons here above =>
      rw [followSegment, if_neg (by simp [isName.nonempty, isName.notHere]),
        if_neg (by simp [isName.notParent])] at step
      cases child : here.child? name with
      | error fault =>
          rw [child] at step
          cases step
      | ok entry =>
          rw [child] at step
          cases step
          exact ⟨entry, rfl⟩

/-- The names that lead to a trail, in reverse: one for each entry beneath the top. -/
structure LedBy (top : Entry) (done : List String) (trail : List Entry) : Prop where
  follow : follow [top] done.reverse = .ok trail
  length : trail.length = done.length + 1

/-- A segment does to the trail what it does to the names that lead there. -/
theorem LedBy.pushSegment {top : Entry} {done : List String} {trail next : List Entry}
    {segment : String} (led : LedBy top done trail) (names : ∀ s ∈ done, Path.IsName s)
    (slashless : '/' ∉ segment.toList) (step : followSegment trail segment = .ok next) :
    LedBy top (Path.pushSegment true done segment) next := by
  obtain ⟨followed, long⟩ := led
  unfold Path.pushSegment
  cases trail with
  | nil => cases step
  | cons here above =>
      have same {kept : List Entry}
          (stays : (if here.isDirectory then .ok kept else .error .notADirectory :
            Except DiskFault (List Entry)) = .ok next) : next = kept := by
        split at stays
        · exact (Except.ok.inj stays).symm
        · cases stays
      split
      · rename_i still
        rw [followSegment, if_pos still] at step
        rw [same step]
        exact ⟨followed, long⟩
      · rename_i moves
        split
        · rename_i back
          rw [followSegment, if_neg moves, if_pos back] at step
          rw [same step]
          cases done with
          | nil =>
              -- At the top there is nothing to leave.
              have alone : above = [] := List.eq_nil_of_length_eq_zero (by simpa using long)
              subst alone
              exact ⟨followed, rfl⟩
          | cons last rest =>
              have name := names last List.mem_cons_self
              rw [List.reverse_cons] at followed
              obtain ⟨shorter, sooner, onward⟩ := follow_concat_eq_ok_iff.mp followed
              obtain ⟨entry, grown⟩ := followSegment_name name onward
              cases grown
              rw [List.length_cons, List.length_cons] at long
              have more : above ≠ [] := List.ne_nil_of_length_pos (by omega)
              simp only [List.isEmpty_iff, more, beq_iff_eq, name.notParent, if_false]
              exact ⟨sooner, by omega⟩
        · rename_i onward
          have name : Path.IsName segment := by
            simp only [Bool.or_eq_true, beq_iff_eq, not_or] at moves onward
            exact ⟨moves.1, moves.2, onward, slashless⟩
          refine ⟨?_, ?_⟩
          · rw [List.reverse_cons]
            exact follow_concat_eq_ok_iff.mpr ⟨_, followed, step⟩
          · obtain ⟨entry, rfl⟩ := followSegment_name name step
            rw [List.length_cons, long, List.length_cons]

/-- Where segments lead, the normal ones among them lead as well. -/
theorem ledBy_of_follow {top : Entry} {segments : List String} {trail : List Entry}
    (slashless : ∀ s ∈ segments, '/' ∉ s.toList) (followed : follow [top] segments = .ok trail) :
    LedBy top (segments.foldl (Path.pushSegment true) []) trail := by
  induction segments using List.reverseRecOn generalizing trail with
  | nil =>
      cases followed
      exact ⟨rfl, rfl⟩
  | append_singleton segments segment ih =>
      obtain ⟨middle, before, step⟩ := follow_concat_eq_ok_iff.mp followed
      have front : ∀ s ∈ segments, '/' ∉ s.toList := fun s listed =>
        slashless s (List.mem_append_left _ listed)
      have names := Path.isName_foldl_pushSegment (fun _ none => absurd none List.not_mem_nil) front
      rw [List.foldl_append, List.foldl_cons, List.foldl_nil]
      exact (ih front before).pushSegment names
        (slashless segment (List.mem_append_right _ (List.mem_singleton_self _))) step

/-- Where an absolute path leads, its normal segments lead from the root. -/
theorem exists_follow_normalSegments {path : String} (absolute : Path.isAbsolute path = true)
    {entry : Entry} (found : disk.find path = .ok entry) :
    ∃ above, follow [disk.root] (Path.normalSegments path) = .ok (entry :: above) := by
  obtain ⟨-, above, followed⟩ := find_eq_ok_iff.mp found
  rw [fromRoot, if_pos absolute] at followed
  refine ⟨above, ?_⟩
  rw [Path.normalSegments, absolute]
  exact (ledBy_of_follow (fun s => Path.slashless_of_mem_rawSegments) followed).follow

/-- **Paths of one place lead to one entry.** -/
theorem find_eq_of_samePlace {first second : String} (absolute : Path.isAbsolute first = true)
    (alsoAbsolute : Path.isAbsolute second = true) (same : Path.SamePlace first second)
    {entry other : Entry} (found : disk.find first = .ok entry)
    (alsoFound : disk.find second = .ok other) : entry = other := by
  obtain ⟨above, here⟩ := exists_follow_normalSegments absolute found
  obtain ⟨others, there⟩ := exists_follow_normalSegments alsoAbsolute alsoFound
  rw [same, there] at here
  cases here
  rfl

theorem doesExist_of_isFile {path : String} (file : disk.isFile path = true) :
    disk.doesExist path = true := by
  rw [isFile] at file
  rw [doesExist]
  cases found : disk.find path with
  | error fault =>
      rw [found] at file
      cases file
  | ok entry => rfl

theorem doesExist_of_isDirectory {path : String} (directory : disk.isDirectory path = true) :
    disk.doesExist path = true := by
  rw [isDirectory] at directory
  rw [doesExist]
  cases found : disk.find path with
  | error fault =>
      rw [found] at directory
      cases directory
  | ok entry => rfl

theorem not_isDirectory_of_isFile {path : String} (file : disk.isFile path = true) :
    disk.isDirectory path = false := by
  rw [isFile] at file
  rw [isDirectory]
  cases found : disk.find path with
  | error fault => rfl
  | ok entry =>
      cases entry with
      | file bytes => rfl
      | directory entries =>
          rw [found] at file
          cases file

/-- Where anything stands at an absolute path, the root is a directory. -/
theorem doesExist_rooted_nil {path : String} (absolute : Path.isAbsolute path = true)
    (stands : disk.doesExist path = true) {slashes : Nat} (few : slashes = 1 ∨ slashes = 2) :
    disk.doesExist (Path.rooted slashes []) = true := by
  have root : disk.root.isDirectory = true := by
    rw [doesExist] at stands
    cases found : disk.find path with
    | error fault =>
        rw [found] at stands
        cases stands
    | ok entry =>
        obtain ⟨-, above, followed⟩ := find_eq_ok_iff.mp found
        obtain ⟨rest, whole⟩ := Path.isAbsolute_iff.mp absolute
        have raw := Path.rawSegments_slash (String.ofList rest)
          (by rw [whole, String.toList_ofList])
        rw [fromRoot, if_pos absolute, raw] at followed
        obtain ⟨middle, step, -⟩ := follow_cons_eq_ok_iff.mp followed
        rw [followSegment] at step
        by_contra file
        rw [Bool.not_eq_true] at file
        simp [file] at step
  have here : followSegment [disk.root] "" = .ok [disk.root] := by
    simp [followSegment, root]
  have found : disk.find (Path.rooted slashes []) = .ok disk.root := by
    refine find_eq_ok_iff.mpr ⟨Path.rooted_ne_empty few [], [], ?_⟩
    rw [fromRoot, if_pos (Path.isAbsolute_rooted few [])]
    rcases few with rfl | rfl
    · change follow [disk.root] ["", ""] = _
      simp [follow, here, bind, Except.bind, pure, Except.pure]
    · change follow [disk.root] ["", "", ""] = _
      simp [follow, here, bind, Except.bind, pure, Except.pure]
  rw [doesExist, found]
  rfl

/-! ## What a specifier leads to -/

theorem indexFile?_eq_some {directory path : String} {extensions : List String}
    (found : disk.indexFile? directory extensions = some path) :
    disk.isFile path = true ∧
      ∃ e ∈ extensionsOrDefault extensions, path = Path.join directory ("index" ++ e) := by
  rw [indexFile?] at found
  refine ⟨List.find?_some found, ?_⟩
  obtain ⟨e, listed, same⟩ := List.mem_map.mp (List.mem_of_find?_eq_some found)
  exact ⟨e, listed, same.symm⟩

/-- The three ways in which a specifier leads somewhere: to the index file of a directory, to what
stands there, or to a file with one of the extensions. -/
theorem resolve?_cases {extensions : List String} {importer specifier plain path : String}
    (leads : Path.normalize (Path.join (Path.directory importer) specifier) = plain)
    (resolved : disk.resolve? extensions importer specifier = some path) :
    (disk.isFile path = true ∧
        ∃ e ∈ extensionsOrDefault extensions, path = Path.join plain ("index" ++ e)) ∨
      (path = plain ∧ disk.doesExist plain = true ∧
        (disk.isDirectory plain = true → disk.indexFile? plain extensions = none)) ∨
      (disk.doesExist plain = false ∧ disk.isFile path = true ∧
        ∃ e ∈ extensionsOrDefault extensions, path = plain ++ e) := by
  simp only [resolve?, leads, Option.ite_none_right_eq_some] at resolved
  obtain ⟨-, resolved⟩ := resolved
  by_cases directory : disk.isDirectory plain = true
  · rw [if_pos directory] at resolved
    cases index : disk.indexFile? plain extensions with
    | some file =>
        obtain ⟨isFile, e, listed, same⟩ := indexFile?_eq_some index
        rw [index, Option.getD_some, if_pos (doesExist_of_isFile isFile)] at resolved
        cases resolved
        exact .inl ⟨isFile, e, listed, same⟩
    | none =>
        rw [index, Option.getD_none, if_pos (doesExist_of_isDirectory directory)] at resolved
        cases resolved
        exact .inr (.inl ⟨rfl, doesExist_of_isDirectory directory, fun _ => rfl⟩)
  · rw [if_neg directory] at resolved
    by_cases stands : disk.doesExist plain = true
    · rw [if_pos stands] at resolved
      cases resolved
      exact .inr (.inl ⟨rfl, stands, fun absurd => (directory absurd).elim⟩)
    · rw [if_neg stands] at resolved
      obtain ⟨e, listed, same⟩ := List.mem_map.mp (List.mem_of_find?_eq_some resolved)
      exact .inr (.inr ⟨Bool.not_eq_true _ ▸ stands, List.find?_some resolved, e, listed,
        same.symm⟩)

theorem doesExist_of_resolve? {extensions : List String} {importer specifier path : String}
    (resolved : disk.resolve? extensions importer specifier = some path) :
    disk.doesExist path = true := by
  rcases resolve?_cases rfl resolved with ⟨isFile, -⟩ | ⟨rfl, stands, -⟩ | ⟨-, isFile, -⟩
  · exact doesExist_of_isFile isFile
  · exact stands
  · exact doesExist_of_isFile isFile

theorem slashless_extensionsOrDefault {extensions : List String}
    (slashless : ∀ e ∈ extensions, '/' ∉ e.toList) :
    ∀ e ∈ extensionsOrDefault extensions, '/' ∉ e.toList := by
  rw [extensionsOrDefault]
  split
  · decide +kernel
  · exact slashless

/-- **A relative specifier leads to a normal path** with the slashes of the importing path at its
start. -/
theorem exists_rooted_of_resolve? {extensions : List String}
    (slashless : ∀ e ∈ extensions, '/' ∉ e.toList) {importer specifier path : String}
    (normal : Path.IsNormal importer) (relative : specifier.startsWith "." = true)
    (resolved : disk.resolve? extensions importer specifier = some path) :
    ∃ names, (∀ s ∈ names, Path.IsName s) ∧
      path = Path.rooted (Path.leadingSlashes importer) names := by
  obtain ⟨plain, names, leads⟩ := Path.exists_rooted_normalize_join normal relative
  have few := Path.leadingSlashes_of_isAbsolute normal.isAbsolute
  generalize Path.leadingSlashes importer = slashes at few leads
  rcases resolve?_cases leads resolved with
    ⟨-, e, listed, rfl⟩ | ⟨rfl, -, -⟩ | ⟨missing, isFile, e, listed, rfl⟩
  · -- An index file is one more name.
    have index : ∀ s ∈ ["index" ++ e], Path.IsName s :=
      List.forall_mem_singleton.mpr (Path.IsName.append (by decide +kernel)
        (slashless_extensionsOrDefault slashless e listed))
    refine ⟨plain ++ ["index" ++ e], List.forall_mem_append.mpr ⟨names, index⟩, ?_⟩
    have single : Path.joinSegments ["index" ++ e] = "index" ++ e := String.intercalate_singleton
    rw [← single]
    exact Path.join_rooted few names (List.cons_ne_nil _ _) index
  · exact ⟨plain, names, rfl⟩
  · -- An extension belongs to the last name. The root itself is never missing.
    rcases List.eq_nil_or_concat' plain with rfl | ⟨start, last, rfl⟩
    · have longer : Path.isAbsolute (Path.rooted slashes [] ++ e) = true := by
        obtain ⟨rest, whole⟩ := Path.isAbsolute_iff.mp (Path.isAbsolute_rooted few [])
        exact Path.isAbsolute_iff.mpr
          ⟨rest ++ e.toList, by rw [String.toList_append, whole, List.cons_append]⟩
      rw [doesExist_rooted_nil longer (doesExist_of_isFile isFile) few] at missing
      cases missing
    · obtain ⟨front, name⟩ := List.forall_mem_append.mp names
      have ended : Path.IsName (last ++ e) :=
        (List.forall_mem_singleton.mp name).append
          (slashless_extensionsOrDefault slashless e listed)
      exact ⟨start ++ [last ++ e],
        List.forall_mem_append.mpr ⟨front, List.forall_mem_singleton.mpr ended⟩,
        Path.rooted_concat_append slashes start last e⟩

theorem isNormal_of_resolve? {extensions : List String}
    (slashless : ∀ e ∈ extensions, '/' ∉ e.toList) {importer specifier path : String}
    (normal : Path.IsNormal importer) (relative : specifier.startsWith "." = true)
    (resolved : disk.resolve? extensions importer specifier = some path) : Path.IsNormal path := by
  obtain ⟨names, all, rfl⟩ := exists_rooted_of_resolve? slashless normal relative resolved
  exact Path.isNormal_rooted (Path.leadingSlashes_of_isAbsolute normal.isAbsolute) all

/-- A normal path that something resolved to leads to itself from anywhere. -/
theorem resolve?_self {extensions : List String} {importer specifier path : String}
    (normal : Path.IsNormal path)
    (resolved : disk.resolve? extensions importer specifier = some path) (other : String) :
    disk.resolve? extensions other path = some path := by
  have rooted : Graph.isRelativeSpecifier path = true := by
    rw [Graph.isRelativeSpecifier, show path.startsWith "/" = true from normal.isAbsolute,
      Bool.or_true]
  have leads : Path.normalize (Path.join (Path.directory other) path) = path := by
    rw [Path.join, if_pos normal.isAbsolute, normal.normalize]
  have stands : disk.doesExist path = true := doesExist_of_resolve? resolved
  simp only [resolve?, rooted, if_true, leads]
  by_cases directory : disk.isDirectory path = true
  · have noIndex : disk.indexFile? path extensions = none := by
      rcases resolve?_cases rfl resolved with ⟨isFile, -⟩ | ⟨rfl, -, none⟩ | ⟨-, isFile, -⟩
      · rw [not_isDirectory_of_isFile isFile] at directory
        cases directory
      · exact none directory
      · rw [not_isDirectory_of_isFile isFile] at directory
        cases directory
    rw [if_pos directory, noIndex, Option.getD_none, if_pos stands]
  · rw [if_neg directory, if_pos stands]

end Disk

end SourceAtlas
