/-
# Strict reports hold what they held

A place in a report is given by the numbers of the parts on the way down to it. A strict report has
the same places as the report it was made of. At each place stands what stood there, with the same
keys or as many items, unless it was an infinity or no number: then null stands there. A report that
is strict already stays as it is, and a strict report is written as plain JSON.
-/

import SourceAtlas.CommandLine.Run
import SourceAtlas.Proofs.Json.Writing

namespace SourceAtlas.Report

open Json (isSpellable isFinite_iff)

/-- What a value can be, apart from what is inside of it. -/
inductive Head where
  | null
  | bool (b : Bool)
  | number (n : Number)
  | text (s : String)
  | sequence (length : Nat)
  | record (keys : List String)

def head : Report → Head
  | .null => .null
  | .bool b => .bool b
  | .number n => .number n
  | .text s => .text s
  | .list items => .sequence items.length
  | .tuple items => .sequence items.length
  | .record members => .record (members.map Prod.fst)

/-- The values right inside of a value, in their order. -/
def parts : Report → List Report
  | .list items => items
  | .tuple items => items
  | .record members => members.map Prod.snd
  | .null => []
  | .bool _ => []
  | .number _ => []
  | .text _ => []

def at? (r : Report) : List Nat → Option Report
  | [] => some r
  | i :: rest => r.parts[i]?.bind fun part => part.at? rest

/-- What stands in a strict report for what stood in the report. -/
def Head.strict : Head → Head
  | .number (.float x) => if x.isNaN || x.isInf then .null else .number (.float x)
  | .number (.int n) => .number (.int n)
  | .null => .null
  | .bool b => .bool b
  | .text s => .text s
  | .sequence length => .sequence length
  | .record keys => .record keys

/-- Whether no double at any place is infinite or no number. -/
def IsStrict (r : Report) : Prop :=
  ∀ place x, r.at? place = some (.number (.float x)) → x.isNaN = false ∧ x.isInf = false

theorem strictItems_eq_map (items : List Report) : strictItems items = items.map strict := by
  induction items with
  | nil => rfl
  | cons item rest ih => rw [strictItems, ih, List.map_cons]

theorem strictMembers_eq_map (members : List (String × Report)) :
    strictMembers members = members.map fun m => (m.1, m.2.strict) := by
  induction members with
  | nil => rfl
  | cons m rest ih => rw [strictMembers, ih, List.map_cons]

theorem isSpellable_float (x : Float) : isSpellable (.float x) = !(x.isNaN || x.isInf) := by
  rw [isSpellable, Bool.eq_iff_iff, isFinite_iff]
  simp

theorem head_strict (r : Report) : r.strict.head = r.head.strict := by
  cases r with
  | null => rfl
  | bool b => rfl
  | number n =>
      cases n with
      | int n => rfl
      | float x =>
          rw [strict, head, Head.strict, isSpellable_float]
          cases x.isNaN || x.isInf <;> rfl
  | text s => rfl
  | list items => simp [strict, head, Head.strict, strictItems_eq_map]
  | tuple items => simp [strict, head, Head.strict, strictItems_eq_map]
  | record members => simp [strict, head, Head.strict, strictMembers_eq_map]

theorem parts_strict (r : Report) : r.strict.parts = r.parts.map strict := by
  cases r with
  | null => rfl
  | bool b => rfl
  | number n =>
      rw [strict]
      split <;> rfl
  | text s => rfl
  | list items => exact strictItems_eq_map items
  | tuple items => exact strictItems_eq_map items
  | record members => simp [strict, parts, strictMembers_eq_map]

/-- At each place of a strict report stands the strict form of what stood there. -/
theorem at?_strict (r : Report) (place : List Nat) :
    r.strict.at? place = (r.at? place).map strict := by
  induction place generalizing r with
  | nil => rfl
  | cons i rest ih =>
      rw [at?, at?, parts_strict, List.getElem?_map]
      cases r.parts[i]? with
      | none => rfl
      | some part => exact ih part

theorem isSpellable_of_strict_eq {r : Report} {n : Number} (stands : r.strict = .number n) :
    isSpellable n = true := by
  cases r with
  | number m =>
      rw [strict] at stands
      split at stands
      next spellable =>
        cases stands
        exact spellable
      next => cases stands
  | null => cases stands
  | bool b => cases stands
  | text s => cases stands
  | list items => cases stands
  | tuple items => cases stands
  | record members => cases stands

theorem isStrict_strict (r : Report) : r.strict.IsStrict := by
  intro place x stands
  rw [at?_strict, Option.map_eq_some_iff] at stands
  obtain ⟨before, -, stands⟩ := stands
  exact isFinite_iff.mp (isSpellable_of_strict_eq stands)

mutual

theorem strict_strict : (r : Report) → r.strict.strict = r.strict
  | .null => rfl
  | .bool _ => rfl
  | .number n => by
      by_cases spellable : isSpellable n = true <;> simp [strict, spellable]
  | .text _ => rfl
  | .list items => by rw [strict, strict, strictItems_strictItems items]
  | .tuple items => by rw [strict, strict, strictItems_strictItems items]
  | .record members => by rw [strict, strict, strictMembers_strictMembers members]

theorem strictItems_strictItems : (items : List Report) →
    strictItems (strictItems items) = strictItems items
  | [] => rfl
  | item :: rest => by
      rw [strictItems, strictItems, strict_strict item, strictItems_strictItems rest]

theorem strictMembers_strictMembers : (members : List (String × Report)) →
    strictMembers (strictMembers members) = strictMembers members
  | [] => rfl
  | (_, value) :: rest => by
      rw [strictMembers, strictMembers, strict_strict value, strictMembers_strictMembers rest]

end

mutual

/-- A strict report has no tuples, so nothing of it is lost in JSON. -/
theorem ofJson_toJson_strict : (r : Report) → ofJson r.strict.toJson = r.strict
  | .null => rfl
  | .bool _ => rfl
  | .number n => by
      rw [strict]
      split <;> rfl
  | .text _ => rfl
  | .list items => congrArg Report.list (ofJsonItems_toJsonItems items)
  | .tuple items => congrArg Report.list (ofJsonItems_toJsonItems items)
  | .record members => congrArg Report.record (ofJsonMembers_toJsonMembers members)

theorem ofJsonItems_toJsonItems : (items : List Report) →
    ofJsonItems (toJsonItems (strictItems items)) = strictItems items
  | [] => rfl
  | item :: rest => by
      rw [strictItems, toJsonItems, ofJsonItems, ofJson_toJson_strict item,
        ofJsonItems_toJsonItems rest]

theorem ofJsonMembers_toJsonMembers : (members : List (String × Report)) →
    ofJsonMembers (toJsonMembers (strictMembers members)) = strictMembers members
  | [] => rfl
  | (_, value) :: rest => by
      rw [strictMembers, toJsonMembers, ofJsonMembers, ofJson_toJson_strict value,
        ofJsonMembers_toJsonMembers rest]

end

mutual

theorem isSpellable_of_mem_numbers : (r : Report) →
    ∀ n ∈ r.strict.toJson.numbers, isSpellable n = true
  | .null => fun _ listed => absurd listed List.not_mem_nil
  | .bool _ => fun _ listed => absurd listed List.not_mem_nil
  | .number n => by
      rw [strict]
      split
      next spellable => exact List.forall_mem_singleton.mpr spellable
      next => exact fun _ listed => absurd listed List.not_mem_nil
  | .text _ => fun _ listed => absurd listed List.not_mem_nil
  | .list items => isSpellable_of_mem_itemNumbers items
  | .tuple items => isSpellable_of_mem_itemNumbers items
  | .record members => isSpellable_of_mem_memberNumbers members

theorem isSpellable_of_mem_itemNumbers : (items : List Report) →
    ∀ n ∈ Json.itemNumbers (toJsonItems (strictItems items)), isSpellable n = true
  | [] => fun _ listed => absurd listed List.not_mem_nil
  | item :: rest => List.forall_mem_append.mpr
      ⟨isSpellable_of_mem_numbers item, isSpellable_of_mem_itemNumbers rest⟩

theorem isSpellable_of_mem_memberNumbers : (members : List (String × Report)) →
    ∀ n ∈ Json.memberNumbers (toJsonMembers (strictMembers members)), isSpellable n = true
  | [] => fun _ listed => absurd listed List.not_mem_nil
  | (_, value) :: rest => List.forall_mem_append.mpr
      ⟨isSpellable_of_mem_numbers value, isSpellable_of_mem_memberNumbers rest⟩

end

open CommandLine

/-- Whether a text is plain JSON. -/
def IsPlainText (text : String) : Prop :=
  ∃ d : Json.Document, d.IsPlain ∧ d.text = text.toList

theorem isPlainText_reportText (r : Report) : IsPlainText (reportText r.strict.toJson) :=
  Json.exists_document_write Json.indented (isSpellable_of_mem_numbers r)

/-- Every report that is made is the strict form of a report. -/
theorem exists_strict_of_reportOf {graph : Graph.DependencyGraph} {percentile : Option Float}
    {report : Json} (made : reportOf graph percentile = .ok report) :
    ∃ source : Report, report = source.strict.toJson := by
  simp only [reportOf, bind, Except.bind] at made
  split at made
  next => cases made
  next scores scored =>
    split at made
    next => cases made
    next given =>
      split at made
      next => cases made
      next statistics => exact ⟨_, (Except.ok.inj made).symm⟩

/-- A strict report holds no infinite double and none that is no number. It has the same places with
the same keys as the report, and all else that stood there; made strict again it stays as it is. The
report on a graph is strict and written as plain JSON. -/
theorem strict_keeps_places (r : Report) :
    r.strict.IsStrict ∧
      (∀ place, (r.strict.at? place).map head = (r.at? place).map fun u => u.head.strict) ∧
      r.strict.strict = r.strict ∧
      IsPlainText (reportText r.strict.toJson) ∧
      ∀ graph percentile report, reportOf graph percentile = .ok report →
        (ofJson report).IsStrict ∧ IsPlainText (reportText report) := by
  refine ⟨isStrict_strict r, fun place => ?_, strict_strict r, isPlainText_reportText r, ?_⟩
  · rw [at?_strict, Option.map_map]
    exact congrArg (Option.map · _) (funext head_strict)
  · intro graph percentile report made
    obtain ⟨source, rfl⟩ := exists_strict_of_reportOf made
    rw [ofJson_toJson_strict]
    exact ⟨isStrict_strict source, isPlainText_reportText source⟩

/-- A report with an infinity in a tuple and with something that is no number behind it. -/
def tangled : Report :=
  .record [("scores", .list [.tuple [.text "a", .number (.float Binary64.infinity)],
    .number (.float Binary64.notANumber), .number (.int 3)])]

/-- A graph of one file without lines, whose scores are infinite. -/
def idleGraph : Graph.DependencyGraph :=
  { entries := [("/a.ts", .file { name := "a.ts", path := "/a.ts" })] }

theorem strict_keeps_places_tangled :
    tangled.at? [0, 0, 1] = some (.number (.float Binary64.infinity)) ∧
      tangled.strict.at? [0, 0, 1] = some .null ∧ tangled.strict.IsStrict ∧
      ∃ report, reportOf idleGraph (some 0.25) = .ok report ∧
        (ofJson report).IsStrict ∧ IsPlainText (reportText report) := by
  obtain ⟨strict, -, -, -, reports⟩ := strict_keeps_places tangled
  have finished : (reportOf idleGraph (some 0.25)).toOption.isSome = true := by decide +kernel
  cases made : reportOf idleGraph (some 0.25) with
  | error fault =>
      rw [made] at finished
      cases finished
  | ok report => exact ⟨rfl, rfl, strict, report, rfl, reports _ _ report made⟩

end SourceAtlas.Report
