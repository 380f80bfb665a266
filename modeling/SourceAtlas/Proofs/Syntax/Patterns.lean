/-
# Array patterns position by position

An array pattern is a row of positions, each with an element or with a hole. Its children are the
row between two brackets, with one comma between each two positions and with comments anywhere. They
are read from left to right, and the last position found so far stays open: a comma opens the next
one, an element fills the open one, and brackets and comments change nothing.

So a row is read back as it was written, whether its holes stand at its start, inside it or at its
end. A declarator that takes the result of `useState` apart binds the identifiers at the first two
positions.
-/

import SourceAtlas.Proofs.Syntax.Details

namespace SourceAtlas.Syntax

variable {α : Type}

/-- What can fill a position: anything but a comma, a bracket or a comment. -/
def Tree.IsElement (t : Tree α) : Prop := t.kind ∉ [",", "[", "]", "comment"]

/-- The nodes of a row: each position gives its element, or nothing if it is a hole, and one comma
stands between each two positions. -/
inductive Row : List (Option (Tree α)) → List (Tree α) → Prop where
  | last (position : Option (Tree α)) : Row [position] position.toList
  | next (position : Option (Tree α)) (comma : Tree α) (parts : comma.kind = ",")
      {positions : List (Option (Tree α))} {nodes : List (Tree α)} (row : Row positions nodes) :
      Row (position :: positions) (position.toList ++ comma :: nodes)

/-- The children of an array pattern write a row: without the comments, they are a bracket, the
nodes of the row and a bracket. -/
def Writes (positions : List (Option (Tree α))) (children : List (Tree α)) : Prop :=
  ∃ opening nodes closing, opening.kind = "[" ∧ closing.kind = "]" ∧ Row positions nodes ∧
    (children.filter fun c => c.kind ≠ "comment") = opening :: nodes ++ [closing]

/-- An identifier stands at a position of a row. -/
def IdentifierAt (positions : List (Option (Tree α))) (position : Nat) (element : Tree α) : Prop :=
  positions[position]? = some (some element) ∧ element.kind = "identifier"

section Child

variable {c : Tree α} (found : List (Option (Tree α)))

theorem addPatternChild_comma (parts : c.kind = ",") : addPatternChild found c = none :: found := by
  simp [addPatternChild, parts]

theorem addPatternChild_mark (mark : c.kind ∈ ["[", "]", "comment"]) :
    addPatternChild found c = found := by
  simp only [List.mem_cons, List.not_mem_nil, or_false] at mark
  rcases mark with kind | kind | kind <;> simp [addPatternChild, kind]

theorem addPatternChild_element (element : c.IsElement) (held : Option (Tree α)) :
    addPatternChild (held :: found) c = some c :: found := by
  simp only [Tree.IsElement, List.mem_cons, List.not_mem_nil, or_false, not_or] at element
  simp [addPatternChild, element]

end Child

/-- Comments can be left out beforehand. -/
theorem foldl_addPatternChild_filter (children : List (Tree α)) (found : List (Option (Tree α))) :
    (children.filter fun c => c.kind ≠ "comment").foldl addPatternChild found =
      children.foldl addPatternChild found := by
  induction children generalizing found with
  | nil => rfl
  | cons c rest ih =>
      by_cases comment : c.kind = "comment"
      · rw [List.filter_cons_of_neg (by simp [comment]), ih, List.foldl_cons,
          addPatternChild_mark found (by simp [comment])]
      · rw [List.filter_cons_of_pos (by simp [comment]), List.foldl_cons, List.foldl_cons, ih]

/-- An open position takes what is written for it. -/
theorem foldl_addPatternChild_position {position : Option (Tree α)}
    (fills : ∀ t ∈ position, t.IsElement) (found : List (Option (Tree α))) :
    position.toList.foldl addPatternChild (none :: found) = position :: found := by
  cases position with
  | none => rfl
  | some t => exact addPatternChild_element found (fills t rfl) none

/-- The nodes of a row add its positions to those found before it. -/
theorem Row.foldl_addPatternChild {positions : List (Option (Tree α))} {nodes : List (Tree α)}
    (row : Row positions nodes) (elements : ∀ t, some t ∈ positions → t.IsElement)
    (found : List (Option (Tree α))) :
    nodes.foldl addPatternChild (none :: found) = positions.reverse ++ found := by
  induction row generalizing found with
  | last position =>
      refine foldl_addPatternChild_position ?_ found
      rintro t rfl
      exact elements t List.mem_cons_self
  | @next position comma parts positions nodes _ ih =>
      have first : ∀ t ∈ position, t.IsElement := by
        rintro t rfl
        exact elements t List.mem_cons_self
      have others : ∀ t, some t ∈ positions → t.IsElement :=
        fun t listed => elements t (List.mem_cons_of_mem _ listed)
      calc
        (position.toList ++ comma :: nodes).foldl addPatternChild (none :: found) =
            nodes.foldl addPatternChild (addPatternChild (position :: found) comma) := by
          rw [List.foldl_append, List.foldl_cons, foldl_addPatternChild_position first]
        _ = nodes.foldl addPatternChild (none :: position :: found) := by
          rw [addPatternChild_comma _ parts]
        _ = positions.reverse ++ position :: found := ih others (position :: found)
        _ = (position :: positions).reverse ++ found := by
          rw [List.reverse_cons, List.append_assoc, List.singleton_append]

/-- **A row is read back as it was written.** -/
theorem Writes.patternElements_eq {positions : List (Option (Tree α))} {pattern : Tree α}
    (written : Writes positions pattern.children)
    (elements : ∀ t, some t ∈ positions → t.IsElement) : patternElements pattern = positions := by
  obtain ⟨opening, nodes, closing, opens, closes, row, bare⟩ := written
  rw [patternElements, ← foldl_addPatternChild_filter, bare, List.cons_append, List.foldl_cons,
    List.foldl_append, addPatternChild_mark _ (by simp [opens]), row.foldl_addPatternChild elements,
    List.foldl_cons, List.foldl_nil, addPatternChild_mark _ (by simp [closes]), List.append_nil,
    List.reverse_reverse]

theorem standsAt_iff_getElem? {pattern element : Tree α} {position : Nat} :
    StandsAt pattern position element ↔
      (patternElements pattern)[position]? = some (some element) := by
  rw [patternElements_eq_map, List.getElem?_map, Option.map_eq_some_iff, StandsAt]

theorem ifLegible_eq_ok_iff {β : Type} {texts : List (Tree α)} {answer : β} :
    ifLegible texts answer = .ok answer ↔ ∀ t ∈ texts, t.info.fault = none := by
  rw [← List.findSome?_eq_none_iff, ifLegible, firstFault?]
  cases texts.findSome? fun t => t.info.fault <;> simp

/-- The first two positions are read where there are identifiers. -/
theorem mem_identifiers_iff {positions : List (Option (Tree α))} {element : Tree α} :
    element ∈ ((positions.take 2).filterMap id).filter (fun t => t.kind == "identifier") ↔
      IdentifierAt positions 0 element ∨ IdentifierAt positions 1 element := by
  have listed : some element ∈ positions.take 2 ↔
      positions[0]? = some (some element) ∨ positions[1]? = some (some element) := by
    rcases positions with _ | ⟨first, _ | ⟨second, rest⟩⟩ <;> simp [eq_comm (a := some element)]
  rw [List.mem_filter, List.mem_filterMap, IdentifierAt, IdentifierAt, ← or_and_right, ← listed,
    beq_iff_eq]
  simp

/-- The bindings of a state are told by the texts of the callee and of the identifiers at the first
two positions. -/
theorem TakesState.mem_stateTexts_iff {declarator pattern t : Tree α}
    (takes : TakesState declarator pattern) :
    t ∈ stateTexts declarator ↔
      (declarator.child? "value").bind (Tree.child? "function") = some t ∨
        IdentifierAt (patternElements pattern) 0 t ∨
        IdentifierAt (patternElements pattern) 1 t := by
  obtain ⟨value, callee, given, call, calls, plain, state⟩ := takes.calls
  have texts : stateTexts declarator =
      callee :: (((patternElements pattern).take 2).filterMap id).filter
        (fun t => t.kind == "identifier") := by
    simp [stateTexts, given, takes.binds, call, takes.kind, calls, plain, state]
  rw [texts, List.mem_cons, mem_identifiers_iff, given, Option.bind_some, calls, Option.some.injEq,
    eq_comm]

/-- **A row of positions is read back as it was written**, with its holes and whatever comments
stand between its nodes. A declarator that takes the result of `useState` apart with it binds the
text of the identifier at the first position as the state and of the one at the second position as
its setter, and nothing where there is no identifier. Both can be told as long as the texts of these
identifiers and of the callee can be read. -/
theorem stateBindings_of_writes {positions : List (Option (Tree α))} {pattern : Tree α}
    (elements : ∀ t, some t ∈ positions → t.IsElement)
    (written : Writes positions pattern.children) :
    patternElements pattern = positions ∧
      ∀ declarator, TakesState declarator pattern →
        (∀ name, (stateBindings declarator).1 = some name ↔
          ∃ element, IdentifierAt positions 0 element ∧ element.text = name) ∧
        (∀ name, (stateBindings declarator).2 = some name ↔
          ∃ element, IdentifierAt positions 1 element ∧ element.text = name) ∧
        (ifLegible (stateTexts declarator) (stateBindings declarator) =
            .ok (stateBindings declarator) ↔
          ∀ t, (declarator.child? "value").bind (Tree.child? "function") = some t ∨
              IdentifierAt positions 0 t ∨ IdentifierAt positions 1 t →
            t.info.fault = none) := by
  have read := written.patternElements_eq elements
  refine ⟨read, fun declarator takes => ?_⟩
  have bound (position : Nat) (name : String) :
      boundName? pattern position = some name ↔
        ∃ element, IdentifierAt positions position element ∧ element.text = name := by
    simp only [boundName?_eq_some_iff, standsAt_iff_getElem?, read, IdentifierAt, and_assoc]
  rw [ifLegible_eq_ok_iff, takes.stateBindings_eq]
  refine ⟨bound 0, bound 1, ?_⟩
  simp only [takes.mem_stateTexts_iff, read]

/-- The pattern `[/* off */, setOpen /* on */,]` on the left of a state declarator. -/
def paddedSetter : Tree Unit :=
  written (some "name") "array_pattern" "[/* off */, setOpen /* on */,]"
    [written none "[" "[" [], written none "comment" "/* off */" [], written none "," "," [],
      written none "identifier" "setOpen" [], written none "comment" "/* on */" [],
      written none "," "," [], written none "]" "]" []]

def openDeclarator : Tree Unit :=
  written none "variable_declarator" "[/* off */, setOpen /* on */,] = useState()"
    [paddedSetter,
      written (some "value") "call_expression" "useState()"
        [written (some "function") "identifier" "useState" []]]

/-- Between two holes the setter stays at the second position. -/
theorem stateBindings_of_writes_paddedSetter :
    Writes [none, some (written none "identifier" "setOpen" []), none] paddedSetter.children ∧
      TakesState openDeclarator paddedSetter ∧
      patternElements paddedSetter = [none, some (written none "identifier" "setOpen" []), none] ∧
      ifLegible (stateTexts openDeclarator) (stateBindings openDeclarator) =
        .ok (none, some "setOpen") := by
  have writes : Writes [none, some (written none "identifier" "setOpen" []), none]
      paddedSetter.children :=
    ⟨written none "[" "[" [], _, written none "]" "]" [], rfl, rfl,
      .next none (written none "," "," []) rfl
        (.next (some (written none "identifier" "setOpen" [])) (written none "," "," []) rfl
          (.last none)), rfl⟩
  have takes : TakesState openDeclarator paddedSetter :=
    ⟨rfl, rfl, _, _, rfl, rfl, rfl, rfl, rfl⟩
  have elements : ∀ t, some t ∈ [none, some (written none "identifier" "setOpen" []), none] →
      t.IsElement := by
    intro t listed
    obtain rfl : t = written none "identifier" "setOpen" [] := by simpa using listed
    show "identifier" ∉ [",", "[", "]", "comment"]
    decide
  obtain ⟨read, bound⟩ := stateBindings_of_writes elements writes
  obtain ⟨state, setter, told⟩ := bound openDeclarator takes
  have noState : (stateBindings openDeclarator).1 = none := by
    rw [Option.eq_none_iff_forall_ne_some]
    intro name bound
    obtain ⟨element, ⟨there, -⟩, -⟩ := (state name).mp bound
    cases there
  have onlySetter : (stateBindings openDeclarator).2 = some "setOpen" :=
    (setter "setOpen").mpr ⟨_, ⟨rfl, rfl⟩, rfl⟩
  have answered := told.mpr <| by
    rintro t (callee | ⟨there, -⟩ | ⟨there, -⟩)
    · cases callee
      rfl
    · cases there
    · cases there
      rfl
  exact ⟨writes, takes, read, answered.trans (congrArg _ (Prod.ext noState onlySetter))⟩

end SourceAtlas.Syntax
