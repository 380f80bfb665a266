/-
# The tables of a language are those of its rules

Tokens and phrases are found under the numbers that they are given, and the items of the tables are
the items of the productions of the language.
-/

import Mathlib.Data.List.Forall2
import SourceAtlas.Grammar.Tables
import SourceAtlas.Proofs.Grammar.States

namespace SourceAtlas.Grammar

open ItemTable (ItemAt)

section

variable {κ : Type} [BEq κ] [Hashable κ] [LawfulBEq κ]

/-- Elements are put in front of those that are there, each unless it is there already. -/
theorem exists_foldl_distinct (items done : List κ) (seen : Std.HashMap κ Unit)
    (same : ∀ a, seen.contains a = true ↔ a ∈ done) :
    ∃ new, (items.foldl (fun (state : List κ × Std.HashMap κ Unit) a =>
        if state.2.contains a then state else (a :: state.1, state.2.insert a ()))
        (done, seen)).1 = new ++ done ∧
      ∀ a, a ∈ new ++ done ↔ a ∈ items ∨ a ∈ done := by
  induction items generalizing done seen with
  | nil => exact ⟨[], rfl, fun a => by simp⟩
  | cons first rest ih =>
      rw [List.foldl_cons]
      dsimp only
      split
      · rename_i known
        obtain ⟨new, result, members⟩ := ih done seen same
        refine ⟨new, result, fun a => ?_⟩
        rw [members a, List.mem_cons]
        have := (same first).mp known
        grind
      · have after : ∀ a, (seen.insert first ()).contains a = true ↔ a ∈ first :: done := by
          intro a
          rw [Std.HashMap.contains_insert, Bool.or_eq_true, same a, List.mem_cons, beq_iff_eq,
            eq_comm]
        obtain ⟨new, result, members⟩ := ih (first :: done) (seen.insert first ()) after
        refine ⟨new ++ [first], by rw [result, List.append_assoc]; rfl, fun a => ?_⟩
        rw [List.append_assoc]
        exact (members a).trans (by grind)

theorem mem_distinct {items : List κ} {a : κ} : a ∈ distinct items ↔ a ∈ items := by
  obtain ⟨new, result, members⟩ := exists_foldl_distinct items [] ∅ (by simp)
  rw [distinct, List.mem_reverse, result, members a]
  simp

theorem head?_distinct (items : List κ) : (distinct items).head? = items.head? := by
  cases items with
  | nil => rfl
  | cons first rest =>
      obtain ⟨new, result, -⟩ := exists_foldl_distinct rest [first] (Std.HashMap.insert ∅ first ())
        fun a => by
          rw [Std.HashMap.contains_insert, List.mem_singleton, Std.HashMap.contains_empty,
            Bool.or_false, beq_iff_eq, eq_comm]
      have step : (List.foldl (fun (state : List κ × Std.HashMap κ Unit) a =>
          if state.2.contains a then state else (a :: state.1, state.2.insert a ()))
          ([], ∅) (first :: rest)).1 = new ++ [first] := by
        rw [List.foldl_cons, ← result]
        simp
      rw [distinct, step, List.head?_reverse, List.getLast?_concat, List.head?_cons]

/-- What is found under a key was listed with it. -/
theorem mem_of_getElem?_ofList {β : Type} {entries : List (κ × β)} {k : κ} {v : β}
    (found : (Std.HashMap.ofList entries)[k]? = some v) : (k, v) ∈ entries := by
  rw [Std.HashMap.ofList_eq_insertMany_empty, Std.HashMap.getElem?_insertMany_list,
    Std.HashMap.getElem?_empty, Option.or_none, List.findSomeRev?_eq_findSome?_reverse] at found
  obtain ⟨entry, listed, same⟩ := List.exists_of_findSome?_eq_some found
  rw [Option.ite_none_right_eq_some] at same
  obtain ⟨key, value⟩ := same
  cases value
  rw [← eq_of_beq key]
  exact List.mem_reverse.mp listed

theorem exists_getElem?_ofList {β : Type} {entries : List (κ × β)} {k : κ}
    (listed : k ∈ entries.map Prod.fst) : ∃ v, (Std.HashMap.ofList entries)[k]? = some v := by
  apply Option.isSome_iff_exists.mp
  rw [← Std.HashMap.mem_iff_isSome_getElem?, Std.HashMap.mem_ofList]
  exact List.contains_iff_mem.mpr listed

end

namespace Language

variable {language : Language} {rules : List (String × Plain)}

/-- A token is found under its number. -/
theorem getElem?_terminal {t : Terminal}
    (listed : t ∈ (language.numbering rules).terminals.toList) :
    (language.numbering rules).terminals[(language.numbering rules).terminal t]? = some t := by
  rw [numbering] at listed ⊢
  dsimp only at listed ⊢
  generalize @distinct Terminal _ _ _ = terminals at listed ⊢
  have keyed : t ∈ terminals.zipIdx.map Prod.fst := by
    rw [List.zipIdx_map_fst]
    exact listed
  obtain ⟨number, found⟩ := exists_getElem?_ofList keyed
  rw [Numbering.terminal, Std.HashMap.getD_eq_getD_getElem?, found, Option.getD_some,
    List.getElem?_toArray]
  exact List.mk_mem_zipIdx_iff_getElem?.mp (mem_of_getElem?_ofList found)

theorem terminal_of_notMem {t : Terminal}
    (absent : t ∉ (language.numbering rules).terminals.toList) :
    (language.numbering rules).terminal t = 0 := by
  rw [numbering] at absent ⊢
  dsimp only at absent
  rw [Numbering.terminal, Std.HashMap.getD_eq_getD_getElem?,
    Std.HashMap.getElem?_ofList_of_contains_eq_false, Option.getD_none]
  rw [List.zipIdx_map_fst, List.contains_eq_mem]
  exact decide_eq_false absent

/-- A phrase is found under its number, behind the tokens. -/
theorem getElem?_phrase {name : String} (listed : name ∈ rules.map Prod.fst) :
    (language.numbering rules).terminals.size ≤ (language.numbering rules).phrase name ∧
      (rules.map Prod.fst)[(language.numbering rules).phrase name -
        (language.numbering rules).terminals.size]? = some name := by
  rw [numbering]
  dsimp only
  generalize @distinct Terminal _ _ _ = terminals
  have keyed : name ∈ ((rules.map Prod.fst).zipIdx terminals.length).map Prod.fst := by
    rw [List.zipIdx_map_fst]
    exact listed
  obtain ⟨number, found⟩ := exists_getElem?_ofList keyed
  rw [Numbering.phrase, Std.HashMap.getD_eq_getD_getElem?, found, Option.getD_some,
    List.size_toArray]
  exact List.mem_zipIdx_iff_le_and_getElem?_sub.mp (mem_of_getElem?_ofList found)

/-- The tokens of a language are those of its rules, those that may stand anywhere, and the end of
the text. -/
theorem mem_terminals {t : Terminal} :
    t ∈ (language.numbering rules).terminals.toList ↔
      (∃ rule ∈ rules, t ∈ rule.2.terminals) ∨ t ∈ language.extras ∨ t = .endOfText := by
  rw [numbering]
  dsimp only
  rw [mem_distinct, List.mem_append, List.mem_append, List.mem_flatMap,
    List.mem_singleton, or_assoc]

theorem getElem?_terminals_zero :
    (language.numbering rules).terminals[0]? =
      ((rules.flatMap fun rule : String × Plain => rule.2.terminals) ++ language.extras ++
        [Terminal.endOfText]).head? := by
  rw [numbering]
  dsimp only
  rw [List.getElem?_toArray, ← List.head?_eq_getElem?, head?_distinct]

variable (language)

def productions : List Production :=
  productionsOf (language.numbering language.plainRules).terminals.size
    (language.phrases language.plainRules (language.numbering language.plainRules))

/-- The first items of all productions, with the table of all items. -/
def gathered : List Nat × ItemTable :=
  (language.productions.zipIdx.mapM fun p => ItemTable.addProduction p.1 p.2).run {}

theorem tables_numbering :
    language.tables.numbering = language.numbering language.plainRules := by
  rw [tables]
  generalize StateT.run _ _ = gathered
  rfl

theorem tables_phrases : language.tables.phrases =
    language.phrases language.plainRules (language.numbering language.plainRules) := by
  rw [tables]
  generalize StateT.run _ _ = gathered
  rfl

theorem tables_productions : language.tables.productions.toList = language.productions := by
  rw [tables]
  generalize StateT.run _ _ = gathered
  rfl

theorem tables_whole : language.tables.whole =
    language.tables.numbering.terminals.size + language.tables.phrases.size := by
  rw [tables]
  generalize StateT.run _ _ = gathered
  rfl

theorem tables_items : language.tables.items = language.gathered.2.items := by
  rw [tables, gathered, productions]
  generalize StateT.run _ _ = gathered
  rfl

theorem tables_start : language.tables.start = language.gathered.1.take 2 := by
  rw [tables, gathered, productions]
  generalize StateT.run _ _ = gathered
  rfl

theorem tables_begins : ∃ offset count, language.tables.begins =
    beginsOf offset count language.gathered.2.items
      ((language.productions.zip language.gathered.1).drop 2) := by
  rw [tables, gathered, productions]
  generalize StateT.run _ _ = gathered
  exact ⟨_, _, rfl⟩

/-- What begins with a symbol is a production whose first step reads it. -/
theorem of_mem_beginsOf {offset count : Nat} {items : Array Item} {starts : List (Production × Nat)}
    {symbol : Nat} {b : Nat × Nat}
    (listed : b ∈ (beginsOf offset count items starts).getD symbol []) :
    ∃ p ∈ starts, ∃ step rest, p.1.steps = step :: rest ∧ step.symbol = symbol ∧
      (items.getD p.2 default).advanced = b.2 := by
  let Right (begins : Array (List (Nat × Nat))) : Prop :=
    ∀ symbol, ∀ b ∈ begins.getD symbol [], ∃ p ∈ starts, ∃ step rest, p.1.steps = step :: rest ∧
      step.symbol = symbol ∧ (items.getD p.2 default).advanced = b.2
  suffices Right (beginsOf offset count items starts) from this symbol b listed
  rw [beginsOf]
  apply List.foldlRecOn (motive := Right)
  · intro symbol b none
    rw [Array.getD_eq_getD_getElem?, Array.getElem?_replicate] at none
    split at none <;> cases none
  · intro begins before p own symbol b listed
    split at listed
    · exact before symbol b listed
    · rename_i step rest steps
      rw [Array.getD_eq_getD_getElem?, Array.getElem?_modify] at listed
      split at listed
      · rename_i same
        cases known : begins[symbol]? with
        | none =>
            rw [known] at listed
            cases listed
        | some others =>
            rw [known] at listed
            rcases List.mem_cons.mp listed with rfl | old
            · exact ⟨p, own, step, rest, steps, same, rfl⟩
            · apply before symbol b
              rw [Array.getD_eq_getD_getElem?, known]
              exact old
      · apply before symbol b
        rw [Array.getD_eq_getD_getElem?]
        exact listed

/-- Only the productions of a whole text may read nothing. -/
theorem steps_ne_nil_of_mem_productionsOf {offset : Nat} {phrases : Array PhraseInfo}
    {p : Production} (listed : p ∈ productionsOf offset phrases)
    (part : p.head ≠ offset + phrases.size) : p.steps ≠ [] := by
  rw [productionsOf, List.mem_append] at listed
  rcases listed with whole | others
  · exfalso
    apply part
    simp only [List.mem_cons, List.not_mem_nil, or_false] at whole
    rcases whole with rfl | rfl <;> rfl
  · obtain ⟨phrase, -, among⟩ := List.mem_flatMap.mp others
    obtain ⟨s, kept, rfl⟩ := List.mem_map.mp among
    have filled := (List.mem_filter.mp kept).2
    intro none
    rw [show s.steps = [] from none] at filled
    cases filled

/-- The items of the tables are those of the productions. -/
theorem itemsFrom_tables : language.tables.ItemsFrom language.gathered.2 := by
  have listed : ∀ p ∈ language.productions.zipIdx, language.productions[p.2]? = some p.1 :=
    fun p among => List.mem_zipIdx_iff_getElem?.mp among
  obtain ⟨valid, -, firsts⟩ := ItemTable.gathers_addProductions listed
    (ItemTable.valid_empty language.productions)
  rw [← gathered] at valid firsts
  rw [← List.forall₂_map_left_iff (f := Prod.fst)
    (R := fun p id => ItemAt language.gathered.2 p [] p.steps id), List.zipIdx_map_fst,
    List.forall₂_iff_zip] at firsts
  obtain ⟨lengths, first⟩ := firsts
  refine ⟨?_, language.tables_items, ?_, ?_, ?_⟩
  · rw [tables_productions]
    exact valid
  · intro symbol b begun
    obtain ⟨offset, count, begins⟩ := language.tables_begins
    rw [begins] at begun
    obtain ⟨p, own, step, rest, steps, same, advanced⟩ := of_mem_beginsOf begun
    have paired := List.mem_of_mem_drop own
    have itemAt := first paired
    rw [steps] at itemAt
    obtain ⟨item, -, stored, -⟩ := valid.exists_item itemAt
    refine ⟨p.1, ?_, step, rest, steps, same, ?_⟩
    · rw [tables_productions]
      exact (List.of_mem_zip paired).1
    · rw [Array.getD_eq_getD_getElem?, stored, Option.getD_some] at advanced
      rw [← advanced]
      exact valid.advanced itemAt stored
  · intro id among
    rw [tables_start, ← List.map_snd_zip (Nat.le_of_eq lengths.symm)] at among
    obtain ⟨pair, paired, rfl⟩ := List.mem_map.mp (List.mem_of_mem_take among)
    refine ⟨pair.1, ?_, first paired⟩
    rw [tables_productions]
    exact (List.of_mem_zip paired).1
  · rw [tables_productions, tables_whole, tables_numbering, tables_phrases]
    intro p among part
    exact steps_ne_nil_of_mem_productionsOf among part

end Language

end SourceAtlas.Grammar
