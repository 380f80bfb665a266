/-
# The payload tells options apart

The text whose digest is taken holds five fields one after the other, each with its key. Where a
field ends can be seen from its characters, so the text determines the fields. How much a scan
reports and how many files it looks at at once are not in it.
-/

import Mathlib.Data.List.Basic
import SourceAtlas.Proofs.Json.Quoting
import SourceAtlas.Settings.Options

namespace SourceAtlas

namespace Json

/-- Whether it can be seen from its characters where a value ends and which it is. -/
def EndsItself {α : Type} (text : α → List Char) : Prop :=
  ∀ ⦃a b rest rest'⦄, text a ++ rest = text b ++ rest' → a = b ∧ rest = rest'

def textsText (items : List String) : List Char :=
  '[' :: (List.intercalate [',', ' '] (items.map (quote true)) ++ [']'])

def optionalTextText : Option String → List Char
  | none => ['n', 'u', 'l', 'l']
  | some s => quote true s

theorem render_texts (depth : Nat) (items : List String) :
    render canonical depth (.texts items) = textsText items := by
  have each : ∀ depth, renderItems canonical depth (items.map .text) = items.map (quote true) := by
    intro depth
    induction items with
    | nil => rfl
    | cons s rest ih =>
        show quote true s :: renderItems canonical depth (rest.map .text) = _
        rw [ih, List.map_cons]
  show canonical.enclose depth '[' ']' (renderItems canonical (depth + 1) (items.map .text)) = _
  rw [each]
  cases items <;> simp [Layout.enclose, Layout.breakAt, Layout.separator, canonical, textsText]

/-- An object is written with its members in the order of their keys. -/
theorem render_object (depth : Nat) (members : List (String × Json)) :
    render canonical depth (.object members) = canonical.enclose depth '\x7b' '\x7d'
      ((sortMembers (members.map fun m => (m.1, render canonical (depth + 1) m.2))).map
        fun m => quote true m.1 ++ ':' :: ' ' :: m.2) := by
  have each : ∀ depth, renderMembers canonical depth members =
      members.map fun m => (m.1, render canonical depth m.2) := by
    intro depth
    induction members with
    | nil => rfl
    | cons m rest ih =>
        show (m.1, render canonical depth m.2) :: renderMembers canonical depth rest = _
        rw [ih, List.map_cons]
  rw [← each]
  rfl

theorem render_optionalText (depth : Nat) (s : Option String) :
    render canonical depth (.optionalText s) = optionalTextText s := by
  cases s <;> rfl

theorem endsItself_optionalTextText : EndsItself optionalTextText := by
  rintro (_ | s) (_ | t) rest rest' same
  · exact ⟨rfl, List.append_cancel_left same⟩
  · exact absurd (List.cons.inj same).1 (by decide)
  · exact absurd (List.cons.inj same).1 (by decide)
  · obtain ⟨rfl, after⟩ := quote_append_inj same
    exact ⟨rfl, after⟩

/-- The texts behind the first one in brackets. -/
def laterTextsText (items : List String) : List Char :=
  items.flatMap (fun s => ',' :: ' ' :: quote true s) ++ [']']

theorem textsText_cons (s : String) (items : List String) :
    textsText (s :: items) = '[' :: (quote true s ++ laterTextsText items) := by
  have joined : ∀ s, List.intercalate [',', ' '] (quote true s :: items.map (quote true)) =
      quote true s ++ items.flatMap fun s => ',' :: ' ' :: quote true s := by
    induction items with
    | nil => simp
    | cons t items ih => simp [ih]
  rw [textsText, List.map_cons, joined, laterTextsText, List.append_assoc]

theorem endsItself_laterTextsText : EndsItself laterTextsText := by
  intro items
  induction items with
  | nil =>
      rintro (_ | ⟨t, items'⟩) rest rest' same
      · exact ⟨rfl, List.append_cancel_left same⟩
      · simp [laterTextsText] at same
  | cons s items ih =>
      rintro (_ | ⟨t, items'⟩) rest rest' same
      · simp [laterTextsText] at same
      · have inside : quote true s ++ (laterTextsText items ++ rest) =
            quote true t ++ (laterTextsText items' ++ rest') := by
          simpa [laterTextsText] using same
        obtain ⟨rfl, later⟩ := quote_append_inj inside
        obtain ⟨rfl, after⟩ := ih later
        exact ⟨rfl, after⟩

theorem endsItself_textsText : EndsItself textsText := by
  rintro (_ | ⟨s, items⟩) (_ | ⟨t, items'⟩) rest rest' same
  · exact ⟨rfl, List.append_cancel_left same⟩
  · rw [textsText_cons] at same
    simp [textsText, quote] at same
  · rw [textsText_cons] at same
    simp [textsText, quote] at same
  · rw [textsText_cons, textsText_cons, List.cons_append, List.cons_append, List.cons.injEq,
      List.append_assoc, List.append_assoc] at same
    obtain ⟨rfl, later⟩ := quote_append_inj same.2
    obtain ⟨rfl, after⟩ := endsItself_laterTextsText later
    exact ⟨rfl, after⟩

end Json

namespace Settings

open Json

def fieldText (key : String) (value : List Char) : List Char :=
  quote true key ++ ':' :: ' ' :: value

theorem sortMembers_fields {α : Type} (a b c d e : α) :
    sortMembers [("file_patterns", a), ("ignore_patterns", b), ("internal_packages", c),
      ("internal_package_prefix", d), ("possible_extensions", e)] =
    [("file_patterns", a), ("ignore_patterns", b), ("internal_package_prefix", d),
      ("internal_packages", c), ("possible_extensions", e)] := by
  simp only [sortMembers, List.mergeSort, List.MergeSort.Internal.splitInTwo_fst,
    List.MergeSort.Internal.splitInTwo_snd, List.length_cons, List.length_nil, Nat.reduceAdd,
    Nat.reduceDiv, List.take_succ_cons, List.take_zero, List.drop_succ_cons, List.drop_zero,
    List.mergeSort_singleton, List.cons_merge_cons_pos, List.cons_merge_cons_neg, List.nil_merge,
    String.reduceLT, decide_true, decide_false, Bool.not_true, Bool.not_false,
    Bool.false_eq_true, not_false_eq_true]

theorem toList_payload (o : Options) :
    o.payload.toList =
      '\x7b' :: (fieldText "file_patterns" (textsText o.filePatterns) ++
        ',' :: ' ' :: (fieldText "ignore_patterns" (textsText o.ignorePatterns) ++
          ',' :: ' ' :: (fieldText "internal_package_prefix" (optionalTextText o.internalPrefix) ++
            ',' :: ' ' :: (fieldText "internal_packages" (textsText o.internalPackages) ++
              ',' :: ' ' :: (fieldText "possible_extensions" (textsText o.extensions) ++
                ['\x7d']))))) := by
  rw [Options.payload, Json.write, String.toList_ofList, render_object]
  simp only [Options.relevantMembers, List.map_cons, List.map_nil, render_texts,
    render_optionalText, sortMembers_fields]
  simp [canonical, Layout.enclose, Layout.breakAt, Layout.separator, fieldText]

/-- The options agree on everything that can change what a scan finds. -/
structure Options.Agree (o p : Options) : Prop where
  filePatterns : o.filePatterns = p.filePatterns
  ignorePatterns : o.ignorePatterns = p.ignorePatterns
  internalPackages : o.internalPackages = p.internalPackages
  internalPrefix : o.internalPrefix = p.internalPrefix
  extensions : o.extensions = p.extensions

theorem fieldText_append_inj {α : Type} {text : α → List Char} (ends : EndsItself text)
    {key : String} {a b : α} {rest rest' : List Char}
    (same : fieldText key (text a) ++ rest = fieldText key (text b) ++ rest') :
    a = b ∧ rest = rest' := by
  rw [fieldText, fieldText, List.append_assoc, List.append_assoc] at same
  have value := List.append_cancel_left same
  simp only [List.cons_append, List.cons.injEq, true_and] at value
  exact ends value

/-- The payload determines everything that can change what a scan finds. -/
theorem agree_of_payload_eq {o p : Options} (same : o.payload = p.payload) : o.Agree p := by
  have chars := congrArg String.toList same
  rw [toList_payload, toList_payload] at chars
  obtain ⟨files, chars⟩ := fieldText_append_inj endsItself_textsText (List.cons.inj chars).2
  obtain ⟨ignored, chars⟩ :=
    fieldText_append_inj endsItself_textsText (List.cons.inj (List.cons.inj chars).2).2
  obtain ⟨internal, chars⟩ :=
    fieldText_append_inj endsItself_optionalTextText (List.cons.inj (List.cons.inj chars).2).2
  obtain ⟨packages, chars⟩ :=
    fieldText_append_inj endsItself_textsText (List.cons.inj (List.cons.inj chars).2).2
  obtain ⟨extensions, -⟩ :=
    fieldText_append_inj endsItself_textsText (List.cons.inj (List.cons.inj chars).2).2
  exact ⟨files, ignored, packages, internal, extensions⟩

end Settings

end SourceAtlas
