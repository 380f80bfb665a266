/-
# The payload is plain JSON in printable characters

The text whose digest is taken is one line: the fields in the order of their keys, with a comma and
a space between them and a colon and a space behind each key. All of its characters are printable
ones of ASCII, whatever characters the options hold. It is read back as the fields that can change
what a scan finds, so two options have the same payload exactly if they agree on those.
-/

import SourceAtlas.Proofs.Json.Writing
import SourceAtlas.Proofs.Settings.Payload

namespace SourceAtlas

namespace Json

/-- Whether every character is a printable one of ASCII. -/
def IsPrintable (chars : List Char) : Prop := ∀ c ∈ chars, 0x20 ≤ c.toNat ∧ c.toNat ≤ 0x7E

@[simp]
theorem isPrintable_nil : IsPrintable [] := fun _ listed => absurd listed List.not_mem_nil

@[simp]
theorem isPrintable_cons {c : Char} {rest : List Char} :
    IsPrintable (c :: rest) ↔ (0x20 ≤ c.toNat ∧ c.toNat ≤ 0x7E) ∧ IsPrintable rest :=
  List.forall_mem_cons

@[simp]
theorem isPrintable_append {first second : List Char} :
    IsPrintable (first ++ second) ↔ IsPrintable first ∧ IsPrintable second :=
  List.forall_mem_append

theorem isPrintable_flatMap {α : Type} {f : α → List Char} {items : List α}
    (each : ∀ item ∈ items, IsPrintable (f item)) : IsPrintable (items.flatMap f) := by
  intro c listed
  obtain ⟨item, among, inside⟩ := List.mem_flatMap.mp listed
  exact each item among c inside

theorem isPrintable_hex4 {n : Nat} (unit : n < 0x10000) : IsPrintable (hex4 n) := by
  have digit : ∀ k : Fin 16, 0x20 ≤ k.val.digitChar.toNat ∧ k.val.digitChar.toNat ≤ 0x7E := by
    decide
  rw [hex4_eq unit]
  simp only [isPrintable_cons, isPrintable_nil, and_true]
  exact ⟨digit ⟨n / 4096, by omega⟩, digit ⟨n / 256 % 16, by omega⟩, digit ⟨n / 16 % 16, by omega⟩,
    digit ⟨n % 16, by omega⟩⟩

theorem isPrintable_unitEscape {n : Nat} (unit : n < 0x10000) : IsPrintable (unitEscape n) := by
  rw [unitEscape, isPrintable_cons, isPrintable_cons]
  exact ⟨by decide, by decide, isPrintable_hex4 unit⟩

theorem isPrintable_ite {p : Prop} [Decidable p] {first second : List Char}
    (yes : p → IsPrintable first) (no : ¬ p → IsPrintable second) :
    IsPrintable (if p then first else second) := by
  split
  next holds => exact yes holds
  next fails => exact no fails

/-- Whatever a character is, it is written with printable characters. -/
theorem isPrintable_escapeChar (c : Char) : IsPrintable (escapeChar true c) := by
  have bound := toNat_lt c
  rw [escapeChar]
  -- the short escapes
  iterate 7
    apply isPrintable_ite (fun _ => by simp)
    intro _
  apply isPrintable_ite (fun control => isPrintable_unitEscape (by omega))
  intro shown
  apply isPrintable_ite (fun plain => by simp; omega)
  intro _
  apply isPrintable_ite (fun verbatim => absurd verbatim (by decide))
  intro _
  apply isPrintable_ite isPrintable_unitEscape
  intro large
  rw [isPrintable_append]
  exact ⟨isPrintable_unitEscape (by omega), isPrintable_unitEscape (by omega)⟩

theorem isPrintable_quote (s : String) : IsPrintable (quote true s) := by
  have inside := isPrintable_flatMap fun c (_ : c ∈ s.toList) => isPrintable_escapeChar c
  simp [quote, inside]

theorem isPrintable_textsText (items : List String) : IsPrintable (textsText items) := by
  cases items with
  | nil => simp [textsText]
  | cons s items =>
      have later : IsPrintable (items.flatMap fun s => ',' :: ' ' :: quote true s) :=
        isPrintable_flatMap fun s _ => by simp [isPrintable_quote]
      simp [textsText_cons, laterTextsText, isPrintable_quote, later]

theorem isPrintable_optionalTextText (s : Option String) : IsPrintable (optionalTextText s) := by
  cases s with
  | none => simp [optionalTextText]
  | some s => exact isPrintable_quote s

theorem numbers_texts (items : List String) : (texts items).numbers = [] := by
  rw [texts, numbers]
  induction items with
  | nil => rfl
  | cons s items ih => rw [List.map_cons, itemNumbers, ih, numbers, List.append_nil]

theorem numbers_optionalText (s : Option String) : (optionalText s).numbers = [] := by
  cases s <;> rfl

namespace Spelling

variable {layout : Layout} (spelling : Spelling layout.ascii)

theorem reading_texts (items : List String) : spelling.reading (texts items) = texts items := by
  rw [texts, reading]
  congr 1
  induction items with
  | nil => rfl
  | cons s items ih => rw [List.map_cons, readingItems, ih, reading]

theorem reading_optionalText (s : Option String) :
    spelling.reading (optionalText s) = optionalText s := by
  cases s <;> rfl

end Spelling

end Json

namespace Settings

open Json

/-- The fields of a payload as they are written, in the order of their keys. -/
def Options.fieldTexts (o : Options) : List (List Char) :=
  [fieldText "file_patterns" (textsText o.filePatterns),
    fieldText "ignore_patterns" (textsText o.ignorePatterns),
    fieldText "internal_package_prefix" (optionalTextText o.internalPrefix),
    fieldText "internal_packages" (textsText o.internalPackages),
    fieldText "possible_extensions" (textsText o.extensions)]

theorem toList_payload_eq_fieldTexts (o : Options) :
    o.payload.toList = '\x7b' :: (List.intercalate [',', ' '] o.fieldTexts ++ ['\x7d']) := by
  simp [toList_payload, Options.fieldTexts]

theorem isPrintable_fieldText {key : String} {value : List Char} (printable : IsPrintable value) :
    IsPrintable (fieldText key value) := by
  simp [fieldText, isPrintable_quote, printable]

theorem isPrintable_payload (o : Options) : IsPrintable o.payload.toList := by
  simp [toList_payload, isPrintable_fieldText, isPrintable_textsText, isPrintable_optionalTextText]

/-- The members that can change what a scan finds, in the order of their keys. -/
def Options.orderedMembers (o : Options) : List (String × Json) :=
  [("file_patterns", .texts o.filePatterns),
    ("ignore_patterns", .texts o.ignorePatterns),
    ("internal_package_prefix", .optionalText o.internalPrefix),
    ("internal_packages", .texts o.internalPackages),
    ("possible_extensions", .texts o.extensions)]

theorem read_payload (o : Options) :
    read o.payload.toList = .ok (.object o.orderedMembers) := by
  obtain ⟨spelling⟩ := nonempty_spelling canonical.ascii
  have noNumber : (Json.object o.relevantMembers).numbers = [] := by
    simp [Options.relevantMembers, numbers, memberNumbers, numbers_texts, numbers_optionalText]
  have members : spelling.readingMembers o.relevantMembers = o.relevantMembers := by
    simp [Options.relevantMembers, Spelling.readingMembers, spelling.reading_texts,
      spelling.reading_optionalText]
  have ordered : canonical.arrange o.relevantMembers = o.orderedMembers :=
    sortMembers_fields _ _ _ _ _
  have collected : collectMembers o.orderedMembers = o.orderedMembers := by
    simp [Options.orderedMembers, collectMembers, setMember]
  have back : spelling.reading (.object o.relevantMembers) = .object o.orderedMembers := by
    rw [Spelling.reading, members, ordered, collected]
  rw [Options.payload, read_write spelling (by simp [noNumber]) (by simp [noNumber]), back]

/-- Two options have the same payload exactly if they agree on everything that can change what a
scan finds. The payload holds these fields in the order of their keys, in printable characters, and
is read back as them. -/
theorem payload_eq_payload_iff_agree (o p : Options) :
    (o.payload = p.payload ↔ o.Agree p) ∧
      o.payload.toList = '\x7b' :: (List.intercalate [',', ' '] o.fieldTexts ++ ['\x7d']) ∧
      IsPrintable o.payload.toList ∧
      read o.payload.toList = .ok (.object o.orderedMembers) := by
  refine ⟨⟨agree_of_payload_eq, ?_⟩, toList_payload_eq_fieldTexts o, isPrintable_payload o,
    read_payload o⟩
  intro agree
  rw [Options.payload, Options.payload, Options.relevantMembers, Options.relevantMembers,
    agree.filePatterns, agree.ignorePatterns, agree.internalPackages, agree.internalPrefix,
    agree.extensions]

end Settings

end SourceAtlas
