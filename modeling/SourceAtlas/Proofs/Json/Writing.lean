/-
# What is written is plain JSON

A value is written with one of the spellings that JSON has for each of its numbers and texts, and
with white space between the tokens as the layout asks. If every number in the value can be
spelled, the text is therefore a plain document, and it is read as the value of that document: the
numbers are those that their numerals stand for, and the members of an object come in the order in
which the layout writes them.
-/

import SourceAtlas.Json.Writer
import SourceAtlas.Proofs.Json.Numerals
import SourceAtlas.Proofs.Json.Quoting
import SourceAtlas.Proofs.Json.Reading

namespace SourceAtlas.Json

mutual

/-- The numbers in a value, at any depth. -/
def numbers : Json → List Number
  | .null => []
  | .bool _ => []
  | .number n => [n]
  | .text _ => []
  | .array items => itemNumbers items
  | .object members => memberNumbers members

def itemNumbers : List Json → List Number
  | [] => []
  | item :: rest => numbers item ++ itemNumbers rest

def memberNumbers : List (String × Json) → List Number
  | [] => []
  | (_, value) :: rest => numbers value ++ memberNumbers rest

end

/-- How numbers and texts are spelled where JSON is written. -/
structure Spelling (ascii : Bool) where
  numeral : Number → Numeral
  text_numeral : ∀ n, isSpellable n = true → (numeral n).text = (n.text Number.jsonFormat).toList
  items : String → List StringItem
  stringText_items : ∀ s, stringText (items s) = quote ascii s
  meaning_items : ∀ s, meaning (items s) = s.toList

theorem nonempty_spelling (ascii : Bool) : Nonempty (Spelling ascii) := by
  have numerals (n : Number) : ∃ m : Numeral,
      isSpellable n = true → m.text = (n.text Number.jsonFormat).toList := by
    by_cases spellable : isSpellable n = true
    · obtain ⟨m, text⟩ := exists_numeral spellable
      exact ⟨m, fun _ => text⟩
    · obtain ⟨m, -⟩ := exists_numeral_nat false 0
      exact ⟨m, fun possible => absurd possible spellable⟩
  have texts (s : String) :
      ∃ items, stringText items = quote ascii s ∧ meaning items = s.toList := by
    obtain ⟨items, text, stands⟩ := exists_items_escaped ascii s.toList
    exact ⟨items, by rw [stringText, text]; rfl, stands⟩
  choose numeral text_numeral using numerals
  choose items stringText_items meaning_items using texts
  exact ⟨⟨numeral, text_numeral, items, stringText_items, meaning_items⟩⟩

theorem isSpace_blank : isSpace ' ' = true := rfl

theorem isSpace_lineFeed : isSpace '\n' = true := rfl

/-- The white space for a line break before an item at a depth. -/
def Layout.gap (layout : Layout) (depth : Nat) : List Filler :=
  layout.indent.elim [] fun width =>
    .space '\n' isSpace_lineFeed :: List.replicate (width * depth) (.space ' ' isSpace_blank)

/-- The white space behind the comma between two items at a depth. -/
def Layout.between (layout : Layout) (depth : Nat) : List Filler :=
  layout.indent.elim [.space ' ' isSpace_blank] fun _ => layout.gap depth

theorem gapPieces_replicate (count : Nat) :
    gapPieces (List.replicate count (.space ' ' isSpace_blank)) =
      List.replicate count (.kept [' ']) := by
  induction count with
  | zero => rfl
  | succ count ih =>
      rw [List.replicate_succ, gapPieces_cons, ih]
      rfl

theorem textOf_replicate (count : Nat) :
    textOf (List.replicate count (.kept [' '])) = List.replicate count ' ' := by
  induction count with
  | zero => rfl
  | succ count ih =>
      rw [List.replicate_succ, textOf_cons, ih]
      rfl

theorem Layout.textOf_gap (layout : Layout) (depth : Nat) :
    textOf (gapPieces (layout.gap depth)) = layout.breakAt depth := by
  cases indent : layout.indent with
  | none => simp [gap, breakAt, indent, gapPieces]
  | some width =>
      simp [gap, breakAt, indent, gapPieces_cons, gapPieces_replicate, textOf_replicate,
        Filler.pieces, Piece.text]

theorem Layout.textOf_between (layout : Layout) (depth : Nat) :
    ',' :: textOf (gapPieces (layout.between depth)) = layout.separator depth := by
  cases indent : layout.indent with
  | none => simp [between, separator, indent, gapPieces, Filler.pieces, Piece.text]
  | some width => simp [between, separator, indent, layout.textOf_gap]

theorem Layout.allKept_gap (layout : Layout) (depth : Nat) :
    AllKept (gapPieces (layout.gap depth)) := by
  cases indent : layout.indent with
  | none => simp [gap, indent, gapPieces]
  | some width =>
      have spaces : AllKept (List.replicate (width * depth) (.kept [' '])) :=
        fun p listed => ⟨_, List.eq_of_mem_replicate listed⟩
      simpa [gap, indent, gapPieces_cons, gapPieces_replicate, Filler.pieces] using spaces

theorem Layout.allKept_between (layout : Layout) (depth : Nat) :
    AllKept (gapPieces (layout.between depth)) := by
  cases indent : layout.indent with
  | none => simp [between, indent, gapPieces, Filler.pieces]
  | some width => simpa [between, indent] using layout.allKept_gap depth

/-! ## Arrays and objects -/

/-- Items with commas between them, and white space before the first, behind each comma and behind
the last. -/
def WrittenItems.join (first between after : List Filler) (item : Written) :
    List Written → WrittenItems
  | [] => .last first item after none
  | next :: rest => .more first item [] (join between between after next rest)

/-- Members with commas between them, as for items; a space stands behind each colon. -/
def WrittenMembers.join (first between after : List Filler) (member : List StringItem × Written) :
    List (List StringItem × Written) → WrittenMembers
  | [] => .last first member.1 [] [.space ' ' isSpace_blank] member.2 after none
  | next :: rest =>
    .more first member.1 [] [.space ' ' isSpace_blank] member.2 []
      (join between between after next rest)

def memberText (member : List StringItem × Written) : List Char :=
  stringText member.1 ++ ':' :: ' ' :: textOf member.2.pieces

section Joining

variable {between after : List Filler}

theorem WrittenItems.textOf_join (first : List Filler) (item : Written) (rest : List Written) :
    textOf (join first between after item rest).pieces =
      textOf (gapPieces first) ++ List.intercalate (',' :: textOf (gapPieces between))
        ((item :: rest).map fun w => textOf w.pieces) ++ textOf (gapPieces after) := by
  induction rest generalizing first item with
  | nil => simp [join, WrittenItems.pieces]
  | cons next rest ih => simp [join, WrittenItems.pieces, ih, gapPieces, Piece.text]

theorem WrittenMembers.textOf_join (first : List Filler) (member : List StringItem × Written)
    (rest : List (List StringItem × Written)) :
    textOf (join first between after member rest).pieces =
      textOf (gapPieces first) ++ List.intercalate (',' :: textOf (gapPieces between))
        ((member :: rest).map memberText) ++ textOf (gapPieces after) := by
  induction rest generalizing first member with
  | nil =>
      simp [join, WrittenMembers.pieces, keyPieces, memberText, gapPieces, Filler.pieces,
        Piece.text]
  | cons next rest ih =>
      simp [join, WrittenMembers.pieces, keyPieces, memberText, ih, gapPieces, Filler.pieces,
        Piece.text]

theorem WrittenItems.allKept_join (ahead : AllKept (gapPieces between))
    (behind : AllKept (gapPieces after)) {first : List Filler} (start : AllKept (gapPieces first))
    {item : Written} {rest : List Written} (each : ∀ w ∈ item :: rest, AllKept w.pieces) :
    AllKept (join first between after item rest).pieces := by
  induction rest generalizing first item with
  | nil => simp_all [join, WrittenItems.pieces]
  | cons next rest ih =>
      have later := ih ahead fun w listed => each w (List.mem_cons_of_mem _ listed)
      simp_all [join, WrittenItems.pieces, gapPieces]

theorem WrittenMembers.allKept_join (ahead : AllKept (gapPieces between))
    (behind : AllKept (gapPieces after)) {first : List Filler} (start : AllKept (gapPieces first))
    {member : List StringItem × Written} {rest : List (List StringItem × Written)}
    (each : ∀ m ∈ member :: rest, AllKept m.2.pieces) :
    AllKept (join first between after member rest).pieces := by
  induction rest generalizing first member with
  | nil => simp_all [join, WrittenMembers.pieces, keyPieces, gapPieces, Filler.pieces]
  | cons next rest ih =>
      have later := ih ahead fun m listed => each m (List.mem_cons_of_mem _ listed)
      simp_all [join, WrittenMembers.pieces, keyPieces, gapPieces, Filler.pieces]

theorem WrittenItems.values_join (first : List Filler) (item : Written) (rest : List Written) :
    (join first between after item rest).values = (item :: rest).map Written.value := by
  induction rest generalizing first item with
  | nil => rfl
  | cons next rest ih => exact congrArg (item.value :: ·) (ih between next)

theorem WrittenMembers.values_join (first : List Filler) (member : List StringItem × Written)
    (rest : List (List StringItem × Written)) :
    (join first between after member rest).values =
      (member :: rest).map fun m => (String.ofList (meaning m.1), m.2.value) := by
  induction rest generalizing first member with
  | nil => rfl
  | cons next rest ih =>
      exact congrArg ((String.ofList (meaning member.1), member.2.value) :: ·) (ih between next)

theorem WrittenItems.readable_join (first : List Filler) {item : Written} {rest : List Written}
    (each : ∀ w ∈ item :: rest, w.Readable) : (join first between after item rest).Readable := by
  induction rest generalizing first item with
  | nil => exact each item List.mem_cons_self
  | cons next rest ih =>
      exact ⟨each item List.mem_cons_self,
        ih between fun w listed => each w (List.mem_cons_of_mem _ listed)⟩

theorem WrittenMembers.readable_join (first : List Filler) {member : List StringItem × Written}
    {rest : List (List StringItem × Written)} (each : ∀ m ∈ member :: rest, m.2.Readable) :
    (join first between after member rest).Readable := by
  induction rest generalizing first member with
  | nil => exact each member List.mem_cons_self
  | cons next rest ih =>
      exact ⟨each member List.mem_cons_self,
        ih between fun m listed => each m (List.mem_cons_of_mem _ listed)⟩

end Joining

def Layout.array (layout : Layout) (depth : Nat) : List Written → Written
  | [] => .emptyArray []
  | item :: rest =>
    .array (.join (layout.gap (depth + 1)) (layout.between (depth + 1)) (layout.gap depth)
      item rest)

def Layout.object (layout : Layout) (depth : Nat) : List (List StringItem × Written) → Written
  | [] => .emptyObject []
  | member :: rest =>
    .object (.join (layout.gap (depth + 1)) (layout.between (depth + 1)) (layout.gap depth)
      member rest)

section Enclosing

variable (layout : Layout) (depth : Nat)

theorem Layout.textOf_array (items : List Written) :
    textOf (layout.array depth items).pieces =
      layout.enclose depth '[' ']' (items.map fun w => textOf w.pieces) := by
  cases items with
  | nil => rfl
  | cons item rest =>
      simp [array, enclose, Written.pieces, WrittenItems.textOf_join, layout.textOf_gap,
        layout.textOf_between, Piece.text]

theorem Layout.textOf_object (members : List (List StringItem × Written)) :
    textOf (layout.object depth members).pieces =
      layout.enclose depth '\x7b' '\x7d' (members.map memberText) := by
  cases members with
  | nil => rfl
  | cons member rest =>
      simp [object, enclose, Written.pieces, WrittenMembers.textOf_join, layout.textOf_gap,
        layout.textOf_between, Piece.text]

theorem Layout.allKept_array {items : List Written} (each : ∀ w ∈ items, AllKept w.pieces) :
    AllKept (layout.array depth items).pieces := by
  cases items with
  | nil => simp [array, Written.pieces, gapPieces]
  | cons item rest =>
      simpa [array, Written.pieces] using WrittenItems.allKept_join (layout.allKept_between _)
        (layout.allKept_gap _) (layout.allKept_gap _) each

theorem Layout.allKept_object {members : List (List StringItem × Written)}
    (each : ∀ m ∈ members, AllKept m.2.pieces) :
    AllKept (layout.object depth members).pieces := by
  cases members with
  | nil => simp [object, Written.pieces, gapPieces]
  | cons member rest =>
      simpa [object, Written.pieces] using WrittenMembers.allKept_join (layout.allKept_between _)
        (layout.allKept_gap _) (layout.allKept_gap _) each

theorem Layout.value_array (items : List Written) :
    (layout.array depth items).value = .array (items.map Written.value) := by
  cases items with
  | nil => rfl
  | cons item rest => exact congrArg Json.array (WrittenItems.values_join _ item rest)

theorem Layout.value_object (members : List (List StringItem × Written)) :
    (layout.object depth members).value = .object
      (collectMembers (members.map fun m => (String.ofList (meaning m.1), m.2.value))) := by
  cases members with
  | nil => rfl
  | cons member rest =>
      exact congrArg (fun values => Json.object (collectMembers values))
        (WrittenMembers.values_join _ member rest)

theorem Layout.readable_array {items : List Written} (each : ∀ w ∈ items, w.Readable) :
    (layout.array depth items).Readable := by
  cases items with
  | nil => trivial
  | cons item rest => exact WrittenItems.readable_join _ each

theorem Layout.readable_object {members : List (List StringItem × Written)}
    (each : ∀ m ∈ members, m.2.Readable) : (layout.object depth members).Readable := by
  cases members with
  | nil => trivial
  | cons member rest => exact WrittenMembers.readable_join _ each

end Enclosing

/-- Members in the order in which a layout writes them. -/
def Layout.arrange {α : Type} (layout : Layout) (members : List (String × α)) :
    List (String × α) :=
  if layout.sorted then sortMembers members else members

theorem sortMembers_map {α β : Type} (f : α → β) (members : List (String × α)) :
    sortMembers (members.map fun m => (m.1, f m.2)) =
      (sortMembers members).map fun m => (m.1, f m.2) := by
  rw [sortMembers, sortMembers]
  apply Eq.symm
  apply List.map_mergeSort
  exact fun _ _ _ _ => rfl

theorem Layout.arrange_map {α β : Type} (layout : Layout) (f : α → β)
    (members : List (String × α)) :
    layout.arrange (members.map fun m => (m.1, f m.2)) =
      (layout.arrange members).map fun m => (m.1, f m.2) := by
  rw [arrange, arrange]
  split
  · exact sortMembers_map f members
  · rfl

theorem Layout.mem_arrange {α : Type} {layout : Layout} {members : List (String × α)}
    {m : String × α} : m ∈ layout.arrange members ↔ m ∈ members := by
  rw [arrange]
  split
  · exact List.mem_mergeSort
  · rfl

variable {layout : Layout} (spelling : Spelling layout.ascii)

namespace Spelling

mutual

/-- A value as it is written at a depth. -/
def written (depth : Nat) : Json → Written
  | .null => .atom .null
  | .bool b => .atom (.bool b)
  | .number n => .atom (.number (spelling.numeral n))
  | .text s => .atom (.string (spelling.items s))
  | .array items => layout.array depth (writtenItems (depth + 1) items)
  | .object members =>
    layout.object depth ((layout.arrange (writtenMembers (depth + 1) members)).map fun m =>
      (spelling.items m.1, m.2))

def writtenItems (depth : Nat) : List Json → List Written
  | [] => []
  | item :: rest => written depth item :: writtenItems depth rest

def writtenMembers (depth : Nat) : List (String × Json) → List (String × Written)
  | [] => []
  | (key, value) :: rest => (key, written depth value) :: writtenMembers depth rest

end

mutual

/-- What a written value is read as: each number is the one that its numeral stands for, and the
members of each object stand in the order of the layout, where the last value of a key counts. -/
def reading : Json → Json
  | .null => .null
  | .bool b => .bool b
  | .number n => .number (spelling.numeral n).value
  | .text s => .text s
  | .array items => .array (readingItems items)
  | .object members => .object (collectMembers (layout.arrange (readingMembers members)))

def readingItems : List Json → List Json
  | [] => []
  | item :: rest => reading item :: readingItems rest

def readingMembers : List (String × Json) → List (String × Json)
  | [] => []
  | (key, value) :: rest => (key, reading value) :: readingMembers rest

end

theorem memberText_items (m : String × Written) :
    memberText (spelling.items m.1, m.2) =
      quote layout.ascii m.1 ++ ':' :: ' ' :: textOf m.2.pieces := by
  rw [memberText, spelling.stringText_items]

mutual

/-- The text of a value as it is written is what the writer gives. -/
theorem textOf_written (depth : Nat) :
    (v : Json) → (∀ n ∈ v.numbers, isSpellable n = true) →
      textOf (spelling.written depth v).pieces = render layout depth v
  | .null, _ => by simp [written, Written.pieces, Atom.text, render, Piece.text]
  | .bool true, _ => by simp [written, Written.pieces, Atom.text, render, Piece.text]
  | .bool false, _ => by simp [written, Written.pieces, Atom.text, render, Piece.text]
  | .number n, spellable => by
      have text := spelling.text_numeral n (spellable n (List.mem_singleton_self n))
      simp [written, Written.pieces, Atom.text, render, Piece.text, text]
  | .text s, _ => by
      simp [written, Written.pieces, Atom.text, render, Piece.text, spelling.stringText_items]
  | .array items, spellable => by
      rw [written, layout.textOf_array, textOf_writtenItems (depth + 1) items spellable, render]
  | .object members, spellable => by
      have texts := textOf_writtenMembers (depth + 1) members spellable
      rw [written, layout.textOf_object, List.map_map, render, ← texts]
      change _ = layout.enclose depth _ _ ((layout.arrange _).map _)
      rw [layout.arrange_map fun w : Written => textOf w.pieces, List.map_map]
      exact congrArg _ (List.map_congr_left fun m _ => spelling.memberText_items m)

theorem textOf_writtenItems (depth : Nat) :
    (items : List Json) → (∀ n ∈ itemNumbers items, isSpellable n = true) →
      (spelling.writtenItems depth items).map (fun w => textOf w.pieces) =
        renderItems layout depth items
  | [], _ => rfl
  | item :: rest, spellable => by
      have both := List.forall_mem_append.mp spellable
      rw [writtenItems, List.map_cons, textOf_written depth item both.1,
        textOf_writtenItems depth rest both.2, renderItems]

theorem textOf_writtenMembers (depth : Nat) :
    (members : List (String × Json)) → (∀ n ∈ memberNumbers members, isSpellable n = true) →
      (spelling.writtenMembers depth members).map (fun m => (m.1, textOf m.2.pieces)) =
        renderMembers layout depth members
  | [], _ => rfl
  | (key, value) :: rest, spellable => by
      have both := List.forall_mem_append.mp spellable
      rw [writtenMembers, List.map_cons, textOf_written depth value both.1,
        textOf_writtenMembers depth rest both.2, renderMembers]

end

mutual

/-- A value is written without comments and extra commas. -/
theorem allKept_written (depth : Nat) : (v : Json) → AllKept (spelling.written depth v).pieces
  | .null => by simp [written, Written.pieces]
  | .bool b => by simp [written, Written.pieces]
  | .number n => by simp [written, Written.pieces]
  | .text s => by simp [written, Written.pieces]
  | .array items => layout.allKept_array depth (allKept_writtenItems (depth + 1) items)
  | .object members => by
      have each := allKept_writtenMembers (depth + 1) members
      rw [written]
      apply layout.allKept_object depth
      intro m listed
      obtain ⟨source, arranged, rfl⟩ := List.mem_map.mp listed
      exact each source (Layout.mem_arrange.mp arranged)

theorem allKept_writtenItems (depth : Nat) :
    (items : List Json) → ∀ w ∈ spelling.writtenItems depth items, AllKept w.pieces
  | [] => fun _ listed => absurd listed List.not_mem_nil
  | item :: rest => List.forall_mem_cons.mpr
      ⟨allKept_written depth item, allKept_writtenItems depth rest⟩

theorem allKept_writtenMembers (depth : Nat) :
    (members : List (String × Json)) →
      ∀ m ∈ spelling.writtenMembers depth members, AllKept m.2.pieces
  | [] => fun _ listed => absurd listed List.not_mem_nil
  | (_, value) :: rest => List.forall_mem_cons.mpr
      ⟨allKept_written depth value, allKept_writtenMembers depth rest⟩

end

mutual

theorem value_written (depth : Nat) : (v : Json) → (spelling.written depth v).value =
    spelling.reading v
  | .null => rfl
  | .bool b => rfl
  | .number n => rfl
  | .text s => by
      rw [written, Written.value, Atom.value, spelling.meaning_items, String.ofList_toList, reading]
  | .array items => by
      rw [written, layout.value_array, value_writtenItems (depth + 1) items, reading]
  | .object members => by
      have values := value_writtenMembers (depth + 1) members
      rw [written, layout.value_object, List.map_map, reading, ← values, layout.arrange_map]
      congr 2
      apply List.map_congr_left
      intro m _
      simp [spelling.meaning_items]

theorem value_writtenItems (depth : Nat) : (items : List Json) →
    (spelling.writtenItems depth items).map Written.value = spelling.readingItems items
  | [] => rfl
  | item :: rest => by
      rw [writtenItems, List.map_cons, value_written depth item, value_writtenItems depth rest,
        readingItems]

theorem value_writtenMembers (depth : Nat) : (members : List (String × Json)) →
    (spelling.writtenMembers depth members).map (fun m => (m.1, m.2.value)) =
      spelling.readingMembers members
  | [] => rfl
  | (key, value) :: rest => by
      rw [writtenMembers, List.map_cons, value_written depth value,
        value_writtenMembers depth rest, readingMembers]

end

mutual

theorem readable_written (depth : Nat) :
    (v : Json) → (∀ n ∈ v.numbers, (spelling.numeral n).Readable) →
      (spelling.written depth v).Readable
  | .null, _ => trivial
  | .bool _, _ => trivial
  | .number n, readable => readable n (List.mem_singleton_self n)
  | .text _, _ => trivial
  | .array items, readable =>
      layout.readable_array depth (readable_writtenItems (depth + 1) items readable)
  | .object members, readable => by
      have each := readable_writtenMembers (depth + 1) members readable
      rw [written]
      apply layout.readable_object depth
      intro m listed
      obtain ⟨source, arranged, rfl⟩ := List.mem_map.mp listed
      exact each source (Layout.mem_arrange.mp arranged)

theorem readable_writtenItems (depth : Nat) :
    (items : List Json) → (∀ n ∈ itemNumbers items, (spelling.numeral n).Readable) →
      ∀ w ∈ spelling.writtenItems depth items, w.Readable
  | [], _ => fun _ listed => absurd listed List.not_mem_nil
  | item :: rest, readable =>
      have both := List.forall_mem_append.mp readable
      List.forall_mem_cons.mpr
        ⟨readable_written depth item both.1, readable_writtenItems depth rest both.2⟩

theorem readable_writtenMembers (depth : Nat) :
    (members : List (String × Json)) →
      (∀ n ∈ memberNumbers members, (spelling.numeral n).Readable) →
      ∀ m ∈ spelling.writtenMembers depth members, m.2.Readable
  | [], _ => fun _ listed => absurd listed List.not_mem_nil
  | (_, value) :: rest, readable =>
      have both := List.forall_mem_append.mp readable
      List.forall_mem_cons.mpr
        ⟨readable_written depth value both.1, readable_writtenMembers depth rest both.2⟩

end

def document (v : Json) : Document where
  before := []
  body := spelling.written 0 v
  after := []
  ending := none

theorem isPlain_document (v : Json) : (spelling.document v).IsPlain := by
  simpa [Document.IsPlain, Document.pieces, document, gapPieces, endingPieces] using
    spelling.allKept_written 0 v

theorem text_document {v : Json} (spellable : ∀ n ∈ v.numbers, isSpellable n = true) :
    (spelling.document v).text = (write layout v).toList := by
  rw [write, String.toList_ofList, ← spelling.textOf_written 0 v spellable]
  simp [Document.text, Document.pieces, document, gapPieces, endingPieces]

end Spelling

/-- What is written for a value whose numbers can all be spelled is plain JSON. -/
theorem exists_document_write (layout : Layout) {v : Json}
    (spellable : ∀ n ∈ v.numbers, isSpellable n = true) :
    ∃ d : Document, d.IsPlain ∧ d.text = (write layout v).toList := by
  obtain ⟨spelling⟩ := nonempty_spelling layout.ascii
  exact ⟨spelling.document v, spelling.isPlain_document v, spelling.text_document spellable⟩

/-- What is written for a value is read back, number by number. -/
theorem read_write {v : Json} (spellable : ∀ n ∈ v.numbers, isSpellable n = true)
    (readable : ∀ n ∈ v.numbers, (spelling.numeral n).Readable) :
    read (write layout v).toList = .ok (spelling.reading v) := by
  have plain : (spelling.document v).plain = (spelling.document v).text :=
    (spelling.isPlain_document v).textOf_eq.symm
  rw [← spelling.text_document spellable, ← plain,
    Document.read_plain _ (spelling.readable_written 0 v readable), ← spelling.value_written 0 v]
  rfl

end SourceAtlas.Json
