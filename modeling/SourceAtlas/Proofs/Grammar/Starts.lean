/-
# Tokens that can open a name do not start with a slash

Names, numbers and the signs that can open a name are told by their characters, and the first of
them is never a slash. A keyword stands where a name could stand, so the same holds of every
keyword.
-/

import SourceAtlas.Grammar.Token
import SourceAtlas.Proofs.Grammar.Naming

namespace SourceAtlas.Grammar

namespace Source

/-- Some other character than a slash stands at an offset. -/
def NoSlashAt (s : Source) (i : Nat) : Prop := ∃ c, s.chars[i]? = some c ∧ c ≠ '/'

variable {s : Source} {i : Nat}

theorem noSlashAt_of_hasAt {c : Char} (here : s.hasAt i c = true) (other : c ≠ '/') :
    s.NoSlashAt i :=
  ⟨c, eq_of_beq here, other⟩

theorem noSlashAt_of_holdsAt {test : Char → Bool} (here : s.holdsAt i test = true)
    (other : test '/' = false) : s.NoSlashAt i := by
  rw [holdsAt, Option.any_eq_true] at here
  obtain ⟨c, stored, passes⟩ := here
  refine ⟨c, stored, ?_⟩
  rintro rfl
  rw [other] at passes
  cases passes

theorem noSlashAt_of_startsAt {c : Char} {rest : List Char} (here : s.startsAt i (c :: rest) = true)
    (other : c ≠ '/') : s.NoSlashAt i := by
  rw [startsAt, Bool.and_eq_true] at here
  exact noSlashAt_of_hasAt here.1 other

/-- What is skipped starts with a character that passes the test. -/
theorem holdsAt_of_skipWhile_ne {test : Char → Bool} (moved : s.skipWhile test i ≠ i) :
    s.holdsAt i test = true := by
  rw [skipWhile] at moved
  split at moved
  · rename_i inside
    split at moved
    · rename_i passes
      rw [holdsAt, Array.getElem?_eq_getElem inside]
      exact passes
    · exact absurd rfl moved
  · exact absurd rfl moved

theorem noSlashAt_of_nameEscapeEnd? {stop : Nat} (found : s.nameEscapeEnd? i = some stop) :
    s.NoSlashAt i := by
  rw [nameEscapeEnd?] at found
  split at found
  · rename_i here
    exact noSlashAt_of_startsAt here (by decide)
  · split at found
    · rename_i here
      rw [Bool.and_eq_true] at here
      exact noSlashAt_of_startsAt here.1 (by decide)
    · cases found

/-- A name starts with a character of a word or with an escape. -/
theorem noSlashAt_of_name? {stop : Nat} (found : s.name? i = some stop) : s.NoSlashAt i := by
  rw [name?] at found
  split at found
  · cases found
  · rw [nameEnd] at found
    by_cases moved : s.skipWhile isWordChar i = i
    · rw [moved] at found
      dsimp only at found
      split at found
      · rename_i further
        exact noSlashAt_of_nameEscapeEnd? further
      · rw [if_neg (Nat.lt_irrefl i)] at found
        cases found
    · exact noSlashAt_of_holdsAt (holdsAt_of_skipWhile_ne moved) (by decide)

theorem noSlashAt_of_digits? {digit : Char → Bool} {stop : Nat}
    (found : s.digits? digit i = some stop) (other : digit '/' = false) : s.NoSlashAt i := by
  rw [digits?] at found
  split at found
  · rename_i here
    exact noSlashAt_of_holdsAt here other
  · cases found

theorem noSlashAt_of_baseDigits? {letters : List Char} {digit : Char → Bool} {stop : Nat}
    (found : s.baseDigits? letters digit i = some stop) : s.NoSlashAt i := by
  rw [baseDigits?] at found
  split at found
  · rename_i here
    rw [Bool.and_eq_true] at here
    exact noSlashAt_of_hasAt here.1 (by decide)
  · cases found

theorem noSlashAt_of_wholePart? {stop : Nat} (found : s.wholePart? i = some stop) :
    s.NoSlashAt i := by
  rw [wholePart?] at found
  split at found
  · exact noSlashAt_of_digits? found (by decide)
  · split at found
    · rename_i zero
      exact noSlashAt_of_hasAt zero (by decide)
    · cases found

theorem noSlashAt_of_number? {stop : Nat} (found : s.number? i = some stop) : s.NoSlashAt i := by
  have listed : stop ∈ s.numberEnds i := List.max?_mem found
  rw [numberEnds, List.mem_append, List.mem_append] at listed
  rcases listed with (based | fraction) | point
  · obtain ⟨digits, among, -⟩ := List.mem_flatMap.mp based
    simp only [List.mem_filterMap, List.mem_cons, List.not_mem_nil, or_false, id] at among
    obtain ⟨found, rfl | rfl | rfl | rfl, same⟩ := among
    · exact noSlashAt_of_baseDigits? same
    · exact noSlashAt_of_baseDigits? same
    · exact noSlashAt_of_baseDigits? same
    · exact noSlashAt_of_digits? same (by decide)
  · split at fraction
    · rename_i whole found
      exact noSlashAt_of_wholePart? found
    · cases fraction
  · split at point
    · rename_i here
      rw [Bool.and_eq_true] at here
      exact noSlashAt_of_hasAt here.1 (by decide)
    · cases point

theorem noSlashAt_of_hyphenatedName? {stop : Nat} (found : s.hyphenatedName? i = some stop) :
    s.NoSlashAt i := by
  rw [hyphenatedName?] at found
  split at found
  · rename_i here
    exact noSlashAt_of_holdsAt here (by decide)
  · cases found

/-- What depends on its place cannot open a name. -/
theorem opensName_of_placed? {typed : Bool} {wanted : Wanted} {class_ : Lexeme} {span : Span}
    (found : s.placed? typed wanted i = some (class_, span)) :
    (Terminal.lexeme class_).opensName = false := by
  -- Each of the readers gives tokens of one class.
  have only {one : Lexeme} {spans : Option Span}
      (same : (spans.map fun span => (one, span)) = some (class_, span)) : class_ = one := by
    obtain ⟨_, -, equal⟩ := Option.map_eq_some_iff.mp same
    exact (Prod.mk.inj equal).1.symm
  have comment {j : Nat} (same : (if wanted.operator || wanted.quoted then none
      else (s.markupComment? j).map fun span => (Lexeme.markupComment, span)) =
        some (class_, span)) : (Terminal.lexeme class_).opensName = false := by
    split at same
    · cases same
    · rw [only same]
      rfl
  rw [placed?] at found
  split at found
  · split at found
    · cases found
    · rw [only found]
      rfl
  · split at found
    · split at found
      · cases found
        rfl
      · exact comment found
    · split at found
      · dsimp only at found
        generalize (if typed then _ else _ : Bool × Bool × Nat) = look at found
        split at found
        · cases found
          rfl
        · split at found
          · rw [only found]
            rfl
          · cases found
      · split at found
        · rw [only found]
          rfl
        · exact comment found

end Source

/-- Tokens of a class that can open a name do not start with a slash. -/
theorem Lexeme.noSlashAt_of_stop? {class_ : Lexeme}
    (opens : (Terminal.lexeme class_).opensName = true) {s : Source} {i stop : Nat}
    (found : class_.stop? s i = some stop) : s.NoSlashAt i := by
  cases class_ with
  | identifier => exact Source.noSlashAt_of_name? found
  | privateName =>
      rw [stop?] at found
      split at found
      · rename_i mark
        exact Source.noSlashAt_of_hasAt mark (by decide)
      · cases found
  | number => exact Source.noSlashAt_of_number? found
  | hyphenatedName => exact Source.noSlashAt_of_hyphenatedName? found
  | _ => cases opens

/-- Signs are found under their first characters. -/
theorem of_mem_signsOf {texts : List (String × Nat)} {code : Nat} {sign : List Char × Nat}
    (listed : sign ∈ (signsOf texts).getD code []) :
    ∃ text, (text, sign.2) ∈ texts ∧ text.toList = sign.1 := by
  let Right (signs : Std.HashMap Nat (List (List Char × Nat))) : Prop :=
    ∀ code, ∀ sign ∈ signs.getD code [], ∃ text, (text, sign.2) ∈ texts ∧ text.toList = sign.1
  suffices Right (signsOf texts) from this code sign listed
  rw [signsOf]
  apply List.foldlRecOn (motive := Right)
  · intro code sign none
    rw [Std.HashMap.getD_empty] at none
    cases none
  · intro signs before t own code sign listed
    split at listed
    · exact before code sign listed
    · rename_i first rest chars
      rw [Std.HashMap.getD_insert] at listed
      split at listed
      · rcases List.mem_cons.mp listed with rfl | old
        · exact ⟨t.1, own, chars⟩
        · exact before _ sign old
      · exact before code sign listed

namespace Language

variable {language : Language}

theorem of_mem_tables_signs {code : Nat} {sign : List Char × Nat}
    (listed : sign ∈ language.tables.signs.getD code []) :
    ∃ t text, language.tables.terminals[sign.2]? = some t ∧ t.text? = some text ∧
      text.toList = sign.1 := by
  have signs : language.tables.signs = signsOf
      ((language.tables.terminals.toList.zipIdx.filterMap fun t =>
        t.1.text?.map fun text => (text, t.2)).filter fun t => !isWordText t.1) := by
    rw [tables_terminals, tables]
    generalize StateT.run _ _ = gathered
    rfl
  rw [signs] at listed
  obtain ⟨text, own, chars⟩ := of_mem_signsOf listed
  obtain ⟨pair, stored, same⟩ := List.mem_filterMap.mp (List.mem_of_mem_filter own)
  obtain ⟨found, isText, equal⟩ := Option.map_eq_some_iff.mp same
  obtain ⟨rfl, number⟩ := Prod.mk.inj equal
  rw [List.mem_zipIdx_iff_getElem?, Array.getElem?_toList, number] at stored
  exact ⟨pair.1, found, stored, isText, chars⟩

theorem of_mem_tables_classes {class_ : Lexeme} {number : Nat}
    (listed : (class_, number) ∈ language.tables.classes) :
    language.tables.terminals[number]? = some (.lexeme class_) := by
  obtain ⟨class?, classes, known⟩ : ∃ class?, language.tables.classes =
      language.tables.terminals.toList.zipIdx.filterMap class? ∧
      ∀ pair, class? pair = some (class_, number) → pair = (.lexeme class_, number) := by
    rw [tables_terminals, tables]
    generalize StateT.run _ _ = gathered
    refine ⟨_, rfl, ?_⟩
    intro pair same
    obtain ⟨terminal, place⟩ := pair
    cases terminal with
    | lexeme other =>
        cases same
        rfl
    | literal text => cases same
    | named name => cases same
    | endOfText => cases same
  rw [classes] at listed
  obtain ⟨pair, stored, same⟩ := List.mem_filterMap.mp listed
  rw [List.mem_zipIdx_iff_getElem?, Array.getElem?_toList, known pair same] at stored
  exact stored

end Language

/-- Which tokens can open a name is told by their numbers, wherever a number comes from. -/
structure Tables.TellsNames (t : Tables) (opens : Nat → Prop) : Prop where
  numbered : ∀ {terminal : Terminal}, opens (t.numbering.terminal terminal) →
    terminal.opensName = true
  signs : ∀ {code : Nat} {sign : List Char × Nat}, sign ∈ t.signs.getD code [] → opens sign.2 →
    ∃ c rest, sign.1 = c :: rest ∧ c ≠ '/'
  classes : ∀ {class_ : Lexeme} {number : Nat}, (class_, number) ∈ t.classes → opens number →
    (Terminal.lexeme class_).opensName = true
  names : opens t.nameSymbol

theorem Language.NamesKept.tellsNames {language : Language} {opening : List String}
    (kept : language.NamesKept opening)
    (names : .lexeme .identifier ∈ language.tables.terminals.toList) :
    language.tables.TellsNames (language.Opens opening) where
  numbered opens := opensName_of_opens kept opens
  signs listed opens := by
    obtain ⟨t, text, stored, isText, chars⟩ := of_mem_tables_signs listed
    have first := (opens_iff_of_getElem? stored).mp opens
    rw [← chars]
    have starts : text.toList.head?.any (· != '/') = true := by
      cases t <;> cases isText <;> exact first
    obtain ⟨c, isFirst, other⟩ := (Option.any_eq_true _ _).mp starts
    obtain ⟨rest, split⟩ := List.head?_eq_some_iff.mp isFirst
    exact ⟨c, rest, split, bne_iff_ne.mp other⟩
  classes listed opens := (opens_iff_of_getElem? (of_mem_tables_classes listed)).mp opens
  names := (opens_iff_of_getElem? (getElem?_tables_terminal names)).mpr rfl

theorem mem_of_bestCandidate? {candidates : List Candidate} {best : Candidate}
    (found : bestCandidate? candidates = some best) : best ∈ candidates := by
  refine mem_of_foldl_best (fun sofar next => ?_) found
  split
  · exact .inl rfl
  · split
    · exact .inl rfl
    · exact .inr rfl

namespace Tables.TellsNames

variable {t : Tables} {opens : Nat → Prop} (tells : t.TellsNames opens) {s : Source}
include tells

/-- A candidate that can open a name does not start with a slash. -/
theorem noSlashAt_of_mem_candidates {state : State} {i next : Nat} {c : Candidate}
    (listed : c ∈ t.candidates s state i next) (open_ : opens c.symbol) :
    s.NoSlashAt c.span.start := by
  rw [Tables.candidates] at listed
  rcases List.mem_append.mp listed with sign | word
  · obtain ⟨sign, known, same⟩ := List.mem_filterMap.mp sign
    rw [Option.ite_none_right_eq_some, Bool.and_eq_true] at same
    obtain ⟨⟨-, here⟩, same⟩ := same
    cases same
    cases stored : s.chars[next]? with
    | none =>
        rw [stored] at known
        cases known
    | some char =>
        rw [stored] at known
        obtain ⟨c, rest, chars, other⟩ := tells.signs known open_
        rw [chars] at here
        exact Source.noSlashAt_of_startsAt here other
  · obtain ⟨pair, known, same⟩ := List.mem_filterMap.mp word
    rw [Option.ite_none_right_eq_some] at same
    obtain ⟨stop, found, equal⟩ := Option.map_eq_some_iff.mp same.2
    cases equal
    exact Lexeme.noSlashAt_of_stop? (tells.classes known open_) found

/-- A token that can open a name, and every keyword, does not start with a slash. -/
theorem noSlashAt_of_token? {typed : Bool} {state : State} {i : Nat} {token : Token}
    (found : t.token? s typed state i = some token)
    (open_ : opens token.symbol ∨ token.isKeyword = true) : s.NoSlashAt token.span.start := by
  rw [Tables.token?] at found
  split at found
  · rename_i class_ span placed
    cases found
    have open_ := tells.numbered (open_.resolve_right Bool.false_ne_true)
    rw [Source.opensName_of_placed? placed] at open_
    cases open_
  · dsimp only at found
    split at found
    · split at found
      · cases found
        cases tells.numbered (open_.resolve_right Bool.false_ne_true)
      · cases found
    · rename_i best chosen
      have start := tells.noSlashAt_of_mem_candidates (mem_of_bestCandidate? chosen)
      split at found
      · rename_i name
        rw [eq_of_beq name] at start
        have fine := start tells.names
        split at found
        · cases found
          exact fine
        · cases found
          exact fine
      · cases found
        exact start (open_.resolve_right Bool.false_ne_true)

end Tables.TellsNames

end SourceAtlas.Grammar
