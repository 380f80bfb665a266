/-
# The bounds on reading never show

A value is read in a bounded number of steps, and so is a string. Whatever is read takes characters,
and an opening bracket, which takes two steps, is a character too. So the bounds that go with the
length of a text are never met: with larger ones the same is read, and a text that is refused is
refused for the same reason at the same position.
-/

import Mathlib.Data.List.Basic
import SourceAtlas.Json.Reader

namespace SourceAtlas.Json

theorem Rest.length_drop (r : Rest) (count : Nat) :
    (r.drop count).chars.length = r.chars.length - count :=
  List.length_drop

theorem Rest.length_skipSpace_le (r : Rest) : r.skipSpace.chars.length ≤ r.chars.length := by
  rw [skipSpace, length_drop]
  omega

theorem Rest.length_lt_of_skipSpace {r : Rest} {c : Char} {rest : List Char}
    (found : r.skipSpace.chars = c :: rest) : rest.length < r.chars.length := by
  have := r.length_skipSpace_le
  rw [found, List.length_cons] at this
  omega

theorem refuse_ne_ok {α : Type} {kind : FaultKind} {position : Nat} {a : α} :
    (refuse kind position : Except Fault α) ≠ .ok a := by
  rintro ⟨⟩

theorem exists_of_bind {α β : Type} {first : Except Fault α} {next : α → Except Fault β} {b : β}
    (read : first >>= next = .ok b) : ∃ a, first = .ok a ∧ next a = .ok b := by
  cases first with
  | error fault => cases read
  | ok a => exact ⟨a, rfl, read⟩

/-- With more steps than characters a string is read in the same way, whatever their number. -/
theorem readString_eq_of_lt {opened first second : Nat} {r : Rest} {done : List Char}
    (enough : r.chars.length < first) (alsoEnough : r.chars.length < second) :
    readString opened first r done = readString opened second r done := by
  fun_induction readString opened first r done generalizing second
  all_goals obtain ⟨steps, rfl⟩ : ∃ n, second = n + 1 := ⟨second - 1, by omega⟩
  all_goals grind [readString, Rest.length_drop]

section Lengths

variable {r after : Rest} {v : Json} {steps : Nat}

theorem length_lt_of_readString {opened : Nat} {done : List Char} {s : String}
    (read : readString opened steps r done = .ok (s, after)) :
    after.chars.length < r.chars.length := by
  fun_induction readString opened steps r done
  all_goals grind [refuse_ne_ok, Rest.length_drop]

theorem exists_drop_of_readNumber (read : readNumber r = .ok (v, after)) :
    r.chars ≠ [] ∧ ∃ count, 0 < count ∧ after = r.drop count := by
  have something : r.chars ≠ [] := by
    intro nothing
    simp [readNumber, nothing, refuse] at read
  refine ⟨something, ?_⟩
  revert read
  fun_cases readNumber r
  case case1 => exact fun read => absurd read refuse_ne_ok
  case case2 => rintro ⟨⟩
  case case3 digits _ _ _ _ _ _ _ _ =>
    rintro ⟨⟩
    have := List.length_pos_iff.mpr (mt List.isEmpty_iff.mpr digits)
    exact ⟨_, by omega, rfl⟩
  case case4 digits _ _ _ _ _ _ _ =>
    rintro ⟨⟩
    have := List.length_pos_iff.mpr (mt List.isEmpty_iff.mpr digits)
    exact ⟨_, by omega, rfl⟩

theorem exists_drop_of_readPlain (read : readPlain r = .ok (v, after)) :
    r.chars ≠ [] ∧ ∃ count, 0 < count ∧ after = r.drop count := by
  rw [readPlain] at read
  split at read
  case h_1 word value found =>
    have starts : word <+: r.chars := by simpa using List.find?_some found
    have long : word ≠ [] := by
      rintro rfl
      exact absurd (List.mem_of_find?_eq_some found) (by simp [wordValues])
    have something : r.chars ≠ [] := fun none => long (List.prefix_nil.mp (none ▸ starts))
    cases read
    exact ⟨something, word.length, List.length_pos_iff.mpr long, rfl⟩
  case h_2 => exact exists_drop_of_readNumber read

theorem length_lt_of_readPlain (read : readPlain r = .ok (v, after)) :
    after.chars.length < r.chars.length := by
  obtain ⟨something, count, positive, rfl⟩ := exists_drop_of_readPlain read
  have := List.length_pos_iff.mpr something
  rw [Rest.length_drop]
  omega

/-- Every reader with a number of steps leaves less than it was given. -/
structure ReadersShorten (steps : Nat) : Prop where
  value : ∀ {r after v}, readValue steps r = .ok (v, after) → after.chars.length < r.chars.length
  items : ∀ {r after done v}, readItems steps r done = .ok (v, after) →
    after.chars.length < r.chars.length
  members : ∀ {r after done v}, readMembers steps r done = .ok (v, after) →
    after.chars.length < r.chars.length

theorem ReadersShorten.value_succ (shorten : ReadersShorten steps)
    (read : readValue (steps + 1) r = .ok (v, after)) : after.chars.length < r.chars.length := by
  rw [readValue] at read
  split at read
  case h_1 rest begun =>
    obtain ⟨⟨s, behind⟩, text, finish⟩ := exists_of_bind read
    cases finish
    have shorter : after.chars.length < rest.length := length_lt_of_readString text
    rw [begun, List.length_cons]
    omega
  case h_2 rest begun =>
    have inside := Rest.length_skipSpace_le ⟨rest, r.position + 1⟩
    simp only at read
    split at read
    case h_1 behind closed =>
      cases read
      grind
    case h_2 => grind [shorten.members read]
  case h_3 rest begun =>
    have inside := Rest.length_skipSpace_le ⟨rest, r.position + 1⟩
    simp only at read
    split at read
    case h_1 behind closed =>
      cases read
      grind
    case h_2 => grind [shorten.items read]
  case h_4 => exact length_lt_of_readPlain read

theorem ReadersShorten.items_succ (shorten : ReadersShorten steps) {done : List Json}
    (read : readItems (steps + 1) r done = .ok (v, after)) :
    after.chars.length < r.chars.length := by
  rw [readItems] at read
  obtain ⟨⟨item, behind⟩, one, read⟩ := exists_of_bind read
  have itemTaken := shorten.value one
  simp only at read
  split at read
  case h_1 rest closed =>
    cases read
    grind [Rest.length_lt_of_skipSpace closed]
  case h_2 rest comma =>
    have others := shorten.items read
    grind [Rest.length_lt_of_skipSpace comma, Rest.length_skipSpace_le]
  case h_3 => exact absurd read refuse_ne_ok

theorem ReadersShorten.members_succ (shorten : ReadersShorten steps)
    {done : List (String × Json)} (read : readMembers (steps + 1) r done = .ok (v, after)) :
    after.chars.length < r.chars.length := by
  rw [readMembers] at read
  split at read
  case h_2 => exact absurd read refuse_ne_ok
  case h_1 rest begun =>
    obtain ⟨⟨key, afterKey⟩, text, read⟩ := exists_of_bind read
    have keyTaken : afterKey.chars.length < rest.length := length_lt_of_readString text
    simp only at read
    split at read
    case h_2 => exact absurd read refuse_ne_ok
    case h_1 rest colon =>
      obtain ⟨⟨value, afterValue⟩, one, read⟩ := exists_of_bind read
      have valueTaken := shorten.value one
      have gap := Rest.length_skipSpace_le ⟨rest, afterKey.skipSpace.position + 1⟩
      have taken : afterValue.chars.length < r.chars.length := by
        grind [Rest.length_lt_of_skipSpace colon]
      simp only at read
      split at read
      case h_1 rest closed =>
        cases read
        grind [Rest.length_lt_of_skipSpace closed]
      case h_2 rest comma =>
        have others := shorten.members read
        grind [Rest.length_lt_of_skipSpace comma, Rest.length_skipSpace_le]
      case h_3 => exact absurd read refuse_ne_ok

theorem readersShorten (steps : Nat) : ReadersShorten steps := by
  induction steps with
  | zero =>
      exact
        { value := fun read => absurd (by rwa [readValue] at read) refuse_ne_ok
          items := fun read => absurd (by rwa [readItems] at read) refuse_ne_ok
          members := fun read => absurd (by rwa [readMembers] at read) refuse_ne_ok }
  | succ steps ih => exact ⟨ih.value_succ, ih.items_succ, ih.members_succ⟩

end Lengths

/-- Two numbers of steps come to the same wherever both are enough. A collection is read from its
first item or member on, and takes one step more than the value that stands there. -/
structure ReadersAgree (first second : Nat) : Prop where
  value : ∀ r : Rest, 2 * r.chars.length < first → 2 * r.chars.length < second →
    readValue first r = readValue second r
  items : ∀ (r : Rest) done, 2 * r.chars.length + 1 < first → 2 * r.chars.length + 1 < second →
    readItems first r done = readItems second r done
  members : ∀ (r : Rest) done, 2 * r.chars.length + 1 < first → 2 * r.chars.length + 1 < second →
    readMembers first r done = readMembers second r done

section Agreement

variable {first second : Nat} {r : Rest}

theorem ReadersAgree.value_succ (agree : ReadersAgree first second)
    (enough : 2 * r.chars.length < first + 1) (alsoEnough : 2 * r.chars.length < second + 1) :
    readValue (first + 1) r = readValue (second + 1) r := by
  rw [readValue, readValue]
  split
  case h_1 => rfl
  case h_2 rest begun =>
    have inside := Rest.length_skipSpace_le ⟨rest, r.position + 1⟩
    simp only
    split
    case h_1 => rfl
    case h_2 => exact agree.members _ _ (by grind) (by grind)
  case h_3 rest begun =>
    have inside := Rest.length_skipSpace_le ⟨rest, r.position + 1⟩
    simp only
    split
    case h_1 => rfl
    case h_2 => exact agree.items _ _ (by grind) (by grind)
  case h_4 => rfl

theorem ReadersAgree.items_succ (agree : ReadersAgree first second) {done : List Json}
    (enough : 2 * r.chars.length + 1 < first + 1)
    (alsoEnough : 2 * r.chars.length + 1 < second + 1) :
    readItems (first + 1) r done = readItems (second + 1) r done := by
  rw [readItems, readItems, agree.value r (by omega) (by omega)]
  cases one : readValue second r with
  | error fault => rfl
  | ok pair =>
      obtain ⟨item, behind⟩ := pair
      have itemTaken := (readersShorten second).value one
      simp only [bind, Except.bind]
      split
      case h_1 => rfl
      case h_2 rest comma =>
        have commaTaken := Rest.length_lt_of_skipSpace comma
        have gap := Rest.length_skipSpace_le ⟨rest, behind.skipSpace.position + 1⟩
        exact agree.items _ _ (by grind) (by grind)
      case h_3 => rfl

theorem ReadersAgree.members_succ (agree : ReadersAgree first second)
    {done : List (String × Json)} (enough : 2 * r.chars.length + 1 < first + 1)
    (alsoEnough : 2 * r.chars.length + 1 < second + 1) :
    readMembers (first + 1) r done = readMembers (second + 1) r done := by
  rw [readMembers, readMembers]
  split
  case h_2 => rfl
  case h_1 rest begun =>
    cases text : readString r.position (rest.length + 1) ⟨rest, r.position + 1⟩ [] with
    | error fault => rfl
    | ok pair =>
        obtain ⟨key, afterKey⟩ := pair
        have keyTaken : afterKey.chars.length < rest.length := length_lt_of_readString text
        simp only [bind, Except.bind]
        split
        case h_2 => rfl
        case h_1 rest colon =>
          have colonTaken := Rest.length_lt_of_skipSpace colon
          have gap := Rest.length_skipSpace_le ⟨rest, afterKey.skipSpace.position + 1⟩
          rw [agree.value _ (by grind) (by grind)]
          cases one : readValue second (Rest.skipSpace ⟨rest, afterKey.skipSpace.position + 1⟩) with
          | error fault => rfl
          | ok pair =>
              obtain ⟨value, afterValue⟩ := pair
              have valueTaken := (readersShorten second).value one
              simp only
              split
              case h_1 => rfl
              case h_2 rest comma =>
                have commaTaken := Rest.length_lt_of_skipSpace comma
                have gap := Rest.length_skipSpace_le ⟨rest, afterValue.skipSpace.position + 1⟩
                exact agree.members _ _ (by grind) (by grind)
              case h_3 => rfl

theorem readersAgree (first second : Nat) : ReadersAgree first second := by
  induction first generalizing second with
  | zero =>
      exact
        { value := fun _ enough => absurd enough (Nat.not_lt_zero _)
          items := fun _ _ enough => absurd enough (Nat.not_lt_zero _)
          members := fun _ _ enough => absurd enough (Nat.not_lt_zero _) }
  | succ first ih =>
      cases second with
      | zero =>
          exact
            { value := fun _ _ enough => absurd enough (Nat.not_lt_zero _)
              items := fun _ _ _ enough => absurd enough (Nat.not_lt_zero _)
              members := fun _ _ _ enough => absurd enough (Nat.not_lt_zero _) }
      | succ second =>
          exact
            { value := fun _ => (ih second).value_succ
              items := fun _ _ => (ih second).items_succ
              members := fun _ _ => (ih second).members_succ }

end Agreement

/-- **The bound on reading never shows.** No text, whether it is JSON or not, is read or refused in
another way with a larger bound. -/
theorem readWithin_eq_read {bound : Nat} (text : List Char) (enough : 2 * text.length < bound) :
    readWithin bound text = read text := by
  have within : (Rest.skipSpace ⟨text, 0⟩).chars.length ≤ text.length :=
    Rest.length_skipSpace_le ⟨text, 0⟩
  rw [read, readWithin, readWithin,
    (readersAgree bound (2 * text.length + 1)).value _ (by omega) (by omega)]

example : read "[[[".toList = refuse .expectingValue 3 := rfl

end SourceAtlas.Json
