import Mathlib.Data.List.Basic

/-! # Patterns of a fixed width

The fragment of Python's regular expressions that validators are written in: `^`,
repetitions of one character class by an exact count, and `$`.  No part of such a
pattern has a choice, so a match is decided from left to right.

`$` holds at the end of the text, and also in front of one newline that ends the text;
that is why `^…$` accepts one text more than it spells (`fullLine_matches`).
-/

namespace SeismicIngest.Text

/-- `[first-last]`. -/
def inRange (first last c : Char) : Bool :=
  first.toNat ≤ c.toNat && c.toNat ≤ last.toNat

inductive Item where
  /-- `^` without `MULTILINE`. -/
  | start
  /-- A character class repeated `count` times. -/
  | times (count : Nat) (accepts : Char → Bool)
  /-- `$` without `MULTILINE`. -/
  | stop

abbrev Pattern := List Item

namespace Pattern

/-- The pattern matches at a position, `atStart` telling whether it is the first. -/
def matchesAt : Pattern → Bool → List Char → Bool
  | [], _, _ => true
  | .start :: items, atStart, rest => atStart && matchesAt items atStart rest
  | .times count accepts :: items, atStart, rest =>
    decide (count ≤ rest.length) && (rest.take count).all accepts &&
      matchesAt items (atStart && count == 0) (rest.drop count)
  | .stop :: items, atStart, rest =>
    (rest.isEmpty || rest == ['\n']) && matchesAt items atStart rest

/-- `re.compile(pattern).match(text)`: a match at the start, which need not reach the
    end. -/
def isMatch (pattern : Pattern) (text : List Char) : Bool :=
  pattern.matchesAt true text

/-- `^…{count}$`. -/
def fullLine (count : Nat) (accepts : Char → Bool) : Pattern :=
  [.start, .times count accepts, .stop]

/-- The texts of `count` characters of the class, with and without a newline behind
    them. -/
theorem fullLine_matches {count : Nat} {accepts : Char → Bool} {text : List Char} :
    (fullLine count accepts).isMatch text = true ↔
      ∃ body, (text = body ∨ text = body ++ ['\n']) ∧ body.length = count ∧
        ∀ c ∈ body, accepts c = true := by
  simp only [fullLine, isMatch, matchesAt, Bool.true_and, Bool.and_true, Bool.and_eq_true,
    Bool.or_eq_true, decide_eq_true_eq, List.all_eq_true, List.isEmpty_iff, beq_iff_eq]
  constructor
  · rintro ⟨⟨enough, accepted⟩, ended⟩
    have split := List.take_append_drop count text
    refine ⟨text.take count, ?_, by rw [List.length_take]; omega, accepted⟩
    obtain nothing | newline := ended
    · rw [nothing, List.append_nil] at split
      exact .inl split.symm
    · rw [newline] at split
      exact .inr split.symm
  · rintro ⟨body, rfl | rfl, rfl, accepted⟩
    · rw [List.take_length, List.drop_length]
      exact ⟨⟨Nat.le_refl _, accepted⟩, .inl rfl⟩
    · rw [List.take_left, List.drop_left]
      exact ⟨⟨by simp, accepted⟩, .inr rfl⟩

/-- Without a newline at the end of the text, `$` is its end. -/
theorem fullLine_matches_of_last {count : Nat} {accepts : Char → Bool} {text : List Char}
    (last : text.getLast? ≠ some '\n') :
    (fullLine count accepts).isMatch text = true ↔
      text.length = count ∧ ∀ c ∈ text, accepts c = true := by
  rw [fullLine_matches]
  constructor
  · rintro ⟨body, rfl | rfl, length, accepted⟩
    · exact ⟨length, accepted⟩
    · exact absurd List.getLast?_concat last
  · rintro ⟨length, accepted⟩
    exact ⟨text, .inl rfl, length, accepted⟩

end Pattern

end SeismicIngest.Text
