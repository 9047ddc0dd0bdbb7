import Mathlib.Data.List.TakeWhile
import Mathlib.Data.Char

/-! # JSON texts

Documents with integers for numbers, their compact text, and a reader of such texts.
The reader gives back every document that was written, whatever characters its strings
hold (`read_write`), so no string of a document can pass for a part of the document.
-/

namespace SeismicIngest.Text

inductive Json where
  | null
  | bool (value : Bool)
  | int (value : Int)
  | string (value : String)
  | array (items : List Json)
  | object (fields : List (String × Json))

namespace Json

/-! ## Writing -/

def quote : Char := Char.ofNat 34

def backslash : Char := Char.ofNat 92

/-- One character of a string. -/
def escape (c : Char) : List Char :=
  if c = quote ∨ c = backslash then [backslash, c]
  else if c = '\n' then [backslash, 'n']
  else if c = '\r' then [backslash, 'r']
  else if c = '\t' then [backslash, 't']
  else if c.toNat = 8 then [backslash, 'b']
  else if c.toNat = 12 then [backslash, 'f']
  else if c.toNat < 32 then
    [backslash, 'u', '0', '0', Nat.digitChar (c.toNat / 16), Nat.digitChar (c.toNat % 16)]
  else [c]

def writeString (text : String) : List Char :=
  quote :: text.toList.flatMap escape ++ [quote]

def writeInt : Int → List Char
  | .ofNat n => Nat.toDigits 10 n
  | .negSucc n => '-' :: Nat.toDigits 10 (n + 1)

mutual

/-- The text of a document, without blanks. -/
def write : Json → List Char
  | .null => ['n', 'u', 'l', 'l']
  | .bool true => ['t', 'r', 'u', 'e']
  | .bool false => ['f', 'a', 'l', 's', 'e']
  | .int value => writeInt value
  | .string value => writeString value
  | .array [] => ['[', ']']
  | .array (item :: items) => '[' :: (write item ++ writeItems items)
  | .object [] => ['{', '}']
  | .object ((name, value) :: fields) =>
    '{' :: (writeString name ++ ':' :: (write value ++ writeFields fields))

/-- The items behind the first, and the bracket. -/
def writeItems : List Json → List Char
  | [] => [']']
  | item :: items => ',' :: (write item ++ writeItems items)

def writeFields : List (String × Json) → List Char
  | [] => ['}']
  | (name, value) :: fields =>
    ',' :: (writeString name ++ ':' :: (write value ++ writeFields fields))

end

/-! ## Reading -/

/-- The value of a hexadecimal digit. -/
def digitValue (c : Char) : Nat :=
  if c.isDigit then c.toNat - 48 else c.toNat - 87

/-- The character behind a backslash. -/
def unescape (c : Char) : Char :=
  if c = 'n' then '\n'
  else if c = 'r' then '\r'
  else if c = 't' then '\t'
  else if c = 'b' then Char.ofNat 8
  else if c = 'f' then Char.ofNat 12
  else c

/-- The rest of a string, and what follows its closing quote. -/
def readString : List Char → Option (List Char × List Char)
  | [] => none
  | c :: rest =>
    if c = quote then some ([], rest)
    else if c = backslash then
      match rest with
      | 'u' :: _ :: _ :: high :: low :: rest =>
        (readString rest).map fun (text, rest) =>
          (Char.ofNat (16 * digitValue high + digitValue low) :: text, rest)
      | escaped :: rest => (readString rest).map fun (text, rest) => (unescape escaped :: text, rest)
      | [] => none
    else (readString rest).map fun (text, rest) => (c :: text, rest)

def readNat (text : List Char) : Option (Nat × List Char) :=
  let digits := text.takeWhile Char.isDigit
  if digits = [] then none else some (Nat.ofDigitChars 10 digits 0, text.dropWhile Char.isDigit)

/-- A fixed word, and the document it stands for. -/
def readWord (word : List Char) (value : Json) (text : List Char) : Option (Json × List Char) :=
  if word <+: text then some (value, text.drop word.length) else none

mutual

/-- The document at the front of a text, and what follows it. -/
def readValue : Nat → List Char → Option (Json × List Char)
  | 0, _ | _, [] => none
  | fuel + 1, c :: rest =>
    if c = 'n' then readWord ['u', 'l', 'l'] .null rest
    else if c = 't' then readWord ['r', 'u', 'e'] (.bool true) rest
    else if c = 'f' then readWord ['a', 'l', 's', 'e'] (.bool false) rest
    else if c = '-' then (readNat rest).map fun (n, rest) => (.int (-n), rest)
    else if c = quote then
      (readString rest).map fun (text, rest) => (.string (String.ofList text), rest)
    else if c = '[' then
      if rest.head? = some ']' then some (.array [], rest.tail)
      else
        (readValue fuel rest).bind fun (item, rest) =>
          (readItems fuel rest).map fun (items, rest) => (.array (item :: items), rest)
    else if c = '{' then
      if rest.head? = some '}' then some (.object [], rest.tail)
      else
        (readField fuel rest).bind fun (field, rest) =>
          (readFields fuel rest).map fun (fields, rest) => (.object (field :: fields), rest)
    else (readNat (c :: rest)).map fun (n, rest) => (.int n, rest)

def readItems : Nat → List Char → Option (List Json × List Char)
  | 0, _ | _, [] => none
  | fuel + 1, c :: rest =>
    if c = ']' then some ([], rest)
    else if c = ',' then
      (readValue fuel rest).bind fun (item, rest) =>
        (readItems fuel rest).map fun (items, rest) => (item :: items, rest)
    else none

def readField : Nat → List Char → Option ((String × Json) × List Char)
  | 0, _ | _, [] => none
  | fuel + 1, c :: rest =>
    if c = quote then
      (readString rest).bind fun (name, rest) =>
        if rest.head? = some ':' then
          (readValue fuel rest.tail).map fun (value, rest) => ((String.ofList name, value), rest)
        else none
    else none

def readFields : Nat → List Char → Option (List (String × Json) × List Char)
  | 0, _ | _, [] => none
  | fuel + 1, c :: rest =>
    if c = '}' then some ([], rest)
    else if c = ',' then
      (readField fuel rest).bind fun (field, rest) =>
        (readFields fuel rest).map fun (fields, rest) => (field :: fields, rest)
    else none

end

/-- The document that is the whole text. -/
def read (text : List Char) : Option Json :=
  match readValue (text.length + 1) text with
  | some (value, []) => some value
  | _ => none

/-! ## Reading what was written -/

theorem digitValue_digitChar {n : Nat} (inside : n < 16) : digitValue (Nat.digitChar n) = n := by
  have all : ∀ n : Fin 16, digitValue (Nat.digitChar n) = n := by decide
  exact all ⟨n, inside⟩

theorem readString_escape (c : Char) (rest : List Char) :
    readString (escape c ++ rest) = (readString rest).map fun (text, rest) => (c :: text, rest) := by
  by_cases special : c = quote ∨ c = backslash
  · obtain rfl | rfl := special <;> rfl
  · obtain ⟨noQuote, noBackslash⟩ := not_or.mp special
    rw [escape, if_neg special]
    split_ifs with newline carriage tab backspace feed control
    · subst newline
      rfl
    · subst carriage
      rfl
    · subst tab
      rfl
    · obtain rfl : c = Char.ofNat 8 := Char.toNat_inj.mp backspace
      rfl
    · obtain rfl : c = Char.ofNat 12 := Char.toNat_inj.mp feed
      rfl
    · -- the two hexadecimal digits of a control character
      have rebuilt : Char.ofNat (16 * digitValue (Nat.digitChar (c.toNat / 16)) +
          digitValue (Nat.digitChar (c.toNat % 16))) = c := by
        rw [digitValue_digitChar (by omega), digitValue_digitChar (by omega), Nat.div_add_mod]
        exact Char.ofNat_toNat c
      change (readString rest).map _ = _
      rw [rebuilt]
    · rw [List.singleton_append, readString.eq_def]
      simp only [noQuote, noBackslash, if_false]

theorem readString_write (text rest : List Char) :
    readString (text.flatMap escape ++ quote :: rest) = some (text, rest) := by
  induction text with
  | nil =>
    change readString (quote :: rest) = _
    rw [readString.eq_def]
    exact if_pos rfl
  | cons c text inductionHypothesis =>
    rw [List.flatMap_cons, List.append_assoc, readString_escape, inductionHypothesis]
    rfl

/-- No digit comes first. -/
def Apart (rest : List Char) : Prop :=
  rest.takeWhile Char.isDigit = []

theorem readNat_write (n : Nat) {rest : List Char} (apart : Apart rest) :
    readNat (Nat.toDigits 10 n ++ rest) = some (n, rest) := by
  have digits : ∀ c ∈ Nat.toDigits 10 n, c.isDigit = true :=
    fun c member => Nat.isDigit_of_mem_toDigits (by decide) (by decide) member
  have dropped : rest.dropWhile Char.isDigit = rest := by
    have split := List.takeWhile_append_dropWhile (p := Char.isDigit) (l := rest)
    rwa [apart, List.nil_append] at split
  rw [readNat, List.takeWhile_append_of_pos digits, List.dropWhile_append_of_pos digits, apart, dropped,
    List.append_nil]
  simp only [Nat.toDigits_ne_nil, if_false, Nat.ofDigitChars_ten_toDigits]

/-- A document starts with a character that closes nothing, and ends. -/
theorem write_head (value : Json) :
    ∃ c rest, write value = c :: rest ∧ c ≠ ']' := by
  cases value with
  | null => exact ⟨_, _, rfl, by decide⟩
  | bool value => cases value <;> exact ⟨_, _, rfl, by decide⟩
  | int value =>
    cases value with
    | ofNat n =>
      obtain ⟨c, rest, split⟩ := List.exists_cons_of_ne_nil (Nat.toDigits_ne_nil (b := 10) (n := n))
      refine ⟨c, rest, split, ?_⟩
      rintro rfl
      have digit : (']').isDigit = true :=
        Nat.isDigit_of_mem_toDigits (by decide) (by decide) (split ▸ List.mem_cons_self)
      exact absurd digit (by decide)
    | negSucc n => exact ⟨_, _, rfl, by decide⟩
  | string value => exact ⟨_, _, rfl, by decide⟩
  | array items => cases items <;> exact ⟨_, _, rfl, by decide⟩
  | object fields => cases fields <;> exact ⟨_, _, rfl, by decide⟩

/-- The characters that `readValue` tells documents by are no digits. -/
theorem toDigits_head (n : Nat) :
    ∃ c rest, Nat.toDigits 10 n = c :: rest ∧ c.isDigit = true := by
  obtain ⟨c, rest, split⟩ := List.exists_cons_of_ne_nil (Nat.toDigits_ne_nil (b := 10) (n := n))
  exact ⟨c, rest, split,
    Nat.isDigit_of_mem_toDigits (by decide) (by decide) (split ▸ List.mem_cons_self)⟩

theorem readValue_digit {c : Char} (digit : c.isDigit = true) (fuel : Nat) (rest : List Char) :
    readValue (fuel + 1) (c :: rest) =
      (readNat (c :: rest)).map fun (n, rest) => (.int n, rest) := by
  have differs : ∀ {other : Char}, other.isDigit = false → c ≠ other := by
    rintro other noDigit rfl
    rw [digit] at noDigit
    cases noDigit
  rw [readValue, if_neg (differs rfl), if_neg (differs rfl), if_neg (differs rfl), if_neg (differs rfl),
    if_neg (differs rfl), if_neg (differs rfl), if_neg (differs rfl)]

theorem readInt_write (value : Int) (fuel : Nat) {rest : List Char} (apart : Apart rest) :
    readValue (fuel + 1) (writeInt value ++ rest) = some (.int value, rest) := by
  cases value with
  | ofNat n =>
    obtain ⟨c, digits, split, digit⟩ := toDigits_head n
    have number := readNat_write n apart
    rw [writeInt]
    rw [split, List.cons_append] at number ⊢
    rw [readValue_digit digit, number]
    rfl
  | negSucc n =>
    change (readNat (Nat.toDigits 10 (n + 1) ++ rest)).map _ = _
    rw [readNat_write _ apart]
    rfl

theorem readWord_write (word : List Char) (value : Json) (rest : List Char) :
    readWord word value (word ++ rest) = some (value, rest) := by
  rw [readWord, if_pos (List.prefix_append _ _), List.drop_left]

/-- Brackets and commas stand apart from numbers. -/
theorem apart_items (items : List Json) (rest : List Char) : Apart (writeItems items ++ rest) := by
  cases items <;> simp [writeItems, Apart]

theorem apart_fields (fields : List (String × Json)) (rest : List Char) :
    Apart (writeFields fields ++ rest) := by
  cases fields with
  | nil => simp [writeFields, Apart]
  | cons field fields => simp [writeFields, Apart]

/-- A field is read once its value is. -/
theorem readField_write (name : String) (value : Json) (fuel : Nat) (rest : List Char)
    (valueRead : readValue fuel (write value ++ rest) = some (value, rest)) :
    readField (fuel + 1) (writeString name ++ ':' :: (write value ++ rest)) =
      some ((name, value), rest) := by
  have string := readString_write name.toList (':' :: (write value ++ rest))
  rw [writeString, List.cons_append, List.cons_append, List.append_assoc]
  change (readString (name.toList.flatMap escape ++ quote :: ':' :: (write value ++ rest))).bind _ = _
  rw [string]
  simp [valueRead]

theorem readValue_array {rest : List Char} (opens : rest.head? ≠ some ']') (fuel : Nat) :
    readValue (fuel + 1) ('[' :: rest) =
      (readValue fuel rest).bind fun (item, rest) =>
        (readItems fuel rest).map fun (items, rest) => (.array (item :: items), rest) :=
  if_neg opens

theorem readValue_object {rest : List Char} (opens : rest.head? ≠ some '}') (fuel : Nat) :
    readValue (fuel + 1) ('{' :: rest) =
      (readField fuel rest).bind fun (field, rest) =>
        (readFields fuel rest).map fun (fields, rest) => (.object (field :: fields), rest) :=
  if_neg opens

mutual

/-- What is written of a document is read back, whatever follows it. -/
theorem readValue_write : ∀ (value : Json) (fuel : Nat) (rest : List Char),
    (write value).length < fuel → Apart rest → readValue fuel (write value ++ rest) = some (value, rest)
  | value, 0, _, enough, _ => absurd enough (Nat.not_lt_zero _)
  | .null, fuel + 1, rest, _, _ => readWord_write ['u', 'l', 'l'] .null rest
  | .bool true, fuel + 1, rest, _, _ => readWord_write ['r', 'u', 'e'] (.bool true) rest
  | .bool false, fuel + 1, rest, _, _ => readWord_write ['a', 'l', 's', 'e'] (.bool false) rest
  | .int value, fuel + 1, rest, _, apart => readInt_write value fuel apart
  | .string value, fuel + 1, rest, _, _ => by
    have string := readString_write value.toList rest
    rw [write, writeString, List.cons_append, List.cons_append, List.append_assoc]
    change (readString (value.toList.flatMap escape ++ quote :: rest)).map _ = _
    rw [string]
    simp
  | .array [], fuel + 1, rest, _, _ => rfl
  | .array (item :: items), fuel + 1, rest, enough, apart => by
    simp only [write, List.length_cons, List.length_append] at enough
    have first := readValue_write item fuel (writeItems items ++ rest) (by omega) (apart_items items rest)
    have others := readItems_write items fuel rest (by omega)
    obtain ⟨c, behind, split, noBracket⟩ := write_head item
    have opens : (write item ++ (writeItems items ++ rest)).head? ≠ some ']' := by
      simp [split, noBracket]
    rw [write, List.cons_append, List.append_assoc]
    rw [readValue_array opens, first]
    simp [others]
  | .object [], fuel + 1, rest, _, _ => rfl
  | .object ((name, value) :: fields), fuel + 1, rest, enough, apart => by
    simp only [write, List.length_cons, List.length_append] at enough
    obtain ⟨fuel, rfl⟩ : ∃ less, fuel = less + 1 := ⟨fuel - 1, by omega⟩
    have first := readField_write name value fuel (writeFields fields ++ rest)
      (readValue_write value fuel _ (by omega) (apart_fields fields rest))
    have others := readFields_write fields (fuel + 1) rest (by omega)
    rw [write, List.cons_append, List.append_assoc, List.cons_append, List.append_assoc]
    have opens : (writeString name ++ ':' :: (write value ++ (writeFields fields ++ rest))).head? ≠
        some '}' := by
      simp [writeString, quote]
    rw [readValue_object opens, first]
    simp [others]

theorem readItems_write : ∀ (items : List Json) (fuel : Nat) (rest : List Char),
    (writeItems items).length < fuel → readItems fuel (writeItems items ++ rest) = some (items, rest)
  | _, 0, _, enough => absurd enough (Nat.not_lt_zero _)
  | [], fuel + 1, rest, _ => rfl
  | item :: items, fuel + 1, rest, enough => by
    simp only [writeItems, List.length_cons, List.length_append] at enough
    have first := readValue_write item fuel (writeItems items ++ rest) (by omega) (apart_items items rest)
    have others := readItems_write items fuel rest (by omega)
    rw [writeItems, List.cons_append, List.append_assoc]
    change (readValue fuel (write item ++ (writeItems items ++ rest))).bind _ = _
    rw [first]
    simp [others]

theorem readFields_write : ∀ (fields : List (String × Json)) (fuel : Nat) (rest : List Char),
    (writeFields fields).length < fuel →
      readFields fuel (writeFields fields ++ rest) = some (fields, rest)
  | _, 0, _, enough => absurd enough (Nat.not_lt_zero _)
  | [], fuel + 1, rest, _ => rfl
  | (name, value) :: fields, fuel + 1, rest, enough => by
    simp only [writeFields, List.length_cons, List.length_append] at enough
    obtain ⟨fuel, rfl⟩ : ∃ less, fuel = less + 1 := ⟨fuel - 1, by omega⟩
    have first := readField_write name value fuel (writeFields fields ++ rest)
      (readValue_write value fuel _ (by omega) (apart_fields fields rest))
    have others := readFields_write fields (fuel + 1) rest (by omega)
    rw [writeFields, List.cons_append, List.append_assoc, List.cons_append, List.append_assoc]
    change (readField (fuel + 1)
      (writeString name ++ ':' :: (write value ++ (writeFields fields ++ rest)))).bind _ = _
    rw [first]
    simp [others]

end

theorem read_write (value : Json) : read (write value) = some value := by
  have whole := readValue_write value ((write value).length + 1) [] (Nat.lt_succ_self _) rfl
  rw [List.append_nil] at whole
  rw [read, whole]

/-! ## Parts of a document -/

/-- The first field of the name. -/
def field? (name : String) : Json → Option Json
  | .object fields => fields.lookup name
  | _ => none

def int? : Json → Option Int
  | .int value => some value
  | _ => none

def string? : Json → Option String
  | .string value => some value
  | _ => none

def bool? : Json → Option Bool
  | .bool value => some value
  | _ => none

section

variable {α : Type} (reader : Json → Option α)

def nullable? : Json → Option (Option α)
  | .null => some none
  | value => (reader value).map some

def list? : Json → Option (List α)
  | .array items => items.mapM reader
  | _ => none

end

/-- The value of a field. -/
def get? {α : Type} (document : Json) (name : String) (reader : Json → Option α) : Option α :=
  (document.field? name).bind reader

/-- What is written of each value of a list is read back. -/
theorem mapM_back {α β : Type} {writer : α → β} {reader : β → Option α}
    (back : ∀ value, reader (writer value) = some value) (values : List α) :
    (values.map writer).mapM reader = some values := by
  have same : reader ∘ writer = some := funext back
  rw [List.mapM_map, same]
  exact List.mapM_pure.trans (congrArg some values.map_id')

end Json

end SeismicIngest.Text
