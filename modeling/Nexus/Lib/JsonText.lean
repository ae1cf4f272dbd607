import Nexus.Lib.OrderedMap

/-!
# JSON texts

JSON values over any type of numbers, their texts as `JSON.stringify` writes them, and the reader of
JSON texts. Of the numbers only this is assumed (`NumberText`): a number has a text of number
characters that is read as the number.

`read_text`: the text of a value in whose records no name occurs twice is read as the value. The
text of a value has no control character, so it is one line (`printable_of_mem_text`).
-/

set_option autoImplicit false

namespace Nexus

/-- JSON values; the fields of a record are in the order in which they are written. -/
inductive JsonValue (ν : Type) where
  | null
  | bool (b : Bool)
  | num (n : ν)
  | str (s : String)
  | arr (items : List (JsonValue ν))
  | obj (fields : List (String × JsonValue ν))

namespace JsonText

variable {ν : Type}

/-! ## Numbers -/

/-- The characters of a number. -/
def isNumberChar (c : Char) : Bool :=
  c.isDigit || c = '-' || c = '+' || c = '.' || c = 'e' || c = 'E'

/-- Texts of numbers that are read as the numbers. -/
structure NumberText (ν : Type) where
  text : ν → List Char
  read : List Char → Option ν
  text_ne_nil : ∀ n, text n ≠ []
  isNumberChar_of_mem : ∀ n, ∀ c ∈ text n, isNumberChar c = true
  read_text : ∀ n, read (text n) = some n

/-! ## Texts -/

/-- The escape of a character in a string. -/
def escape (c : Char) : List Char :=
  if c = '"' then ['\\', '"']
  else if c = '\\' then ['\\', '\\']
  else if c.toNat = 8 then ['\\', 'b']
  else if c.toNat = 9 then ['\\', 't']
  else if c.toNat = 10 then ['\\', 'n']
  else if c.toNat = 12 then ['\\', 'f']
  else if c.toNat = 13 then ['\\', 'r']
  else if c.toNat < 32 then
    ['\\', 'u', '0', '0', Nat.digitChar (c.toNat / 16), Nat.digitChar (c.toNat % 16)]
  else [c]

/-- A string between its quotes. -/
def quoted (s : String) : List Char := '"' :: (s.toList.flatMap escape ++ ['"'])

mutual

/-- The text of a value. -/
def text (N : NumberText ν) : JsonValue ν → List Char
  | .null => ['n', 'u', 'l', 'l']
  | .bool true => ['t', 'r', 'u', 'e']
  | .bool false => ['f', 'a', 'l', 's', 'e']
  | .num n => N.text n
  | .str s => quoted s
  | .arr [] => ['[', ']']
  | .arr (item :: items) => '[' :: (text N item ++ moreItems N items)
  | .obj [] => ['{', '}']
  | .obj ((k, v) :: fields) => '{' :: (quoted k ++ ':' :: (text N v ++ moreFields N fields))

/-- The items behind another one, and the end of the list. -/
def moreItems (N : NumberText ν) : List (JsonValue ν) → List Char
  | [] => [']']
  | item :: items => ',' :: (text N item ++ moreItems N items)

/-- The fields behind another one, and the end of the record. -/
def moreFields (N : NumberText ν) : List (String × JsonValue ν) → List Char
  | [] => ['}']
  | (k, v) :: fields => ',' :: (quoted k ++ ':' :: (text N v ++ moreFields N fields))

end

/-! ## Reading -/

/-- The white space of JSON. -/
def isSpace (c : Char) : Bool := c = ' ' || c.toNat = 9 || c.toNat = 10 || c.toNat = 13

def skipSpace (cs : List Char) : List Char := cs.dropWhile isSpace

/-- The value of a hexadecimal digit. -/
def hexDigit? (c : Char) : Option Nat :=
  if '0' ≤ c ∧ c ≤ '9' then some (c.toNat - 48)
  else if 'a' ≤ c ∧ c ≤ 'f' then some (c.toNat - 87)
  else if 'A' ≤ c ∧ c ≤ 'F' then some (c.toNat - 55)
  else none

/-- Four hexadecimal digits. -/
def readHex : List Char → Option (Nat × List Char)
  | a :: b :: c :: d :: rest => do
      let a ← hexDigit? a
      let b ← hexDigit? b
      let c ← hexDigit? c
      let d ← hexDigit? d
      return (((a * 16 + b) * 16 + c) * 16 + d, rest)
  | _ => none

/-- The character of a code unit; half a surrogate pair is no character and is replaced. -/
def unitChar (n : Nat) : Char :=
  if 0xD800 ≤ n ∧ n < 0xE000 then Char.ofNat 0xFFFD else Char.ofNat n

/-- What stands behind `\u`: a code unit, or a surrogate pair. -/
def readUnicode (cs : List Char) : Option (Char × List Char) :=
  match readHex cs with
  | none => none
  | some (high, rest) =>
      if 0xD800 ≤ high ∧ high < 0xDC00 then
        match rest with
        | '\\' :: 'u' :: rest' =>
            match readHex rest' with
            | some (low, rest'') =>
                if 0xDC00 ≤ low ∧ low < 0xE000 then
                  some (Char.ofNat (0x10000 + (high - 0xD800) * 0x400 + (low - 0xDC00)), rest'')
                else some (unitChar high, rest)
            | none => some (unitChar high, rest)
        | _ => some (unitChar high, rest)
      else some (unitChar high, rest)

/-- What stands behind a backslash. -/
def readEscape : List Char → Option (Char × List Char)
  | [] => none
  | c :: cs =>
      if c = '"' then some ('"', cs)
      else if c = '\\' then some ('\\', cs)
      else if c = '/' then some ('/', cs)
      else if c = 'b' then some (Char.ofNat 8, cs)
      else if c = 't' then some (Char.ofNat 9, cs)
      else if c = 'n' then some (Char.ofNat 10, cs)
      else if c = 'f' then some (Char.ofNat 12, cs)
      else if c = 'r' then some (Char.ofNat 13, cs)
      else if c = 'u' then readUnicode cs
      else none

/-- The characters of a string behind its first quote, and what comes after the last one. -/
def readChars : Nat → List Char → Option (List Char × List Char)
  | 0, _ => none
  | _ + 1, [] => none
  | fuel + 1, c :: cs =>
      if c = '"' then some ([], cs)
      else if c = '\\' then
        match readEscape cs with
        | none => none
        | some (c', rest) => (readChars fuel rest).map fun r => (c' :: r.1, r.2)
      else if c.toNat < 32 then none
      else (readChars fuel cs).map fun r => (c :: r.1, r.2)

/-- Every turn takes a character, so the length is enough. -/
def readString (cs : List Char) : Option (String × List Char) :=
  (readChars (cs.length + 1) cs).map fun r => (String.ofList r.1, r.2)

def readNumber (N : NumberText ν) (cs : List Char) : Option (JsonValue ν × List Char) :=
  (N.read (cs.takeWhile isNumberChar)).map fun n => (.num n, cs.dropWhile isNumberChar)

/-- A literal at the start. -/
def readLiteral (literal : List Char) (v : JsonValue ν) (cs : List Char) :
    Option (JsonValue ν × List Char) :=
  if literal <+: cs then some (v, cs.drop literal.length) else none

/-- The record of the fields read; a name that comes again has its last value. -/
def collect (fields : List (String × JsonValue ν)) : JsonValue ν :=
  .obj (fields.foldl (fun record field => OrderedMap.set record field.1 field.2) [])

mutual

def readValue (N : NumberText ν) : Nat → List Char → Option (JsonValue ν × List Char)
  | 0, _ => none
  | fuel + 1, cs =>
      match skipSpace cs with
      | [] => none
      | c :: rest =>
          if c = '"' then (readString rest).map fun r => (.str r.1, r.2)
          else if c = '[' then
            match skipSpace rest with
            | ']' :: rest' => some (.arr [], rest')
            | _ => (readItems N fuel rest).map fun r => (.arr r.1, r.2)
          else if c = '{' then
            match skipSpace rest with
            | '}' :: rest' => some (.obj [], rest')
            | _ => (readFields N fuel rest).map fun r => (collect r.1, r.2)
          else if c = 'n' then readLiteral ['n', 'u', 'l', 'l'] .null (c :: rest)
          else if c = 't' then readLiteral ['t', 'r', 'u', 'e'] (.bool true) (c :: rest)
          else if c = 'f' then readLiteral ['f', 'a', 'l', 's', 'e'] (.bool false) (c :: rest)
          else readNumber N (c :: rest)

def readItems (N : NumberText ν) : Nat → List Char → Option (List (JsonValue ν) × List Char)
  | 0, _ => none
  | fuel + 1, cs =>
      match readValue N fuel cs with
      | none => none
      | some (item, rest) =>
          match skipSpace rest with
          | ']' :: rest' => some ([item], rest')
          | ',' :: rest' => (readItems N fuel rest').map fun r => (item :: r.1, r.2)
          | _ => none

def readFields (N : NumberText ν) :
    Nat → List Char → Option (List (String × JsonValue ν) × List Char)
  | 0, _ => none
  | fuel + 1, cs =>
      match readField N fuel cs with
      | none => none
      | some (field, rest) =>
          match skipSpace rest with
          | '}' :: rest' => some ([field], rest')
          | ',' :: rest' => (readFields N fuel rest').map fun r => (field :: r.1, r.2)
          | _ => none

def readField (N : NumberText ν) :
    Nat → List Char → Option ((String × JsonValue ν) × List Char)
  | 0, _ => none
  | fuel + 1, cs =>
      match skipSpace cs with
      | '"' :: rest =>
          match readString rest with
          | none => none
          | some (k, rest') =>
              match skipSpace rest' with
              | ':' :: rest'' => (readValue N fuel rest'').map fun r => ((k, r.1), r.2)
              | _ => none
      | _ => none

end

/-- `JSON.parse`; `none` is a `SyntaxError`. -/
def read (N : NumberText ν) (cs : List Char) : Option (JsonValue ν) :=
  match readValue N (3 * cs.length + 3) cs with
  | some (v, rest) => if skipSpace rest = [] then some v else none
  | none => none

/-! ## Values that a text determines -/

mutual

/-- No name occurs twice in a record of the value. -/
def Distinct : JsonValue ν → Prop
  | .arr items => DistinctItems items
  | .obj fields => (fields.map Prod.fst).Nodup ∧ DistinctFields fields
  | .null => True
  | .bool _ => True
  | .num _ => True
  | .str _ => True

def DistinctItems : List (JsonValue ν) → Prop
  | [] => True
  | item :: items => Distinct item ∧ DistinctItems items

def DistinctFields : List (String × JsonValue ν) → Prop
  | [] => True
  | (_, v) :: fields => Distinct v ∧ DistinctFields fields

end

mutual

/-- The turns that reading the text of a value takes. -/
def size : JsonValue ν → Nat
  | .arr items => 1 + itemsSize items
  | .obj fields => 1 + fieldsSize fields
  | .null => 1
  | .bool _ => 1
  | .num _ => 1
  | .str _ => 1

def itemsSize : List (JsonValue ν) → Nat
  | [] => 0
  | item :: items => 1 + size item + itemsSize items

def fieldsSize : List (String × JsonValue ν) → Nat
  | [] => 0
  | (_, v) :: fields => 2 + size v + fieldsSize fields

end

/-! ## Strings are read back -/

variable {n : Nat}

section Strings

variable {c : Char} {cs rest : List Char} {fuel : Nat}

theorem escape_ne_nil (c : Char) : escape c ≠ [] := by
  unfold escape
  repeat' split
  all_goals simp

theorem readHex_digits (hn : n < 32) (rest : List Char) :
    readHex ('0' :: '0' :: Nat.digitChar (n / 16) :: Nat.digitChar (n % 16) :: rest) =
      some (n, rest) := by
  have hdigits : ∀ n < 32, (hexDigit? (Nat.digitChar (n / 16))).isSome ∧
      (hexDigit? (Nat.digitChar (n / 16))).getD 0 = n / 16 ∧
      (hexDigit? (Nat.digitChar (n % 16))).isSome ∧
      (hexDigit? (Nat.digitChar (n % 16))).getD 0 = n % 16 := by
    decide
  obtain ⟨hsome, hhigh, hsome', hlow⟩ := hdigits n hn
  obtain ⟨high, hhigh'⟩ := Option.isSome_iff_exists.1 hsome
  obtain ⟨low, hlow'⟩ := Option.isSome_iff_exists.1 hsome'
  rw [hhigh', Option.getD_some] at hhigh
  rw [hlow', Option.getD_some] at hlow
  have hzero : hexDigit? '0' = some 0 := by decide
  simp only [readHex, hzero, hhigh', hlow', Option.bind_eq_bind, Option.bind_some]
  congr 2
  omega

theorem unitChar_toNat (hc : c.toNat = n) (hn : n < 32) : unitChar n = c := by
  rw [unitChar, if_neg (by omega), ← hc, Char.ofNat_toNat]

theorem ofNat_of_toNat (h : c.toNat = n) : Char.ofNat n = c := by
  rw [← h, Char.ofNat_toNat]

/-- A backslash and what stands behind it. -/
theorem readChars_backslash (h : readEscape cs = some (c, rest)) :
    readChars (fuel + 1) ('\\' :: cs) = (readChars fuel rest).map fun r => (c :: r.1, r.2) := by
  have hslash : '\\' ≠ '"' := by decide
  rw [readChars, if_neg hslash, if_pos rfl, h]

/-- The escape of a character is read as the character. -/
theorem readChars_escape (c : Char) (rest : List Char) :
    readChars (fuel + 1) (escape c ++ rest) =
      (readChars fuel rest).map fun r => (c :: r.1, r.2) := by
  unfold escape
  iterate 2
    split
    · rename_i hc
      exact readChars_backslash (by rw [hc]; rfl)
  iterate 5
    split
    · rename_i hc
      exact readChars_backslash (by rw [← ofNat_of_toNat hc]; rfl)
  split
  · rename_i hc
    apply readChars_backslash
    have hunicode : readEscape ('u' :: '0' :: '0' :: Nat.digitChar (c.toNat / 16) ::
        Nat.digitChar (c.toNat % 16) :: rest) = readUnicode ('0' :: '0' ::
          Nat.digitChar (c.toNat / 16) :: Nat.digitChar (c.toNat % 16) :: rest) := rfl
    exact hunicode.trans (by
      rw [readUnicode, readHex_digits hc]
      simp only
      rw [if_neg (by omega), unitChar_toNat rfl hc])
  · rename_i hquote hslash _ _ _ _ _ hc
    rw [List.singleton_append, readChars, if_neg hquote, if_neg hslash, if_neg hc]

/-- The characters of a string are read up to its last quote. -/
theorem readChars_escapes (cs rest : List Char) (h : cs.length < fuel) :
    readChars fuel (cs.flatMap escape ++ '"' :: rest) = some (cs, rest) := by
  induction cs generalizing fuel with
  | nil =>
      obtain ⟨fuel, rfl⟩ := Nat.exists_eq_add_of_lt h
      simp [readChars]
  | cons c cs ih =>
      obtain ⟨fuel, rfl⟩ : ∃ fuel', fuel = fuel' + 1 := ⟨fuel - 1, by omega⟩
      rw [List.flatMap_cons, List.append_assoc, readChars_escape, ih (by simpa using h)]
      rfl

theorem readString_quoted (s : String) (rest : List Char) :
    readString (s.toList.flatMap escape ++ '"' :: rest) = some (s, rest) := by
  have hlength : s.toList.length ≤ (s.toList.flatMap escape).length := by
    induction s.toList with
    | nil => exact Nat.le_refl _
    | cons c cs ih =>
        have hescape := List.length_pos_of_ne_nil (escape_ne_nil c)
        rw [List.flatMap_cons, List.length_append, List.length_cons]
        omega
  have hfuel : s.toList.length < (s.toList.flatMap escape ++ '"' :: rest).length + 1 := by
    rw [List.length_append]
    omega
  rw [readString, readChars_escapes _ _ hfuel, Option.map_some, String.ofList_toList]

end Strings

/-! ## Values are read back -/

variable {v : JsonValue ν}

section Values

variable {N : NumberText ν}

/-- No number goes on in what comes after a value. -/
def NumberEnds (rest : List Char) : Prop := ∀ c ∈ rest.head?, isNumberChar c = false

theorem skipSpace_cons {c : Char} (h : isSpace c = false) (cs : List Char) :
    skipSpace (c :: cs) = c :: cs := by
  rw [skipSpace, List.dropWhile_cons_of_neg (by simp [h])]

/-- The characters that number texts have none of. -/
theorem isNumberChar_ne {c c' : Char} (h : isNumberChar c = true) (h' : isNumberChar c' = false) :
    c ≠ c' := by
  rintro rfl
  exact Bool.noConfusion (h.symm.trans h')

theorem text_num_head (n : ν) : ∃ c cs, N.text n = c :: cs ∧ isNumberChar c = true := by
  obtain ⟨c, cs, htext⟩ := List.exists_cons_of_ne_nil (N.text_ne_nil n)
  exact ⟨c, cs, htext, N.isNumberChar_of_mem n c (by rw [htext]; exact List.mem_cons_self)⟩

theorem isSpace_of_isNumberChar {c : Char} (h : isNumberChar c = true) : isSpace c = false := by
  cases hspace : isSpace c with
  | false => rfl
  | true =>
      have hchar : c = ' ' ∨ c = Char.ofNat 9 ∨ c = Char.ofNat 10 ∨ c = Char.ofNat 13 := by
        simp only [isSpace, Bool.or_eq_true, decide_eq_true_eq, or_assoc] at hspace
        exact hspace.imp_right (.imp (fun h => (ofNat_of_toNat h).symm)
          (.imp (fun h => (ofNat_of_toNat h).symm) fun h => (ofNat_of_toNat h).symm))
      rcases hchar with rfl | rfl | rfl | rfl <;> exact absurd h (by decide)

/-- The text of a value starts with no white space and closes no list or record. -/
theorem text_head (v : JsonValue ν) :
    ∃ c cs, text N v = c :: cs ∧ isSpace c = false ∧ c ≠ ']' ∧ c ≠ '}' := by
  cases v with
  | null => exact ⟨_, _, rfl, by decide, by decide, by decide⟩
  | bool b =>
      cases b with
      | true => exact ⟨_, _, rfl, by decide, by decide, by decide⟩
      | false => exact ⟨_, _, rfl, by decide, by decide, by decide⟩
  | num n =>
      obtain ⟨c, cs, htext, hc⟩ := text_num_head (N := N) n
      exact ⟨c, cs, htext, isSpace_of_isNumberChar hc, isNumberChar_ne hc (by decide),
        isNumberChar_ne hc (by decide)⟩
  | str s => exact ⟨_, _, rfl, by decide, by decide, by decide⟩
  | arr items =>
      cases items with
      | nil => exact ⟨_, _, rfl, by decide, by decide, by decide⟩
      | cons item items => exact ⟨_, _, rfl, by decide, by decide, by decide⟩
  | obj fields =>
      cases fields with
      | nil => exact ⟨_, _, rfl, by decide, by decide, by decide⟩
      | cons field fields => exact ⟨_, _, rfl, by decide, by decide, by decide⟩

theorem numberEnds_moreItems (items : List (JsonValue ν)) (rest : List Char) :
    NumberEnds (moreItems N items ++ rest) := by
  cases items with
  | nil =>
      rintro c ⟨⟩
      decide
  | cons item items =>
      rintro c ⟨⟩
      decide

theorem numberEnds_moreFields (fields : List (String × JsonValue ν)) (rest : List Char) :
    NumberEnds (moreFields N fields ++ rest) := by
  cases fields with
  | nil =>
      rintro c ⟨⟩
      decide
  | cons field fields =>
      rintro c ⟨⟩
      decide

theorem readNumber_text (n : ν) {rest : List Char} (h : NumberEnds rest) :
    readNumber N (N.text n ++ rest) = some (.num n, rest) := by
  have htake : (N.text n ++ rest).takeWhile isNumberChar = N.text n ∧
      (N.text n ++ rest).dropWhile isNumberChar = rest := by
    have hall := N.isNumberChar_of_mem n
    rw [List.takeWhile_append_of_pos hall, List.dropWhile_append_of_pos hall]
    cases rest with
    | nil => simp
    | cons c rest =>
        have hc : isNumberChar c = false := h c rfl
        rw [List.takeWhile_cons_of_neg (by simp [hc]), List.dropWhile_cons_of_neg (by simp [hc]),
          List.append_nil]
        exact ⟨rfl, rfl⟩
  rw [readNumber, htake.1, htake.2, N.read_text, Option.map_some]

/-- A name and its value. -/
theorem readField_text {k : String} {fuel : Nat} {rest : List Char}
    (h : readValue N fuel (text N v ++ rest) = some (v, rest)) :
    readField N (fuel + 1) (quoted k ++ ':' :: (text N v ++ rest)) = some ((k, v), rest) := by
  have hquoted : quoted k ++ ':' :: (text N v ++ rest) =
      '"' :: (k.toList.flatMap escape ++ '"' :: ':' :: (text N v ++ rest)) := by
    rw [quoted, List.cons_append, List.append_assoc]
    rfl
  rw [hquoted, readField, skipSpace_cons (by decide)]
  simp only
  rw [readString_quoted]
  simp only
  rw [skipSpace_cons (by decide)]
  simp only
  rw [h, Option.map_some]

/-- A literal is read back. -/
theorem readLiteral_append (literal : List Char) (v : JsonValue ν) (rest : List Char) :
    readLiteral literal v (literal ++ rest) = some (v, rest) := by
  rw [readLiteral, if_pos (List.prefix_append _ _), List.drop_left]

mutual

/-- **Reading back.** The text of a value is read as the value, whatever comes after it. -/
theorem readValue_text : ∀ (v : JsonValue ν) (fuel : Nat) (rest : List Char), size v ≤ fuel →
    Distinct v → NumberEnds rest → readValue N fuel (text N v ++ rest) = some (v, rest)
  | .null, _ + 1, rest, _, _, _ => readLiteral_append ['n', 'u', 'l', 'l'] _ rest
  | .bool true, _ + 1, rest, _, _, _ => readLiteral_append ['t', 'r', 'u', 'e'] _ rest
  | .bool false, _ + 1, rest, _, _, _ => readLiteral_append ['f', 'a', 'l', 's', 'e'] _ rest
  | .num n, fuel + 1, rest, _, _, hends => by
      obtain ⟨c, cs, htext, hc⟩ := text_num_head (N := N) n
      have hnumber := readNumber_text (N := N) n hends
      rw [htext, List.cons_append] at hnumber
      rw [text, htext, List.cons_append, readValue, skipSpace_cons (isSpace_of_isNumberChar hc)]
      simp only
      rw [if_neg (isNumberChar_ne hc (by decide)), if_neg (isNumberChar_ne hc (by decide)),
        if_neg (isNumberChar_ne hc (by decide)), if_neg (isNumberChar_ne hc (by decide)),
        if_neg (isNumberChar_ne hc (by decide)), if_neg (isNumberChar_ne hc (by decide)), hnumber]
  | .str s, fuel + 1, rest, _, _, _ => by
      have hquoted : text N (.str s) ++ rest = '"' :: (s.toList.flatMap escape ++ '"' :: rest) := by
        rw [text, quoted, List.cons_append, List.append_assoc]
        rfl
      rw [hquoted, readValue, skipSpace_cons (by decide)]
      simp only
      rw [if_pos trivial, readString_quoted, Option.map_some]
  | .arr [], _ + 1, _, _, _, _ => rfl
  | .arr (item :: items), fuel + 1, rest, hfuel, hdistinct, _ => by
      rw [size] at hfuel
      have hitems := readItems_text item items fuel rest (by omega) hdistinct
      obtain ⟨c, cs, htext, hspace, hlist, -⟩ := text_head (N := N) item
      rw [htext, List.cons_append, List.cons_append] at hitems
      rw [text, htext, List.cons_append, List.cons_append, List.cons_append, readValue,
        skipSpace_cons (by decide)]
      simp only
      rw [if_neg (by decide), if_pos trivial, skipSpace_cons hspace]
      split
      · rename_i heq
        exact absurd (List.cons.inj heq).1 hlist
      · rw [hitems, Option.map_some]
  | .obj [], _ + 1, _, _, _, _ => rfl
  | .obj ((k, v) :: fields), fuel + 1, rest, hfuel, hdistinct, _ => by
      rw [size] at hfuel
      have hfields := readFields_text (k, v) fields fuel rest (by omega) hdistinct.2
      have hcollect : collect ((k, v) :: fields) = .obj ((k, v) :: fields) := by
        rw [collect, OrderedMap.foldl_set_nil _ _ _ hdistinct.1, List.map_id']
      rw [quoted, List.cons_append, List.cons_append] at hfields
      rw [text, quoted, List.cons_append, List.cons_append, List.cons_append, readValue,
        skipSpace_cons (by decide)]
      simp only
      rw [if_neg (by decide), if_neg (by decide), if_pos trivial, skipSpace_cons (by decide),
        hfields, Option.map_some, hcollect]
      rfl
  | .null, 0, _, hfuel, _, _ => absurd hfuel (by simp [size])
  | .bool _, 0, _, hfuel, _, _ => absurd hfuel (by simp [size])
  | .num _, 0, _, hfuel, _, _ => absurd hfuel (by simp [size])
  | .str _, 0, _, hfuel, _, _ => absurd hfuel (by simp [size])
  | .arr _, 0, _, hfuel, _, _ => absurd hfuel (by simp [size])
  | .obj _, 0, _, hfuel, _, _ => absurd hfuel (by simp [size])

theorem readItems_text : ∀ (item : JsonValue ν) (items : List (JsonValue ν)) (fuel : Nat)
    (rest : List Char), itemsSize (item :: items) ≤ fuel → DistinctItems (item :: items) →
    readItems N fuel (text N item ++ moreItems N items ++ rest) = some (item :: items, rest)
  | item, items, fuel + 1, rest, hfuel, hdistinct => by
      rw [itemsSize] at hfuel
      have hitem := readValue_text item fuel (moreItems N items ++ rest) (by omega) hdistinct.1
        (numberEnds_moreItems items rest)
      rw [List.append_assoc, readItems, hitem]
      cases items with
      | nil => rfl
      | cons next items =>
          have hitems := readItems_text next items fuel rest (by omega) hdistinct.2
          simp only
          rw [moreItems, List.cons_append, skipSpace_cons (by decide)]
          simp only
          rw [hitems, Option.map_some]
  | _, _, 0, _, hfuel, _ => absurd hfuel (by simp [itemsSize])

theorem readFields_text : ∀ (field : String × JsonValue ν) (fields : List (String × JsonValue ν))
    (fuel : Nat) (rest : List Char), fieldsSize (field :: fields) ≤ fuel →
    DistinctFields (field :: fields) →
    readFields N fuel (quoted field.1 ++ ':' :: (text N field.2 ++ moreFields N fields) ++ rest) =
      some (field :: fields, rest)
  | (k, v), fields, 1, rest, hfuel, hdistinct => absurd hfuel (by simp [fieldsSize]; omega)
  | (k, v), fields, fuel + 2, rest, hfuel, hdistinct => by
      rw [fieldsSize] at hfuel
      have hvalue := readValue_text v fuel (moreFields N fields ++ rest) (by omega) hdistinct.1
        (numberEnds_moreFields fields rest)
      have hfield := readField_text (k := k) hvalue
      have hassoc : quoted k ++ ':' :: (text N v ++ moreFields N fields) ++ rest =
          quoted k ++ ':' :: (text N v ++ (moreFields N fields ++ rest)) := by
        simp
      rw [hassoc, readFields, hfield]
      cases fields with
      | nil => rfl
      | cons next fields =>
          obtain ⟨k', v'⟩ := next
          have hfields := readFields_text (k', v') fields (fuel + 1) rest (by omega) hdistinct.2
          simp only
          rw [moreFields, List.cons_append, skipSpace_cons (by decide)]
          simp only
          rw [hfields, Option.map_some]
  | _, _, 0, _, hfuel, _ => absurd hfuel (by simp [fieldsSize])

end

mutual

theorem size_le : ∀ v : JsonValue ν, size v ≤ 3 * (text N v).length
  | .null => by simp [size, text]
  | .bool true => by simp [size, text]
  | .bool false => by simp [size, text]
  | .num n => by
      have hpos := List.length_pos_of_ne_nil (N.text_ne_nil n)
      rw [size, text]
      omega
  | .str s => by
      rw [size, text, quoted, List.length_cons]
      omega
  | .arr [] => by simp [size, itemsSize, text]
  | .arr (item :: items) => by
      have hitem := size_le item
      have hitems := itemsSize_le items
      rw [size, itemsSize, text, List.length_cons, List.length_append]
      omega
  | .obj [] => by simp [size, fieldsSize, text]
  | .obj ((k, v) :: fields) => by
      have hvalue := size_le v
      have hfields := fieldsSize_le fields
      rw [size, fieldsSize, text, List.length_cons, List.length_append, List.length_cons,
        List.length_append]
      omega

theorem itemsSize_le : ∀ items : List (JsonValue ν),
    itemsSize items ≤ 3 * (moreItems N items).length
  | [] => by simp [itemsSize]
  | item :: items => by
      have hitem := size_le item
      have hitems := itemsSize_le items
      rw [itemsSize, moreItems, List.length_cons, List.length_append]
      omega

theorem fieldsSize_le : ∀ fields : List (String × JsonValue ν),
    fieldsSize fields ≤ 3 * (moreFields N fields).length
  | [] => by simp [fieldsSize]
  | (k, v) :: fields => by
      have hvalue := size_le v
      have hfields := fieldsSize_le fields
      rw [fieldsSize, moreFields, List.length_cons, List.length_append, List.length_cons,
        List.length_append]
      omega

end

/-- `JSON.parse(JSON.stringify(v))` is `v`. -/
theorem read_text (h : Distinct v) : read N (text N v) = some v := by
  have hsize := size_le (N := N) v
  have hends : NumberEnds [] := fun _ hc => nomatch hc
  have hread := readValue_text (N := N) v (3 * (text N v).length + 3) [] (by omega) h hends
  rw [List.append_nil] at hread
  rw [read, hread]
  rfl

/-- Values are the same when their texts are. -/
theorem text_injective {v' : JsonValue ν} (h : Distinct v) (h' : Distinct v')
    (htext : text N v = text N v') : v = v' := by
  have hread := read_text (N := N) h
  rw [htext, read_text h', Option.some.injEq] at hread
  exact hread.symm

/-! ## The characters of texts -/

/-- The character is no control character. -/
def Printable (c : Char) : Prop := 32 ≤ c.toNat

instance (c : Char) : Decidable (Printable c) := inferInstanceAs (Decidable (32 ≤ c.toNat))

theorem printable_of_isNumberChar {c : Char} (h : isNumberChar c = true) : Printable c := by
  simp only [isNumberChar, Bool.or_eq_true, decide_eq_true_eq, or_assoc] at h
  rcases h with h | rfl | rfl | rfl | rfl | rfl
  · have hdigit : 48 ≤ c.toNat := (Char.isDigit_iff_toNat.1 h).1
    exact Nat.le_trans (by decide) hdigit
  all_goals decide

theorem printable_digitChar (h : n < 16) : Printable (Nat.digitChar n) := by
  have hall : ∀ n < 16, Printable (Nat.digitChar n) := by decide
  exact hall n h

theorem printable_escaped {c : Char} (h : Printable c) : ∀ c' ∈ ['\\', c], Printable c' := by
  rw [List.forall_mem_cons, List.forall_mem_singleton]
  exact ⟨by decide, h⟩

theorem printable_escape (c : Char) : ∀ c' ∈ escape c, Printable c' := by
  unfold escape
  iterate 7
    split
    · exact printable_escaped (by decide)
  split
  · rename_i hc
    have hhigh : c.toNat / 16 < 16 := by omega
    have hlow : c.toNat % 16 < 16 := by omega
    rw [List.forall_mem_cons, List.forall_mem_cons, List.forall_mem_cons, List.forall_mem_cons,
      List.forall_mem_cons, List.forall_mem_singleton]
    exact ⟨by decide, by decide, by decide, by decide, printable_digitChar hhigh,
      printable_digitChar hlow⟩
  · rename_i hc
    rw [List.forall_mem_singleton, Printable]
    omega

theorem printable_quoted (s : String) : ∀ c ∈ quoted s, Printable c := by
  rw [quoted, List.forall_mem_cons, List.forall_mem_append, List.forall_mem_singleton]
  refine ⟨by decide, fun c hc => ?_, by decide⟩
  obtain ⟨c', -, hc⟩ := List.mem_flatMap.1 hc
  exact printable_escape c' c hc

mutual

theorem printable_text : ∀ (v : JsonValue ν), ∀ c ∈ text N v, Printable c
  | .null => by simp [text, Printable]
  | .bool true => by simp [text, Printable]
  | .bool false => by simp [text, Printable]
  | .num n => fun c hc => printable_of_isNumberChar (N.isNumberChar_of_mem n c hc)
  | .str s => printable_quoted s
  | .arr [] => by simp [text, Printable]
  | .arr (item :: items) => by
      rw [text, List.forall_mem_cons, List.forall_mem_append]
      exact ⟨by decide, printable_text item, printable_moreItems items⟩
  | .obj [] => by simp [text, Printable]
  | .obj ((k, v) :: fields) => by
      rw [text, List.forall_mem_cons, List.forall_mem_append, List.forall_mem_cons,
        List.forall_mem_append]
      exact ⟨by decide, printable_quoted k, by decide, printable_text v,
        printable_moreFields fields⟩

theorem printable_moreItems : ∀ (items : List (JsonValue ν)), ∀ c ∈ moreItems N items, Printable c
  | [] => by simp [moreItems, Printable]
  | item :: items => by
      rw [moreItems, List.forall_mem_cons, List.forall_mem_append]
      exact ⟨by decide, printable_text item, printable_moreItems items⟩

theorem printable_moreFields : ∀ (fields : List (String × JsonValue ν)),
    ∀ c ∈ moreFields N fields, Printable c
  | [] => by simp [moreFields, Printable]
  | (k, v) :: fields => by
      rw [moreFields, List.forall_mem_cons, List.forall_mem_append, List.forall_mem_cons,
        List.forall_mem_append]
      exact ⟨by decide, printable_quoted k, by decide, printable_text v,
        printable_moreFields fields⟩

end

end Values

/-! ## Integers -/

/-- The digits of a natural number, without a zero in front. -/
def readDigits (ds : List Char) : Option Nat :=
  if ds ≠ [] ∧ ds.all Char.isDigit = true ∧ (ds.head? = some '0' → ds = ['0']) then
    some (Nat.ofDigitChars 10 ds 0)
  else none

def intDigits : Int → List Char
  | .ofNat n => Nat.toDigits 10 n
  | .negSucc n => '-' :: Nat.toDigits 10 (n + 1)

def readInt : List Char → Option Int
  | '-' :: ds => (readDigits ds).map fun n : Nat => -(n : Int)
  | ds => (readDigits ds).map fun n : Nat => (n : Int)

theorem head_toDigits_ne (h : 0 < n) : (Nat.toDigits 10 n).head? ≠ some '0' := by
  induction n using Nat.strongRecOn with
  | ind n ih =>
      by_cases hn : n < 10
      · rw [Nat.toDigits_of_lt_base hn]
        have hall : ∀ n < 10, 0 < n → [Nat.digitChar n].head? ≠ some '0' := by decide
        exact hall n hn h
      · rw [Nat.toDigits_of_base_le (by decide) (by omega),
          List.head?_append_of_ne_nil _ Nat.toDigits_ne_nil]
        exact ih (n / 10) (by omega) (by omega)

theorem readDigits_toDigits (n : Nat) : readDigits (Nat.toDigits 10 n) = some n := by
  have hdigits : ∀ c ∈ Nat.toDigits 10 n, c.isDigit = true := fun c hc =>
    Nat.isDigit_of_mem_toDigits (by decide) (by decide) hc
  have hzero : (Nat.toDigits 10 n).head? = some '0' → Nat.toDigits 10 n = ['0'] := by
    intro hhead
    cases n with
    | zero => rfl
    | succ n => exact absurd hhead (head_toDigits_ne (Nat.succ_pos n))
  rw [readDigits, if_pos ⟨Nat.toDigits_ne_nil, List.all_eq_true.2 hdigits, hzero⟩, Nat.ofDigitChars_ten_toDigits]

/-- Digits are read without a sign. -/
theorem readInt_toDigits (n : Nat) : readInt (Nat.toDigits 10 n) = some (n : Int) := by
  have hread := readDigits_toDigits n
  have hdigits : ∀ c ∈ Nat.toDigits 10 n, c.isDigit = true := fun c hc =>
    Nat.isDigit_of_mem_toDigits (by decide) (by decide) hc
  unfold readInt
  split
  · rename_i ds hds
    rw [hds] at hdigits
    exact absurd (hdigits '-' List.mem_cons_self) (by decide)
  · rw [hread, Option.map_some]

/-- Integers in decimal. -/
def intText : NumberText Int where
  text := intDigits
  read := readInt
  text_ne_nil n := by
    cases n with
    | ofNat n => exact Nat.toDigits_ne_nil
    | negSucc n => exact List.cons_ne_nil _ _
  isNumberChar_of_mem n c hc := by
    have hdigits : ∀ m : Nat, c ∈ Nat.toDigits 10 m → isNumberChar c = true := fun m hmem => by
      simp [isNumberChar, Nat.isDigit_of_mem_toDigits (by decide) (by decide) hmem]
    cases n with
    | ofNat n => exact hdigits n hc
    | negSucc n =>
        rcases List.mem_cons.1 hc with rfl | hc
        · decide
        · exact hdigits _ hc
  read_text n := by
    cases n with
    | ofNat n => exact readInt_toDigits n
    | negSucc n =>
        have hread : readInt ('-' :: Nat.toDigits 10 (n + 1)) =
          (readDigits (Nat.toDigits 10 (n + 1))).map fun n : Nat => -(n : Int) := rfl
        rw [intDigits, hread, readDigits_toDigits]
        rfl

end JsonText

end Nexus
