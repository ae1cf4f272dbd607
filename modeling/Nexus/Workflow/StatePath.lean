import Nexus.Lib.Json

/-!
# Paths into the state variables

The state variables of a run are one `jsonb` value. The services name a variable by a dotted key
that is split on `.`; the repository turns a list of segments into the text of a Postgres array,
`{a,b,c}`, which Postgres parses again. The file models the two readings. A segment that an array
literal leaves as it is (`LiteralText`) is one element of the array read, and plain identifiers are
such segments.

`StateKey` lists the variables the engine keeps about a job. Two different keys name paths that
diverge, so on a well-formed value a write is read back under its own key only.
-/

set_option autoImplicit false

namespace Nexus

/-- `key.split('.')`. -/
def splitDots (key : String) : List String := (key.toList.splitOn '.').map String.ofList

/-! ## Postgres array literals -/

/-- White space around the elements of an array literal. -/
def isPgSpace (c : Char) : Bool :=
  c = ' ' || c = '\t' || c = '\n' || c = '\r' || c = '\x0b' || c = '\x0c'

/-- What has been read of an element: nothing yet, unquoted text (its characters and the trailing
white space, both reversed, and whether one was escaped), or quoted text. -/
inductive PgToken where
  | blank
  | bare (text spaces : List Char) (escaped : Bool)
  | openQuote (text : List Char)
  | closedQuote (text : List Char)

/-- The value of an unquoted element; the word `null` in any case is the null element. -/
def pgBareElement (text : List Char) (escaped : Bool) : Option String :=
  if escaped = false ∧ text.map Char.toLower = ['n', 'u', 'l', 'l'] then none
  else some (String.ofList text)

/-- Reads a one-dimensional array literal after its opening brace. `none` is a malformed literal,
or one of more dimensions, which no path operator accepts. -/
def readPgArray : List Char → PgToken → List (Option String) → Option (List (Option String))
  | [], _, _ => none
  | c :: cs, .blank, acc =>
      if isPgSpace c then readPgArray cs .blank acc
      else if c = '"' then readPgArray cs (.openQuote []) acc
      else if c = '{' ∨ c = ',' then none
      else if c = '}' then
        if acc = [] ∧ cs.all isPgSpace then some [] else none
      else if c = '\\' then
        match cs with
        | [] => none
        | c' :: cs' => readPgArray cs' (.bare [c'] [] true) acc
      else readPgArray cs (.bare [c] [] false) acc
  | c :: cs, .bare text spaces escaped, acc =>
      if isPgSpace c then readPgArray cs (.bare text (c :: spaces) escaped) acc
      else if c = '"' ∨ c = '{' then none
      else if c = ',' then
        readPgArray cs .blank (pgBareElement text.reverse escaped :: acc)
      else if c = '}' then
        if cs.all isPgSpace then some (pgBareElement text.reverse escaped :: acc).reverse else none
      else if c = '\\' then
        match cs with
        | [] => none
        | c' :: cs' => readPgArray cs' (.bare (c' :: (spaces ++ text)) [] true) acc
      else readPgArray cs (.bare (c :: (spaces ++ text)) [] escaped) acc
  | c :: cs, .openQuote text, acc =>
      if c = '"' then readPgArray cs (.closedQuote text) acc
      else if c = '\\' then
        match cs with
        | [] => none
        | c' :: cs' => readPgArray cs' (.openQuote (c' :: text)) acc
      else readPgArray cs (.openQuote (c :: text)) acc
  | c :: cs, .closedQuote text, acc =>
      if isPgSpace c then readPgArray cs (.closedQuote text) acc
      else if c = ',' then readPgArray cs .blank (some (String.ofList text.reverse) :: acc)
      else if c = '}' then
        if cs.all isPgSpace then some (some (String.ofList text.reverse) :: acc).reverse else none
      else none

/-- The array denoted by `{${segments.join(',')}}`. -/
def pgPath (segments : List String) : Option (List (Option String)) :=
  readPgArray ([','].intercalate (segments.map String.toList) ++ ['}']) .blank []

/-- The path of an array literal without null elements, as `jsonb_set` and `#-` want it. -/
def pgSetPath (segments : List String) : Option (List String) :=
  (pgPath segments).bind fun es => es.mapM id

/-- `buildNestedJsonbSetExpr`: the chain of `jsonb_set` calls that writes every parent of the path
and then its leaf. `none` is a statement that fails. -/
def buildNestedJsonbSetExpr (segments : List String) (leafValue : Json) (t : Json) :
    Option Json := do
  let parents ← (Json.parents segments).mapM pgSetPath
  let leaf ← pgSetPath segments
  let t' ← parents.foldlM Json.ensureParent t
  Json.jsonbSet t' leaf leafValue

/-! ## Literal texts -/

/-- A character that stands for itself in an element without quotes. -/
def isLiteralChar (c : Char) : Bool :=
  c ≠ ',' && c ≠ '{' && c ≠ '}' && c ≠ '"' && c ≠ '\\'

/-- A text that is an element of an array literal as it stands: not empty, without commas, braces,
quotes and backslashes, without white space at its ends, and not the word `null`. -/
structure LiteralText (s : String) : Prop where
  nonempty : s.toList ≠ []
  chars : ∀ c ∈ s.toList, isLiteralChar c = true
  first : ∀ c ∈ s.toList.head?, isPgSpace c = false
  last : ∀ c ∈ s.toList.getLast?, isPgSpace c = false
  notNull : s.toList.map Char.toLower ≠ ['n', 'u', 'l', 'l']

theorem isLiteralChar_iff {c : Char} (h : isLiteralChar c = true) :
    c ≠ ',' ∧ c ≠ '{' ∧ c ≠ '}' ∧ c ≠ '"' ∧ c ≠ '\\' := by
  simp only [isLiteralChar, Bool.and_eq_true, decide_eq_true_eq] at h
  exact ⟨h.1.1.1.1, h.1.1.1.2, h.1.1.2, h.1.2, h.2⟩

/-- Reading on in unquoted text; the white space read last is kept apart. -/
theorem readPgArray_literal (rest : List Char) (acc : List (Option String)) (cs : List Char)
    (hcs : ∀ c ∈ cs, isLiteralChar c = true) :
    ∀ text spaces : List Char, (∀ c ∈ spaces, isPgSpace c = true) → text ≠ [] →
      ∃ text' spaces' : List Char, spaces' ++ text' = cs.reverse ++ (spaces ++ text) ∧
        (∀ c ∈ spaces', isPgSpace c = true) ∧ text' ≠ [] ∧
        readPgArray (cs ++ rest) (.bare text spaces false) acc =
          readPgArray rest (.bare text' spaces' false) acc := by
  induction cs with
  | nil =>
      intro text spaces hspaces hne
      exact ⟨text, spaces, rfl, hspaces, hne, rfl⟩
  | cons c cs ih =>
      intro text spaces hspaces hne
      obtain ⟨hcomma, hopen, hclose, hquote, hescape⟩ := isLiteralChar_iff (hcs c (by simp))
      have hrest := ih fun c' hc' => hcs c' (List.mem_cons_of_mem _ hc')
      cases hspace : isPgSpace c with
      | true =>
          have hread : readPgArray (c :: cs ++ rest) (.bare text spaces false) acc =
              readPgArray (cs ++ rest) (.bare text (c :: spaces) false) acc := by
            rw [List.cons_append, readPgArray.eq_def]
            simp [hspace]
          obtain ⟨text', spaces', heq, hspaces', hne', hread'⟩ := hrest text (c :: spaces)
            (by simpa [hspace] using hspaces) hne
          refine ⟨text', spaces', ?_, hspaces', hne', hread.trans hread'⟩
          rw [heq]
          simp
      | false =>
          have hread : readPgArray (c :: cs ++ rest) (.bare text spaces false) acc =
              readPgArray (cs ++ rest) (.bare (c :: (spaces ++ text)) [] false) acc := by
            rw [List.cons_append, readPgArray.eq_def]
            simp [hspace, hcomma, hopen, hclose, hquote, hescape]
          obtain ⟨text', spaces', heq, hspaces', hne', hread'⟩ :=
            hrest (c :: (spaces ++ text)) [] (by simp) (by simp)
          refine ⟨text', spaces', ?_, hspaces', hne', hread.trans hread'⟩
          rw [heq]
          simp

variable {s : String}

/-- A literal text is read up to the character after it. -/
theorem readPgArray_literalText (hs : LiteralText s) (rest : List Char)
    (acc : List (Option String)) :
    readPgArray (s.toList ++ rest) .blank acc =
      readPgArray rest (.bare s.toList.reverse [] false) acc := by
  cases hl : s.toList with
  | nil => exact absurd hl hs.nonempty
  | cons c cs =>
      have hfirst : isPgSpace c = false := hs.first c (by simp [hl])
      have hchars := hs.chars
      rw [hl] at hchars
      obtain ⟨hcomma, hopen, hclose, hquote, hescape⟩ := isLiteralChar_iff (hchars c (by simp))
      have hread : readPgArray (c :: cs ++ rest) .blank acc =
          readPgArray (cs ++ rest) (.bare [c] [] false) acc := by
        rw [List.cons_append, readPgArray.eq_def]
        simp [hfirst, hcomma, hopen, hclose, hquote, hescape]
      obtain ⟨text', spaces', heq, hspaces', hne', hread'⟩ := readPgArray_literal rest acc cs
        (fun c' hc' => hchars c' (List.mem_cons_of_mem _ hc')) [c] [] (by simp) (by simp)
      -- the last character is none of white space, so nothing is kept apart
      have hnone : spaces' = [] := by
        cases spaces' with
        | nil => rfl
        | cons c' spaces' =>
            have hwhole : s.toList.reverse = c' :: (spaces' ++ text') := by
              rw [hl, List.reverse_cons, ← List.cons_append, heq]
              simp
            have hlast := hs.last c' (by
              rw [← List.head?_reverse, hwhole]
              rfl)
            rw [hspaces' c' List.mem_cons_self] at hlast
            cases hlast
      subst hnone
      rw [hread, hread', List.reverse_cons]
      congr 2

theorem pgBareElement_literalText (hs : LiteralText s) : pgBareElement s.toList false = some s := by
  simp [pgBareElement, hs.notNull]

/-- Literal texts denote themselves. -/
theorem readPgArray_literalTexts :
    ∀ (segments : List String) (acc : List (Option String)), segments ≠ [] →
      (∀ s ∈ segments, LiteralText s) →
      readPgArray ([','].intercalate (segments.map String.toList) ++ ['}']) .blank acc =
        some (acc.reverse ++ segments.map some)
  | [], _, hne, _ => absurd rfl hne
  | [s], acc, _, h => by
      have hs := h s (by simp)
      have hlast : readPgArray ['}'] (.bare s.toList.reverse [] false) acc =
          some (acc.reverse ++ [some s]) := by
        rw [readPgArray.eq_def]
        simp [isPgSpace, pgBareElement_literalText hs]
      simpa [List.intercalate, hlast] using readPgArray_literalText hs ['}'] acc
  | s :: s' :: ss, acc, _, h => by
      have hs := h s (by simp)
      have hsplit : [','].intercalate ((s :: s' :: ss).map String.toList) ++ ['}'] =
          s.toList ++ ',' :: ([','].intercalate ((s' :: ss).map String.toList) ++ ['}']) := by
        simp [List.intercalate]
      have hcomma : ∀ rest, readPgArray (',' :: rest) (.bare s.toList.reverse [] false) acc =
          readPgArray rest .blank (some s :: acc) := by
        intro rest
        rw [readPgArray.eq_def]
        simp [isPgSpace, pgBareElement_literalText hs]
      rw [hsplit, readPgArray_literalText hs, hcomma,
        readPgArray_literalTexts (s' :: ss) _ (by simp) (fun q hq => h q (by simp [hq]))]
      simp

theorem mapM_map_some (segments : List String) :
    (segments.map some).mapM (m := Option) id = some segments := by
  induction segments with
  | nil => rfl
  | cons s segments ih => simp [ih]

variable {segments : List String}

theorem pgSetPath_literalTexts (hne : segments ≠ []) (h : ∀ s ∈ segments, LiteralText s) :
    pgSetPath segments = some segments := by
  have hpath : pgPath segments = some (segments.map some) := by
    simpa [pgPath] using readPgArray_literalTexts segments [] hne h
  rw [pgSetPath, hpath, Option.bind_some, mapM_map_some]

/-- On literal texts the SQL expression is the write of the path. -/
theorem buildNestedJsonbSetExpr_literalTexts (hne : segments ≠ [])
    (h : ∀ s ∈ segments, LiteralText s) (v t : Json) :
    buildNestedJsonbSetExpr segments v t = Json.upsertPath t segments v := by
  have hparents : ∀ l : List (List String), (∀ p ∈ l, p ≠ [] ∧ ∀ s ∈ p, LiteralText s) →
      l.mapM pgSetPath = some l := by
    intro l
    induction l with
    | nil => intro _; rfl
    | cons p l ih =>
        intro hl
        have hp := hl p (by simp)
        simp [pgSetPath_literalTexts hp.1 hp.2, ih fun q hq => hl q (by simp [hq])]
  have hpre : ∀ p ∈ Json.parents segments, p ≠ [] ∧ ∀ s ∈ p, LiteralText s := by
    intro p hp
    exact ⟨Json.parents_ne_nil _ _ hp, fun s hs => h s (Json.parents_subset _ _ hp hs)⟩
  simp [buildNestedJsonbSetExpr, Json.upsertPath, hparents _ hpre, pgSetPath_literalTexts hne h]

/-! ## Plain identifiers -/

/-- The names every JavaScript object inherits. -/
def inheritedNames : List String :=
  ["constructor", "toString", "toLocaleString", "valueOf", "hasOwnProperty", "isPrototypeOf",
    "propertyIsEnumerable", "__proto__", "__defineGetter__", "__defineSetter__",
    "__lookupGetter__", "__lookupSetter__"]

/-- Letters, digits, `_` and `-`. -/
def isPlainChar (c : Char) : Bool := c.isAlphanum || c = '_' || c = '-'

/-- An identifier that dotted keys and array literals leave as it is: nonempty, of letters, digits,
`_` and `-`, and neither the word `null` nor a name every object inherits. -/
def PlainId (s : String) : Prop :=
  s.toList ≠ [] ∧ s.toList.all isPlainChar = true ∧
    s.toList.map Char.toLower ≠ ['n', 'u', 'l', 'l'] ∧ s ∉ inheritedNames

instance (s : String) : Decidable (PlainId s) := by
  unfold PlainId
  exact inferInstance

theorem isPlainChar_iff (c : Char) : isPlainChar c = true →
    isPgSpace c = false ∧ c ≠ '"' ∧ c ≠ '{' ∧ c ≠ ',' ∧ c ≠ '}' ∧ c ≠ '\\' ∧ c ≠ '.' := by
  intro h
  refine ⟨?_, ?_, ?_, ?_, ?_, ?_, ?_⟩
  · simp only [isPgSpace, Bool.or_eq_false_iff, decide_eq_false_iff_not]
    refine ⟨⟨⟨⟨⟨?_, ?_⟩, ?_⟩, ?_⟩, ?_⟩, ?_⟩ <;>
      (rintro rfl; revert h; decide)
  all_goals (rintro rfl; revert h; decide)

/-- Plain ids are literal texts. -/
theorem literalText_of_plainId (h : PlainId s) : LiteralText s := by
  obtain ⟨hne, hchars, hnull, -⟩ := h
  have hplain : ∀ c ∈ s.toList, isPgSpace c = false ∧ isLiteralChar c = true := by
    intro c hc
    obtain ⟨hspace, hquote, hopen, hcomma, hclose, hescape, -⟩ :=
      isPlainChar_iff c (List.all_eq_true.1 hchars c hc)
    exact ⟨hspace, by simp [isLiteralChar, hquote, hopen, hcomma, hclose, hescape]⟩
  refine ⟨hne, fun c hc => (hplain c hc).2, ?_, ?_, hnull⟩
  · intro c hc
    exact (hplain c (List.mem_of_mem_head? hc)).1
  · intro c hc
    exact (hplain c (List.mem_of_getLast? hc)).1

theorem readPgArray_plain (hs : PlainId s) (rest : List Char) (acc : List (Option String)) :
    readPgArray (s.toList ++ rest) .blank acc =
      readPgArray rest (.bare s.toList.reverse [] false) acc :=
  readPgArray_literalText (literalText_of_plainId hs) rest acc

theorem pgBareElement_plain (hs : PlainId s) : pgBareElement s.toList false = some s :=
  pgBareElement_literalText (literalText_of_plainId hs)

/-- Plain segments denote themselves. -/
theorem pgSetPath_plain (hne : segments ≠ []) (h : ∀ s ∈ segments, PlainId s) :
    pgSetPath segments = some segments :=
  pgSetPath_literalTexts hne fun s hs => literalText_of_plainId (h s hs)

/-- On plain segments the SQL expression is the write of the path. -/
theorem buildNestedJsonbSetExpr_plain (hne : segments ≠ []) (h : ∀ s ∈ segments, PlainId s)
    (v t : Json) :
    buildNestedJsonbSetExpr segments v t = Json.upsertPath t segments v :=
  buildNestedJsonbSetExpr_literalTexts hne (fun s hs => literalText_of_plainId (h s hs)) v t

/-- The elements read so far come first. -/
theorem readPgArray_prefix {cs : List Char} {token : PgToken} {acc es : List (Option String)}
    (h : readPgArray cs token acc = some es) : acc.reverse <+: es := by
  have hpush : ∀ {acc es : List (Option String)} {a : Option String},
      acc.reverse ++ [a] <+: es → acc.reverse <+: es := fun h => (List.prefix_append _ _).trans h
  fun_induction readPgArray cs token acc generalizing es <;> grind

/-- The path of an array literal starts with its first segment when that one is plain. -/
theorem pgPath_head (hs : PlainId s) {es : List (Option String)}
    (h : pgPath (s :: segments) = some es) :
    ∃ rest, es = some s :: rest := by
  have hread : ∀ cs : List Char, readPgArray (',' :: cs) (.bare s.toList.reverse [] false) [] =
      readPgArray cs .blank [some s] := by
    intro cs
    rw [readPgArray.eq_def]
    simp [isPgSpace, pgBareElement_plain hs]
  cases segments with
  | nil =>
      refine ⟨[], ?_⟩
      simp [pgPath, readPgArray_plain hs] at h
      rw [readPgArray.eq_def] at h
      simpa [isPgSpace, pgBareElement_plain hs] using h.symm
  | cons s' segments =>
      have hpath : pgPath (s :: s' :: segments) =
          readPgArray ([','].intercalate ((s' :: segments).map String.toList) ++ ['}']) .blank
            [some s] := by
        simp [pgPath, List.intercalate, readPgArray_plain hs, hread]
      rw [hpath] at h
      obtain ⟨rest, hrest⟩ := readPgArray_prefix h
      exact ⟨rest, hrest.symm⟩

theorem pgSetPath_head (hs : PlainId s) {path : List String}
    (h : pgSetPath (s :: segments) = some path) : ∃ rest, path = s :: rest := by
  obtain ⟨es, hes, hm⟩ := Option.bind_eq_some_iff.1 h
  obtain ⟨rest, rfl⟩ := pgPath_head hs hes
  cases hr : rest.mapM (m := Option) id with
  | none => simp [hr] at hm
  | some names =>
      refine ⟨names, ?_⟩
      simpa [hr] using hm.symm

/-- The write of a dotted key whose first segment is plain leaves the other fields. -/
theorem field?_buildNestedJsonbSetExpr (hs : PlainId s) {v t t' : Json}
    (h : buildNestedJsonbSetExpr (s :: segments) v t = some t') {key : String} (hne : key ≠ s) :
    t'.field? key = t.field? key := by
  have hparents : ∀ (ps : List (List String)) (paths : List (List String)),
      (∀ p ∈ ps, p.head? = some s) → ps.mapM pgSetPath = some paths →
      ∀ {u u' : Json}, paths.foldlM Json.ensureParent u = some u' →
        u'.field? key = u.field? key := by
    intro ps
    induction ps with
    | nil =>
        intro paths _ hps u u' hu
        obtain rfl : [] = paths := by simpa using hps
        obtain rfl : u = u' := by simpa using hu
        rfl
    | cons p ps ih =>
        intro paths hheads hps u u' hu
        obtain ⟨ks, rfl⟩ := List.head?_eq_some_iff.1 (hheads p List.mem_cons_self)
        simp only [List.mapM_cons, Option.bind_eq_bind, Option.bind_eq_some_iff,
          Option.pure_def, Option.some.injEq] at hps
        obtain ⟨path, hpath, paths, hpaths, rfl⟩ := hps
        obtain ⟨rest, rfl⟩ := pgSetPath_head hs hpath
        rw [List.foldlM_cons] at hu
        obtain ⟨u₁, hu₁, hu⟩ := Option.bind_eq_some_iff.1 hu
        rw [ih paths (fun q hq => hheads q (List.mem_cons_of_mem _ hq)) hpaths hu]
        exact Json.field?_jsonbSet hu₁ hne
  simp only [buildNestedJsonbSetExpr, Option.bind_eq_bind, Option.bind_eq_some_iff] at h
  obtain ⟨parents, hps, leaf, hleaf, t₁, ht₁, h⟩ := h
  obtain ⟨rest, rfl⟩ := pgSetPath_head hs hleaf
  rw [Json.field?_jsonbSet h hne, hparents _ _ (fun _ => Json.head?_parents) hps ht₁]

end Nexus
