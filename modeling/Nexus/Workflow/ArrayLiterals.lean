import Nexus.Lib.PathParts
import Nexus.Workflow.StateVariables
import Mathlib

/-!
# Texts that array literals leave as they are

An array literal drops white space around an element, quotes and backslashes, splits at commas, and
reads the word `null` as no text. So a literal denotes its own segments just when all of them are
literal texts (`pgSetPath_eq_self_iff`).
-/

set_option autoImplicit false

namespace Nexus

/-! ## Readings -/

/-- The readings of a well-formed literal, character by character. -/
inductive PgReads : PgToken → List (Option String) → List Char → List (Option String) → Prop where
  | blankSpace {c acc cs es} (hc : isPgSpace c = true) (h : PgReads .blank acc cs es) :
      PgReads .blank acc (c :: cs) es
  | blankQuote {acc cs es} (h : PgReads (.openQuote []) acc cs es) :
      PgReads .blank acc ('"' :: cs) es
  | blankClose {cs} (hcs : cs.all isPgSpace = true) : PgReads .blank [] ('}' :: cs) []
  | blankEscape {c acc cs es} (h : PgReads (.bare [c] [] true) acc cs es) :
      PgReads .blank acc ('\\' :: c :: cs) es
  | blankChar {c acc cs es} (hspace : isPgSpace c = false) (hc : isLiteralChar c = true)
      (h : PgReads (.bare [c] [] false) acc cs es) : PgReads .blank acc (c :: cs) es
  | bareSpace {c text spaces escaped acc cs es} (hc : isPgSpace c = true)
      (h : PgReads (.bare text (c :: spaces) escaped) acc cs es) :
      PgReads (.bare text spaces escaped) acc (c :: cs) es
  | bareComma {text spaces escaped acc cs es}
      (h : PgReads .blank (pgBareElement text.reverse escaped :: acc) cs es) :
      PgReads (.bare text spaces escaped) acc (',' :: cs) es
  | bareClose {text spaces escaped acc cs} (hcs : cs.all isPgSpace = true) :
      PgReads (.bare text spaces escaped) acc ('}' :: cs)
        (pgBareElement text.reverse escaped :: acc).reverse
  | bareEscape {c text spaces escaped acc cs es}
      (h : PgReads (.bare (c :: (spaces ++ text)) [] true) acc cs es) :
      PgReads (.bare text spaces escaped) acc ('\\' :: c :: cs) es
  | bareChar {c text spaces escaped acc cs es} (hspace : isPgSpace c = false)
      (hc : isLiteralChar c = true)
      (h : PgReads (.bare (c :: (spaces ++ text)) [] escaped) acc cs es) :
      PgReads (.bare text spaces escaped) acc (c :: cs) es
  | quoteEnd {text acc cs es} (h : PgReads (.closedQuote text) acc cs es) :
      PgReads (.openQuote text) acc ('"' :: cs) es
  | quoteEscape {c text acc cs es} (h : PgReads (.openQuote (c :: text)) acc cs es) :
      PgReads (.openQuote text) acc ('\\' :: c :: cs) es
  | quoteChar {c text acc cs es} (h : PgReads (.openQuote (c :: text)) acc cs es) :
      PgReads (.openQuote text) acc (c :: cs) es
  | closedSpace {c text acc cs es} (hc : isPgSpace c = true)
      (h : PgReads (.closedQuote text) acc cs es) : PgReads (.closedQuote text) acc (c :: cs) es
  | closedComma {text acc cs es}
      (h : PgReads .blank (some (String.ofList text.reverse) :: acc) cs es) :
      PgReads (.closedQuote text) acc (',' :: cs) es
  | closedClose {text acc cs} (hcs : cs.all isPgSpace = true) :
      PgReads (.closedQuote text) acc ('}' :: cs) (some (String.ofList text.reverse) :: acc).reverse

variable {cs : List Char} {token : PgToken} {acc es : List (Option String)}

theorem pgReads_of_readPgArray (h : readPgArray cs token acc = some es) :
    PgReads token acc cs es := by
  fun_induction readPgArray cs token acc <;>
    grind [PgReads, isLiteralChar]

/-! ## A literal that denotes its segments has literal texts -/

/-- The characters of an element with the one that ends it. -/
def elementSize : Option String → Nat
  | none => 0
  | some s => s.toList.length + 1

def elementsSize (es : List (Option String)) : Nat := (es.map elementSize).sum

/-- The characters read of an element, less those that are dropped for sure. -/
def PgToken.size : PgToken → Nat
  | .blank => 0
  | .bare text spaces _ => text.length + spaces.length
  | .openQuote text => text.length
  | .closedQuote text => text.length

/-- Text without quotes and escapes, as a literal text has it so far. -/
def PgToken.Literal : PgToken → Prop
  | .blank => True
  | .bare text spaces escaped => escaped = false ∧ text ≠ [] ∧
      (∀ c ∈ spaces ++ text, isLiteralChar c = true) ∧
      (∀ c ∈ text.getLast?, isPgSpace c = false) ∧ ∀ c ∈ text.head?, isPgSpace c = false
  | .openQuote _ => False
  | .closedQuote _ => False

@[simp] theorem elementsSize_cons (e : Option String) (es : List (Option String)) :
    elementsSize (e :: es) = elementSize e + elementsSize es := by simp [elementsSize]

@[simp] theorem elementsSize_reverse (es : List (Option String)) :
    elementsSize es.reverse = elementsSize es := by simp [elementsSize]

theorem elementSize_ofList (text : List Char) :
    elementSize (some (String.ofList text)) = text.length + 1 := by simp [elementSize]

theorem elementSize_pgBareElement_le (text : List Char) (escaped : Bool) :
    elementSize (pgBareElement text escaped) ≤ text.length + 1 := by
  rw [pgBareElement]
  split
  · exact Nat.zero_le _
  · exact Nat.le_of_eq (elementSize_ofList text)

/-- A reading yields no more characters than it reads. -/
theorem PgReads.elementsSize_le (h : PgReads token acc cs es) :
    elementsSize es ≤ elementsSize acc + token.size + cs.length := by
  induction h with
  | blankClose => exact Nat.zero_le _
  | bareComma h ih =>
      rename_i text spaces escaped acc cs es
      have hle := elementSize_pgBareElement_le text.reverse escaped
      simp only [elementsSize_cons, PgToken.size, List.length_cons, List.length_reverse] at ih hle ⊢
      omega
  | bareClose =>
      rename_i text spaces escaped acc cs hcs
      have hle := elementSize_pgBareElement_le text.reverse escaped
      simp only [elementsSize_reverse, elementsSize_cons, PgToken.size, List.length_cons,
        List.length_reverse] at hle ⊢
      omega
  | closedComma h ih =>
      simp only [elementsSize_cons, elementSize_ofList, PgToken.size, List.length_cons,
        List.length_reverse] at ih ⊢
      omega
  | closedClose =>
      simp only [elementsSize_reverse, elementsSize_cons, elementSize_ofList, PgToken.size,
        List.length_cons, List.length_reverse]
      omega
  | _ =>
      simp only [PgToken.size, List.length_cons, List.length_append, List.length_nil] at *
      omega

theorem isLiteralChar_of_space {c : Char} (h : isPgSpace c = true) : isLiteralChar c = true := by
  simp only [isPgSpace, Bool.or_eq_true, decide_eq_true_eq] at h
  rcases h with ((((rfl | rfl) | rfl) | rfl) | rfl) | rfl <;> decide

/-- Unquoted text that is an element with all its characters is a literal text. -/
theorem literalText_pgBareElement {text spaces : List Char} {escaped : Bool}
    (h : (PgToken.bare text spaces escaped).Literal)
    (hsize : text.length + 1 ≤ elementSize (pgBareElement text.reverse escaped)) :
    ∃ s, pgBareElement text.reverse escaped = some s ∧ LiteralText s := by
  obtain ⟨rfl, hne, hchars, hfirst, hlast⟩ := h
  by_cases hnull : text.reverse.map Char.toLower = ['n', 'u', 'l', 'l']
  · rw [pgBareElement, if_pos ⟨rfl, hnull⟩, elementSize] at hsize
    omega
  · refine ⟨String.ofList text.reverse, if_neg fun h => hnull h.2, ?_, ?_, ?_, ?_, ?_⟩
    · simpa using hne
    · simpa using fun c hc => hchars c (List.mem_append_right _ hc)
    · simpa using hfirst
    · simpa using hlast
    · simpa using hnull

/-- An element in quotes or with an escape loses a character. -/
theorem PgReads.literal (h : PgReads token acc cs es)
    (hacc : ∀ e ∈ acc, ∃ s, e = some s ∧ LiteralText s) (htoken : token.Literal)
    (hsize : elementsSize acc + token.size + cs.length ≤ elementsSize es) :
    ∀ e ∈ es, ∃ s, e = some s ∧ LiteralText s := by
  induction h with
  | blankSpace hc h ih =>
      have hle := h.elementsSize_le
      simp only [List.length_cons] at hsize
      omega
  | blankQuote h ih =>
      have hle := h.elementsSize_le
      simp only [PgToken.size, List.length_cons, List.length_nil] at hsize hle
      omega
  | blankClose => simp
  | blankEscape h ih =>
      have hle := h.elementsSize_le
      simp only [PgToken.size, List.length_cons, List.length_nil] at hsize hle
      omega
  | blankChar hspace hc h ih =>
      apply ih hacc
      · exact ⟨rfl, by simp, by simpa using hc, by simpa using hspace, by simpa using hspace⟩
      · simp only [PgToken.size, List.length_cons, List.length_nil] at hsize ⊢
        omega
  | bareSpace hc h ih =>
      obtain ⟨hescaped, hne, hchars, hfirst, hlast⟩ := htoken
      apply ih hacc
      · refine ⟨hescaped, hne, ?_, hfirst, hlast⟩
        simpa [isLiteralChar_of_space hc] using hchars
      · simp only [PgToken.size, List.length_cons] at hsize ⊢
        omega
  | bareComma h ih =>
      rename_i text spaces escaped acc cs es
      have hle := h.elementsSize_le
      have hbare := elementSize_pgBareElement_le text.reverse escaped
      simp only [elementsSize_cons, PgToken.size, List.length_cons, List.length_reverse]
        at hsize hle hbare
      have helement := literalText_pgBareElement htoken (by omega)
      apply ih
      · simpa using ⟨helement, hacc⟩
      · exact trivial
      · simp only [elementsSize_cons, PgToken.size]
        omega
  | bareClose =>
      rename_i text spaces escaped acc cs hcs
      simp only [elementsSize_reverse, elementsSize_cons, PgToken.size, List.length_cons] at hsize
      have helement := literalText_pgBareElement htoken (by omega)
      intro e he
      rcases List.mem_cons.1 (List.mem_reverse.1 he) with rfl | he
      · exact helement
      · exact hacc e he
  | bareEscape h ih =>
      have hle := h.elementsSize_le
      simp only [PgToken.size, List.length_cons, List.length_append, List.length_nil] at hsize hle
      omega
  | bareChar hspace hc h ih =>
      rename_i c text spaces escaped acc cs es
      obtain ⟨hescaped, hne, hchars, hfirst, hlast⟩ := htoken
      apply ih hacc
      · refine ⟨hescaped, by simp, ?_, ?_, by simpa using hspace⟩
        · simpa [hc] using hchars
        · rw [← List.cons_append, List.getLast?_append_of_ne_nil _ hne]
          exact hfirst
      · simp only [PgToken.size, List.length_cons, List.length_append, List.length_nil]
          at hsize ⊢
        omega
  | quoteEnd => exact htoken.elim
  | quoteEscape => exact htoken.elim
  | quoteChar => exact htoken.elim
  | closedSpace => exact htoken.elim
  | closedComma => exact htoken.elim
  | closedClose => exact htoken.elim

theorem eq_map_some_of_mapM {names : List String} (h : es.mapM (m := Option) id = some names) :
    es = names.map some := by
  induction es generalizing names with
  | nil =>
      obtain rfl : [] = names := by simpa using h
      rfl
  | cons e es ih =>
      simp only [List.mapM_cons, id_eq, Option.bind_eq_bind, Option.bind_eq_some_iff,
        Option.pure_def, Option.some.injEq] at h
      obtain ⟨s, rfl, names', hnames, rfl⟩ := h
      rw [ih hnames, List.map_cons]

variable {segments : List String}

/-- The characters of a literal after its opening brace. -/
theorem elementsSize_map_some (hne : segments ≠ []) :
    elementsSize (segments.map some) =
      ([','].intercalate (segments.map String.toList) ++ ['}']).length := by
  induction segments with
  | nil => exact absurd rfl hne
  | cons s segments ih =>
      cases segments with
      | nil => simp [elementSize, elementsSize, List.intercalate]
      | cons s' segments =>
          have hrest := ih (by simp)
          simp only [List.map_cons, elementsSize_cons, elementSize, List.intercalate_cons_cons,
            List.length_append, List.length_cons, List.length_nil] at hrest ⊢
          omega

/-- **A literal denotes its own segments just when all of them are literal texts.** -/
theorem pgSetPath_eq_self_iff (hne : segments ≠ []) :
    pgSetPath segments = some segments ↔ ∀ s ∈ segments, LiteralText s := by
  constructor
  · intro h
    obtain ⟨es, hread, hnames⟩ := Option.bind_eq_some_iff.1 h
    obtain rfl := eq_map_some_of_mapM hnames
    have hliteral := (pgReads_of_readPgArray hread).literal (by simp) trivial (by
      rw [elementsSize_map_some hne]
      simp [elementsSize, PgToken.size])
    intro s hs
    obtain ⟨s', heq, hs'⟩ := hliteral (some s) (List.mem_map_of_mem hs)
    rw [Option.some.inj heq]
    exact hs'
  · exact pgSetPath_literalTexts hne

/-! ## Dots -/

/-- The characters kept of the element that is being read. -/
def PgToken.chars : PgToken → List Char
  | .blank => []
  | .bare text _ _ => text
  | .openQuote text => text
  | .closedQuote text => text

theorem dot_mem_pgBareElement {text : List Char} (escaped : Bool) (h : '.' ∈ text) :
    ∃ s, pgBareElement text.reverse escaped = some s ∧ '.' ∈ s.toList := by
  have hnull : ¬ (escaped = false ∧ text.reverse.map Char.toLower = ['n', 'u', 'l', 'l']) := by
    rintro ⟨-, hnull⟩
    have hmem : Char.toLower '.' ∈ text.reverse.map Char.toLower :=
      List.mem_map_of_mem (List.mem_reverse.2 h)
    rw [hnull] at hmem
    exact absurd hmem (by decide)
  exact ⟨_, if_neg hnull, by simpa using h⟩

/-- A dot of a literal is a dot of one of the elements read. -/
theorem PgReads.dot (h : PgReads token acc cs es)
    (hdot : '.' ∈ cs ∨ '.' ∈ token.chars ∨ ∃ s, some s ∈ acc ∧ '.' ∈ s.toList) :
    ∃ s, some s ∈ es ∧ '.' ∈ s.toList := by
  have hspace : isPgSpace '.' = false := by decide
  have hend : ∀ {cs : List Char}, cs.all isPgSpace = true → '.' ∉ cs := by
    intro cs hcs hmem
    rw [List.all_eq_true.1 hcs _ hmem] at hspace
    cases hspace
  induction h with
  | blankClose hcs =>
      have hnot := hend hcs
      simp [PgToken.chars, hnot] at hdot
  | bareComma h ih =>
      rename_i text spaces escaped acc cs es
      apply ih
      rcases hdot with hdot | hdot | ⟨s, hs, hdot⟩
      · exact Or.inl (by simpa using hdot)
      · obtain ⟨s, hs, hmem⟩ := dot_mem_pgBareElement escaped (show '.' ∈ text from hdot)
        exact Or.inr (Or.inr ⟨s, by simp [hs], hmem⟩)
      · exact Or.inr (Or.inr ⟨s, List.mem_cons_of_mem _ hs, hdot⟩)
  | bareClose hcs =>
      rename_i text spaces escaped acc cs
      have hnot := hend hcs
      rcases hdot with hdot | hdot | ⟨s, hs, hdot⟩
      · simp [hnot] at hdot
      · obtain ⟨s, hs, hmem⟩ := dot_mem_pgBareElement escaped (show '.' ∈ text from hdot)
        exact ⟨s, by simp [hs], hmem⟩
      · exact ⟨s, by simp [hs], hdot⟩
  | closedComma h ih =>
      apply ih
      rcases hdot with hdot | hdot | ⟨s, hs, hdot⟩
      · exact Or.inl (by simpa using hdot)
      · exact Or.inr (Or.inr ⟨_, List.mem_cons_self, by simpa [PgToken.chars] using hdot⟩)
      · exact Or.inr (Or.inr ⟨s, List.mem_cons_of_mem _ hs, hdot⟩)
  | closedClose hcs =>
      rename_i text acc cs
      have hnot := hend hcs
      rcases hdot with hdot | hdot | ⟨s, hs, hdot⟩
      · simp [hnot] at hdot
      · exact ⟨String.ofList text.reverse, by simp, by simpa [PgToken.chars] using hdot⟩
      · exact ⟨s, by simp [hs], hdot⟩
  | _ => grind [PgToken.chars]

/-- The segments of a split key have no dots. -/
theorem dot_notMem_splitDots (key : String) : ∀ s ∈ splitDots key, '.' ∉ s.toList := by
  intro s hs
  obtain ⟨l, hl, rfl⟩ := List.mem_map.1 hs
  rw [String.toList_ofList]
  exact Parts.sep_notMem_of_mem_splitOn hl

/-- A literal with a dot denotes no split key. -/
theorem pgSetPath_ne_splitDots (hdot : ∃ s ∈ segments, '.' ∈ s.toList) (key : String) :
    pgSetPath segments ≠ some (splitDots key) := by
  intro h
  obtain ⟨es, hread, hnames⟩ := Option.bind_eq_some_iff.1 h
  obtain rfl := eq_map_some_of_mapM hnames
  obtain ⟨s, hs, hmem⟩ := hdot
  have hchar : '.' ∈ [','].intercalate (segments.map String.toList) ++ ['}'] := by
    apply List.mem_append_left
    exact Parts.subset_intercalate (List.mem_map_of_mem hs) hmem
  obtain ⟨s', hs', hmem'⟩ := (pgReads_of_readPgArray hread).dot (Or.inl hchar)
  obtain ⟨s'', hs'', heq⟩ := List.mem_map.1 hs'
  rw [← Option.some.inj heq] at hmem'
  exact dot_notMem_splitDots key s'' hs'' hmem'

end Nexus
