import Nexus.Lib.Glob
import Nexus.Tools.ApprovalRules

/-!
# Globs as regular expressions

`matchesTool` and `globToRegex` turn a pattern into the source of a regular expression. Sources of
ordinary characters, escaped characters, `.` and `.*` are read here as what they are; any other
source goes to a further engine. What reaches the code unescaped leaves this fragment, and `.` does
not match line breaks. A pattern of the fragment is matched as a glob exactly when a value that
fits it has no more line breaks than the pattern and, for the policy, which passes dots on, when
the value does not fit with other characters for the dots only (`glob_matching_iff`).
-/

set_option autoImplicit false

namespace Nexus

open Glob

/-! ## Texts as JavaScript sees them -/

/-- The UTF-16 code units of a character. -/
def codeUnits (c : Char) : List Nat :=
  if c.toNat < 0x10000 then [c.toNat]
  else [0xD800 + (c.toNat - 0x10000) / 0x400, 0xDC00 + (c.toNat - 0x10000) % 0x400]

/-- The characters of a text: its code units. -/
def jsText (text : String) : List Nat := text.toList.flatMap codeUnits

def isLineBreak (unit : Nat) : Bool :=
  unit = 10 || unit = 13 || unit = 0x2028 || unit = 0x2029

/-- What `.` matches. -/
def isDotMatched (unit : Nat) : Bool := !isLineBreak unit

def lineBreaks (text : String) : Nat := (jsText text).countP isLineBreak

/-! ## Sources of the fragment -/

def isSyntaxCharacter (c : Char) : Bool :=
  c ∈ ['^', '$', '\\', '.', '*', '+', '?', '(', ')', '[', '|']

/-- After `{` and two bounds so far: digits and the bracket. -/
def closesQuantifier : List Char → Bool
  | [] => false
  | c :: cs => c = '}' || (c.isDigit && closesQuantifier cs)

/-- After `{` and a digit. -/
def continuesQuantifier : List Char → Bool
  | [] => false
  | c :: cs =>
      c = '}' || (c = ',' && closesQuantifier cs) || (c.isDigit && continuesQuantifier cs)

/-- After `{`: what makes the bracket a quantifier; elsewhere it is an ordinary character. -/
def startsQuantifier : List Char → Bool
  | [] => false
  | c :: cs => c.isDigit && continuesQuantifier cs

/-- The items of a source up to its `$`. -/
def readItems : List Char → Option (List (Item Char))
  | [] => none
  | ['$'] => some []
  | '.' :: '*' :: cs => (readItems cs).map (.many :: ·)
  | '.' :: cs => (readItems cs).map (.one :: ·)
  | '\\' :: c :: cs =>
      if c = '\\' ∨ c = '.' then (readItems cs).map (.char c :: ·) else none
  | c :: cs =>
      if isSyntaxCharacter c = true ∨ c = '{' ∧ startsQuantifier cs = true then none
      else (readItems cs).map (.char c :: ·)

def readSource : List Char → Option (List (Item Char))
  | '^' :: cs => readItems cs
  | _ => none

/-- A character of a pattern stands for its code units. -/
def itemUnits : Item Char → List (Item Nat)
  | .char c => (codeUnits c).map .char
  | .one => [.one]
  | .many => [.many]

/-- An engine of regular expressions: the fragment by its meaning, the rest by another engine. -/
def jsRegExp (rest : RegExpTest) : RegExpTest := fun source text =>
  match readSource source.toList with
  | some items => some (accepts isDotMatched (items.flatMap itemUnits) (jsText text))
  | none => rest source text

/-! ## Globs -/

/-- The characters of a policy pattern: a star stands for any text. -/
def starItem (c : Char) : Item Char := if c = '*' then .many else .char c

/-- The characters of a rule's glob: `?` also stands for any one character. -/
def globItem (c : Char) : Item Char := if c = '?' then .one else starItem c

/-- The value is the pattern with every star replaced by some text. -/
def FitsStars (pattern value : String) : Prop :=
  Fills (fun _ => true) ((pattern.toList.map starItem).flatMap itemUnits) (jsText value)

/-- The characters of a policy pattern when a dot also stands for other characters. -/
def dotItem (c : Char) : Item Char := if c = '.' then .one else starItem c

/-- The value is the pattern with every star replaced by some text and every dot by a character,
without line breaks. -/
def FitsDots (pattern value : String) : Prop :=
  Fills isDotMatched ((pattern.toList.map dotItem).flatMap itemUnits) (jsText value)

/-- The value is the pattern with every star replaced by some text and every `?` by a character. -/
def FitsGlob (pattern value : String) : Prop :=
  Fills (fun _ => true) ((pattern.toList.map globItem).flatMap itemUnits) (jsText value)

/-- No character of the pattern is one that the code passes on unescaped and that means something
else in a regular expression. -/
def isPlain (special : List Char) : List Char → Bool
  | [] => true
  | c :: cs => !(c ∈ special || (c = '{' && startsQuantifier cs)) && isPlain special cs

/-- What `matchesTool` passes on, but for the dot. -/
def policySpecials : List Char := ['^', '$', '\\', '+', '?', '(', ')', '[', '|']

/-- What `globToRegex` passes on. -/
def ruleSpecials : List Char := ['^', '$', '+', '(', ')', '[', '|']

/-! ## Reading the sources back -/

section Reading

variable {render : Char → List Char} {cs : List Char}

/-- The characters of quantifiers stay as they are, and no others come to look like them. -/
def KeepsBounds (render : Char → List Char) : Prop :=
  ∀ c, render c = [c] ∨
    ∃ d ds, render c = d :: ds ∧ d.isDigit = false ∧ d ≠ '}' ∧ d ≠ ',' ∧
      c.isDigit = false ∧ c ≠ '}' ∧ c ≠ ','

theorem closesQuantifier_render (h : KeepsBounds render) :
    closesQuantifier (cs.flatMap render ++ ['$']) = closesQuantifier cs := by
  induction cs with
  | nil => rfl
  | cons c cs ih =>
      rw [List.flatMap_cons]
      rcases h c with hc | ⟨d, ds, hc, hd, hbrace, -, hc', hbrace', -⟩
      · simp only [hc, List.cons_append, List.nil_append, closesQuantifier, ih]
      · simp [hc, closesQuantifier, hd, hbrace, hc', hbrace']

theorem continuesQuantifier_render (h : KeepsBounds render) :
    continuesQuantifier (cs.flatMap render ++ ['$']) = continuesQuantifier cs := by
  induction cs with
  | nil => rfl
  | cons c cs ih =>
      rw [List.flatMap_cons]
      rcases h c with hc | ⟨d, ds, hc, hd, hbrace, hcomma, hc', hbrace', hcomma'⟩
      · simp only [hc, List.cons_append, List.nil_append, continuesQuantifier, ih,
          closesQuantifier_render h]
      · simp [hc, continuesQuantifier, hd, hbrace, hcomma, hc', hbrace', hcomma']

theorem startsQuantifier_render (h : KeepsBounds render) :
    startsQuantifier (cs.flatMap render ++ ['$']) = startsQuantifier cs := by
  cases cs with
  | nil => rfl
  | cons c cs =>
      rw [List.flatMap_cons]
      rcases h c with hc | ⟨d, ds, hc, hd, -, -, hc', -, -⟩
      · simp only [hc, List.cons_append, List.nil_append, startsQuantifier,
          continuesQuantifier_render h]
      · simp [hc, startsQuantifier, hd, hc']

end Reading

/-! ## The policy's patterns -/

section Policy

/-- `pattern.replace(/\*/g, '.*')` on one character. -/
def renderStar (c : Char) : List Char := if c = '*' then ['.', '*'] else [c]

theorem keepsBounds_renderStar : KeepsBounds renderStar := by
  intro c
  by_cases hc : c = '*'
  · subst hc
    exact .inr ⟨'.', ['*'], rfl, by decide, by decide, by decide, by decide, by decide, by decide⟩
  · exact .inl (if_neg hc)

theorem globSource_eq (pattern : String) :
    (globSource pattern).toList = '^' :: (pattern.toList.flatMap renderStar ++ ['$']) := by
  rw [globSource, String.toList_ofList]
  rfl

/-- An ordinary character reads as itself. -/
theorem readItems_ordinary {c : Char} {cs : List Char} (hc : isSyntaxCharacter c = false)
    (hbrace : ¬ (c = '{' ∧ startsQuantifier cs = true)) :
    readItems (c :: cs) = (readItems cs).map (.char c :: ·) := by
  have hne : ∀ d, isSyntaxCharacter d = true → c ≠ d := by
    rintro d hd rfl
    rw [hc] at hd
    cases hd
  have hdollar := hne '$' (by decide)
  have hdot := hne '.' (by decide)
  have hslash := hne '\\' (by decide)
  rw [readItems]
  · rw [if_neg]
    rintro (h | h)
    · rw [hc] at h
      cases h
    · exact hbrace h
  all_goals simp_all

theorem readItems_star (cs : List Char) :
    readItems ('.' :: '*' :: cs) = (readItems cs).map (.many :: ·) := by
  rw [readItems]

theorem readItems_dot {cs : List Char} (h : cs.head? ≠ some '*') :
    readItems ('.' :: cs) = (readItems cs).map (.one :: ·) := by
  rw [readItems]
  rintro cs' rfl
  exact h rfl

theorem readItems_escaped {c : Char} (cs : List Char) (hc : c = '\\' ∨ c = '.') :
    readItems ('\\' :: c :: cs) = (readItems cs).map (.char c :: ·) := by
  rw [readItems, if_pos hc]

/-- No rendered character begins with a star. -/
theorem head?_flatMap_renderStar (cs : List Char) :
    (cs.flatMap renderStar ++ ['$']).head? ≠ some '*' := by
  cases cs with
  | nil => decide
  | cons c cs =>
      rw [List.flatMap_cons]
      unfold renderStar
      split
      · simp
      · rename_i hc
        simpa using hc

/-- A plain pattern reads back as it is, its dots as any character. -/
theorem readItems_policy {cs : List Char} (h : isPlain policySpecials cs = true) :
    readItems (cs.flatMap renderStar ++ ['$']) = some (cs.map dotItem) := by
  induction cs with
  | nil => rfl
  | cons c cs ih =>
      rw [isPlain, Bool.and_eq_true, Bool.not_eq_true', Bool.or_eq_false_iff] at h
      obtain ⟨⟨hspecial, hbrace⟩, hcs⟩ := h
      have ih := ih hcs
      rw [List.flatMap_cons, List.map_cons]
      by_cases hstar : c = '*'
      · subst hstar
        have hrender : renderStar '*' = ['.', '*'] := rfl
        simp only [hrender, List.cons_append, List.nil_append]
        rw [readItems_star, ih]
        rfl
      · have hrender : renderStar c = [c] := if_neg hstar
        simp only [hrender, List.cons_append, List.nil_append]
        by_cases hdot : c = '.'
        · subst hdot
          rw [readItems_dot (head?_flatMap_renderStar cs), ih]
          rfl
        · rw [readItems_ordinary, ih, dotItem, if_neg hdot, starItem, if_neg hstar]
          · rfl
          · simp only [policySpecials, isSyntaxCharacter, List.mem_cons] at hspecial ⊢
            simp_all
          · rw [startsQuantifier_render keepsBounds_renderStar]
            simpa using hbrace

end Policy

/-! ## The globs of approval rules -/

section Rules

/-- The four replacements of `globToRegex` on one character. -/
def renderGlob (c : Char) : List Char :=
  if c = '\\' then ['\\', '\\']
  else if c = '.' then ['\\', '.']
  else if c = '?' then ['.']
  else renderStar c

theorem globToRegex_eq (pattern : String) :
    (ToolApprovalRuleService.globToRegex pattern).toList =
      '^' :: (pattern.toList.flatMap renderGlob ++ ['$']) := by
  rw [ToolApprovalRuleService.globToRegex, String.toList_ofList]
  simp only [ToolApprovalRuleService.replaceChar, List.flatMap_assoc, List.cons_append]
  congr 3
  funext c
  unfold renderGlob renderStar
  by_cases hslash : c = '\\'
  · simp [hslash]
  · by_cases hdot : c = '.'
    · simp [hdot]
    · by_cases hmark : c = '?'
      · simp [hmark]
      · simp [hslash, hdot, hmark]

theorem keepsBounds_renderGlob : KeepsBounds renderGlob := by
  intro c
  unfold renderGlob
  split
  · rename_i hc
    subst hc
    exact .inr ⟨_, _, rfl, by decide, by decide, by decide, by decide, by decide, by decide⟩
  · split
    · rename_i hc
      subst hc
      exact .inr ⟨_, _, rfl, by decide, by decide, by decide, by decide, by decide, by decide⟩
    · split
      · rename_i hc
        subst hc
        exact .inr ⟨_, _, rfl, by decide, by decide, by decide, by decide, by decide, by decide⟩
      · exact keepsBounds_renderStar c

theorem head?_flatMap_renderGlob (cs : List Char) :
    (cs.flatMap renderGlob ++ ['$']).head? ≠ some '*' := by
  cases cs with
  | nil => decide
  | cons c cs =>
      rw [List.flatMap_cons]
      unfold renderGlob renderStar
      split
      · simp
      · split
        · simp
        · split
          · simp
          · split
            · simp
            · rename_i hc
              simpa using hc

/-- A plain glob reads back as it is. -/
theorem readItems_glob {cs : List Char} (h : isPlain ruleSpecials cs = true) :
    readItems (cs.flatMap renderGlob ++ ['$']) = some (cs.map globItem) := by
  induction cs with
  | nil => rfl
  | cons c cs ih =>
      rw [isPlain, Bool.and_eq_true, Bool.not_eq_true', Bool.or_eq_false_iff] at h
      obtain ⟨⟨hspecial, hbrace⟩, hcs⟩ := h
      have ih := ih hcs
      rw [List.flatMap_cons, List.map_cons]
      by_cases hslash : c = '\\'
      · subst hslash
        have hrender : renderGlob '\\' = ['\\', '\\'] := rfl
        simp only [hrender, List.cons_append, List.nil_append]
        rw [readItems_escaped _ (.inl rfl), ih]
        rfl
      · by_cases hdot : c = '.'
        · subst hdot
          have hrender : renderGlob '.' = ['\\', '.'] := rfl
          simp only [hrender, List.cons_append, List.nil_append]
          rw [readItems_escaped _ (.inr rfl), ih]
          rfl
        · by_cases hmark : c = '?'
          · subst hmark
            have hrender : renderGlob '?' = ['.'] := rfl
            simp only [hrender, List.cons_append, List.nil_append]
            rw [readItems_dot (head?_flatMap_renderGlob cs), ih]
            rfl
          · by_cases hstar : c = '*'
            · subst hstar
              have hrender : renderGlob '*' = ['.', '*'] := rfl
              simp only [hrender, List.cons_append, List.nil_append]
              rw [readItems_star, ih]
              rfl
            · have hrender : renderGlob c = [c] := by
                simp [renderGlob, renderStar, hslash, hdot, hmark, hstar]
              simp only [hrender, List.cons_append, List.nil_append]
              rw [readItems_ordinary, ih, globItem, if_neg hmark, starItem, if_neg hstar]
              · rfl
              · simp only [ruleSpecials, isSyntaxCharacter, List.mem_cons] at hspecial ⊢
                simp_all
              · rw [startsQuantifier_render keepsBounds_renderGlob]
                simpa using hbrace

end Rules

/-! ## Texts by their code units -/

section Units

theorem codeUnits_inj {c d : Char} {xs ys : List Nat}
    (h : codeUnits c ++ xs = codeUnits d ++ ys) : c = d ∧ xs = ys := by
  have hc := c.valid
  have hd := d.valid
  simp only [UInt32.isValidChar, Nat.isValidChar] at hc hd
  have hcNat : c.val.toNat = c.toNat := rfl
  have hdNat : d.val.toNat = d.toNat := rfl
  rw [hcNat] at hc
  rw [hdNat] at hd
  unfold codeUnits at h
  split at h
  · split at h
    · obtain ⟨hunit, hrest⟩ := List.cons.inj h
      exact ⟨Char.toNat_inj.1 hunit, hrest⟩
    · -- a character of one unit is no surrogate
      obtain ⟨hunit, -⟩ := List.cons.inj h
      omega
  · split at h
    · obtain ⟨hunit, -⟩ := List.cons.inj h
      omega
    · obtain ⟨hfirst, h⟩ := List.cons.inj h
      obtain ⟨hsecond, hrest⟩ := List.cons.inj h
      exact ⟨Char.toNat_inj.1 (by omega), hrest⟩

theorem codeUnits_ne_nil (c : Char) : codeUnits c ≠ [] := by
  unfold codeUnits
  split <;> simp

theorem flatMap_codeUnits_inj {cs : List Char} :
    ∀ {ds : List Char}, cs.flatMap codeUnits = ds.flatMap codeUnits → cs = ds := by
  induction cs with
  | nil =>
      intro ds h
      cases ds with
      | nil => rfl
      | cons d ds =>
          rw [List.flatMap_cons] at h
          exact absurd (List.append_eq_nil_iff.1 h.symm).1 (codeUnits_ne_nil d)
  | cons c cs ih =>
      intro ds h
      rw [List.flatMap_cons] at h
      cases ds with
      | nil => exact absurd (List.append_eq_nil_iff.1 h).1 (codeUnits_ne_nil c)
      | cons d ds =>
          obtain ⟨rfl, hrest⟩ := codeUnits_inj h
          rw [ih hrest]

theorem jsText_inj {s t : String} : jsText s = jsText t ↔ s = t := by
  constructor
  · intro h
    exact String.toList_inj.1 (flatMap_codeUnits_inj h)
  · rintro rfl
    rfl

end Units

/-! ## Exactness -/

section Exact

variable (rest : RegExpTest) (pattern value : String)

/-- `matchesTool` is right about the value. -/
def MatchesStars : Prop :=
  matchesTool (jsRegExp rest) value pattern = .ok true ↔ FitsStars pattern value

/-- The operator `glob` is right about the value. -/
def MatchesGlob : Prop :=
  ToolApprovalRuleService.matchesPattern (jsRegExp rest) (.str value) ⟨"", .glob, pattern⟩ =
    .ok true ↔ FitsGlob pattern value

variable {rest pattern value}

theorem letters_chars {α : Type} (word : List α) : letters (word.map .char) = word := by
  induction word with
  | nil => rfl
  | cons a word ih => rw [List.map_cons, letters, ih]

/-- The line breaks of a pattern are those of its characters that stand for themselves. -/
theorem countP_letters {item : Char → Item Char}
    (hitem : ∀ c, item c = .char c ∨
      letters (itemUnits (item c)) = [] ∧ (codeUnits c).countP isLineBreak = 0)
    (cs : List Char) :
    (letters ((cs.map item).flatMap itemUnits)).countP isLineBreak =
      (cs.flatMap codeUnits).countP isLineBreak := by
  induction cs with
  | nil => rfl
  | cons c cs ih =>
      rw [List.map_cons, List.flatMap_cons, List.flatMap_cons, letters_append, List.countP_append,
        List.countP_append, ih]
      rcases hitem c with hc | ⟨hnone, hzero⟩
      · rw [hc, itemUnits, letters_chars]
      · rw [hnone, hzero, List.countP_nil]

theorem starItem_or (c : Char) : starItem c = .char c ∨
    letters (itemUnits (starItem c)) = [] ∧ (codeUnits c).countP isLineBreak = 0 := by
  by_cases hc : c = '*'
  · subst hc
    exact .inr ⟨rfl, rfl⟩
  · exact .inl (if_neg hc)

theorem globItem_or (c : Char) : globItem c = .char c ∨
    letters (itemUnits (globItem c)) = [] ∧ (codeUnits c).countP isLineBreak = 0 := by
  by_cases hc : c = '?'
  · subst hc
    exact .inr ⟨rfl, rfl⟩
  · rw [globItem, if_neg hc]
    exact starItem_or c

theorem not_isDotMatched : (fun unit => !isDotMatched unit) = isLineBreak := by
  funext unit
  rw [isDotMatched, Bool.not_not]

/-- A single star fits everything. -/
theorem fitsStars_star (value : String) : FitsStars "*" value := by
  have hparts : Fills (fun _ => true) [.many] (jsText value ++ []) := .many (fun _ _ => rfl) .nil
  rwa [List.append_nil] at hparts

/-- Without a star the pattern fits itself only. -/
theorem fitsStars_iff_eq (h : '*' ∉ pattern.toList) :
    FitsStars pattern value ↔ value = pattern := by
  have hitems : (pattern.toList.map starItem).flatMap itemUnits = (jsText pattern).map .char := by
    rw [jsText, List.map_flatMap, List.flatMap_map]
    apply List.flatMap_congr
    intro c hc
    have hne : c ≠ '*' := by
      rintro rfl
      exact h hc
    rw [starItem, if_neg hne, itemUnits]
  rw [FitsStars, hitems, fills_letters_iff, jsText_inj]

theorem matchesStars_of_noStar (rest : RegExpTest) (value : String)
    (h : pattern = "*" ∨ '*' ∉ pattern.toList) : MatchesStars rest pattern value := by
  rw [MatchesStars, matchesTool]
  rcases h with rfl | h
  · exact iff_of_true rfl (fitsStars_star value)
  · have hne : pattern ≠ "*" := by
      rintro rfl
      exact h (by decide)
    rw [if_neg hne, if_neg h, fitsStars_iff_eq h]
    simp

theorem dotItem_or (c : Char) : dotItem c = .char c ∨
    letters (itemUnits (dotItem c)) = [] ∧ (codeUnits c).countP isLineBreak = 0 := by
  by_cases hc : c = '.'
  · subst hc
    exact .inr ⟨rfl, rfl⟩
  · rw [dotItem, if_neg hc]
    exact starItem_or c

/-- What fits with dots for dots fits with any characters for them. -/
theorem fills_dotItem {cs : List Char} :
    ∀ {text : List Nat}, Fills isDotMatched ((cs.map starItem).flatMap itemUnits) text →
      Fills isDotMatched ((cs.map dotItem).flatMap itemUnits) text := by
  induction cs with
  | nil => exact fun h => h
  | cons c cs ih =>
      intro text h
      rw [List.map_cons, List.flatMap_cons, fills_append_iff] at h ⊢
      obtain ⟨part, rest, htext, hpart, hrest⟩ := h
      refine ⟨part, rest, htext, ?_, ih hrest⟩
      by_cases hc : c = '.'
      · subst hc
        obtain ⟨taken, rfl, htaken⟩ := fills_char_iff.1 hpart
        exact .one rfl htaken
      · rwa [dotItem, if_neg hc]

/-- A plain pattern of the policy is matched with any characters for its dots. -/
theorem matchesTool_iff (h : isPlain policySpecials pattern.toList = true) (hne : pattern ≠ "*")
    (hmem : '*' ∈ pattern.toList) :
    matchesTool (jsRegExp rest) value pattern = .ok true ↔ FitsDots pattern value := by
  have hregExp : jsRegExp rest (globSource pattern) value =
      some (accepts isDotMatched ((pattern.toList.map dotItem).flatMap itemUnits)
        (jsText value)) := by
    rw [jsRegExp, globSource_eq, readSource, readItems_policy h]
  rw [matchesTool, if_neg hne, if_pos hmem, hregExp, FitsDots, ← accepts_iff, Except.ok.injEq]

/-- A value that fits and has the line breaks of the pattern fits without line breaks. -/
theorem fitsDots_iff_lineBreaks (h : FitsStars pattern value) :
    FitsDots pattern value ↔ lineBreaks value = lineBreaks pattern := by
  constructor
  · intro hdots
    have hcount := hdots.countP_eq
    rw [not_isDotMatched, countP_letters dotItem_or] at hcount
    exact hcount
  · intro hbreaks
    apply fills_dotItem
    rw [fills_iff_of_fills h, not_isDotMatched, countP_letters starItem_or]
    exact hbreaks

theorem matchesStars_iff (h : isPlain policySpecials pattern.toList = true) :
    MatchesStars rest pattern value ↔
      pattern = "*" ∨ '*' ∉ pattern.toList ∨
        (FitsStars pattern value → lineBreaks value = lineBreaks pattern) ∧
          (FitsDots pattern value → FitsStars pattern value) := by
  by_cases hstar : pattern = "*" ∨ '*' ∉ pattern.toList
  · refine iff_of_true (matchesStars_of_noStar rest value hstar) ?_
    exact hstar.imp_right .inl
  · obtain ⟨hne, hmem⟩ := not_or.1 hstar
    rw [not_not] at hmem
    rw [MatchesStars, matchesTool_iff h hne hmem]
    simp only [hne, hmem, not_true_eq_false, false_or]
    constructor
    · intro hiff
      exact ⟨fun hfits => (fitsDots_iff_lineBreaks hfits).1 (hiff.2 hfits), hiff.1⟩
    · rintro ⟨hbreaks, hdots⟩
      exact ⟨hdots, fun hfits => (fitsDots_iff_lineBreaks hfits).2 (hbreaks hfits)⟩

theorem matchesGlob_iff (h : isPlain ruleSpecials pattern.toList = true) :
    MatchesGlob rest pattern value ↔
      (FitsGlob pattern value → lineBreaks value = lineBreaks pattern) := by
  have hregExp : jsRegExp rest (ToolApprovalRuleService.globToRegex pattern) value =
      some (accepts isDotMatched ((pattern.toList.map globItem).flatMap itemUnits)
        (jsText value)) := by
    rw [jsRegExp, globToRegex_eq, readSource, readItems_glob h]
  have hmatch : ToolApprovalRuleService.matchesPattern (jsRegExp rest) (.str value)
      ⟨"", .glob, pattern⟩ = .ok (accepts isDotMatched
        ((pattern.toList.map globItem).flatMap itemUnits) (jsText value)) := by
    simp only [ToolApprovalRuleService.matchesPattern, ToolApprovalRuleService.text?,
      ToolApprovalRuleService.testRegExp, hregExp]
  have hcount : FitsGlob pattern value →
      (Fills isDotMatched ((pattern.toList.map globItem).flatMap itemUnits) (jsText value) ↔
        lineBreaks value = lineBreaks pattern) := by
    intro hfits
    rw [fills_iff_of_fills hfits, not_isDotMatched, countP_letters globItem_or]
    rfl
  rw [MatchesGlob, hmatch, Except.ok.injEq, accepts_iff]
  constructor
  · intro hiff hfits
    exact (hcount hfits).1 (hiff.2 hfits)
  · intro hbreaks
    constructor
    · exact Fills.mono fun _ _ => rfl
    · intro hfits
      exact (hcount hfits).2 (hbreaks hfits)

end Exact

/-- **When globs are exact.** A policy pattern without a star, or that is one, is always right. A
plain pattern with a star is right about a value exactly when the value, if it fits, has no more
line breaks than the pattern, and does not fit with other characters for the dots only; a plain glob
of an approval rule, exactly when the value, if it fits, has no more line breaks than the glob. -/
theorem glob_matching_iff (rest : RegExpTest) :
    (∀ pattern value, pattern = "*" ∨ '*' ∉ pattern.toList → MatchesStars rest pattern value) ∧
    (∀ pattern value, isPlain policySpecials pattern.toList = true →
      (MatchesStars rest pattern value ↔
        pattern = "*" ∨ '*' ∉ pattern.toList ∨
          (FitsStars pattern value → lineBreaks value = lineBreaks pattern) ∧
            (FitsDots pattern value → FitsStars pattern value))) ∧
    (∀ pattern value, isPlain ruleSpecials pattern.toList = true →
      (MatchesGlob rest pattern value ↔
        (FitsGlob pattern value → lineBreaks value = lineBreaks pattern))) :=
  ⟨fun _ value h => matchesStars_of_noStar rest value h, fun _ _ h => matchesStars_iff h,
    fun _ _ h => matchesGlob_iff h⟩

theorem glob_matching_iff_command : MatchesStars (fun _ _ => none) "rm *" "rm a" :=
  ((glob_matching_iff fun _ _ => none).2.1 "rm *" "rm a" (by decide)).2
    (.inr (.inr ⟨fun _ => by decide +kernel, fun _ => accepts_iff.1 (by decide +kernel)⟩))

/-- A star over a line break. -/
theorem line_break_slips_past :
    ¬ ∀ (rest : RegExpTest) (pattern value : String),
      MatchesStars rest pattern value ∧ MatchesGlob rest pattern value := by
  intro h
  have hfits : FitsStars "rm *" "rm a\nb" := accepts_iff.1 (by decide +kernel)
  have hmatch : matchesTool (jsRegExp fun _ _ => none) "rm a\nb" "rm *" = .ok false := by
    decide +kernel
  have htrue := (h (fun _ _ => none) "rm *" "rm a\nb").1.2 hfits
  rw [hmatch] at htrue
  cases htrue

end Nexus
