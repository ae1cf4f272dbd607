import Nexus.Tools.DenyLayers
import Nexus.Tools.PolicyEvaluator

/-!
# Offered tools and the evaluator

The same document is read twice: `evaluateToolPolicy` runs through its rules in their order, with
patterns for names and arguments, and `applyPolicyToToolNames` collects the names of the allowing
and of the denying rules. The two agree on a tool exactly when an offered tool has a call that is
not denied, and a tool that is not offered has no rule that lets every call of it pass
(`offered_tools_agree_iff`).
-/

set_option autoImplicit false

namespace Nexus

/-! ## The evaluator, rule by rule -/

section Evaluator

variable {regExp : RegExpTest} {tool : String} {args : OrderedMap String Json}
  {default : ToolPolicyEffect} {entries before after : List ToolPolicyEntry}
  {entry : ToolPolicyEntry} {rule : ToolPolicyRule}

/-- The decision when no rule matches. -/
def ToolPolicyEffect.defaultDecision (effect : ToolPolicyEffect) : ToolPolicyDecision :=
  { effect, explanation := "No rules matched. Using default effect." }

/-- No entry matches the call, and none is an error. -/
def PassesOver (regExp : RegExpTest) (tool : String) (args : OrderedMap String Json)
    (entries : List ToolPolicyEntry) : Prop :=
  ∀ entry ∈ entries, ∃ rule, entry.parse = .ok rule ∧ matchesCall regExp tool args rule = .ok false

/-- The entry is the rule, which matches the call. -/
def StopsAt (regExp : RegExpTest) (tool : String) (args : OrderedMap String Json)
    (entry : ToolPolicyEntry) (rule : ToolPolicyRule) : Prop :=
  entry.parse = .ok rule ∧ matchesCall regExp tool args rule = .ok true

/-- The entry is no rule, or its patterns cannot be tested on the call. -/
def FailsAt (regExp : RegExpTest) (tool : String) (args : OrderedMap String Json)
    (entry : ToolPolicyEntry) : Prop :=
  (∃ e, entry.parse = .error e) ∨
    ∃ rule e, entry.parse = .ok rule ∧ matchesCall regExp tool args rule = .error e

theorem passesOver_nil : PassesOver regExp tool args [] := fun _ h => nomatch h

theorem passesOver_cons : PassesOver regExp tool args (entry :: entries) ↔
    (∃ rule, entry.parse = .ok rule ∧ matchesCall regExp tool args rule = .ok false) ∧
      PassesOver regExp tool args entries := List.forall_mem_cons

/-- The three outcomes of one entry. -/
theorem entry_outcome (regExp : RegExpTest) (tool : String) (args : OrderedMap String Json)
    (entry : ToolPolicyEntry) :
    (∃ rule, entry.parse = .ok rule ∧ matchesCall regExp tool args rule = .ok false) ∨
      (∃ rule, StopsAt regExp tool args entry rule) ∨ FailsAt regExp tool args entry := by
  cases hparse : entry.parse with
  | error e => exact .inr (.inr (.inl ⟨e, hparse⟩))
  | ok rule =>
      cases hmatch : matchesCall regExp tool args rule with
      | error e => exact .inr (.inr (.inr ⟨rule, e, hparse, hmatch⟩))
      | ok found =>
          cases found with
          | true => exact .inr (.inl ⟨rule, hparse, hmatch⟩)
          | false => exact .inl ⟨rule, rfl, hmatch⟩

theorem evaluateRules_of_pass
    (h : ∃ rule, entry.parse = .ok rule ∧ matchesCall regExp tool args rule = .ok false) :
    evaluateRules regExp tool args default (entry :: entries) =
      evaluateRules regExp tool args default entries := by
  obtain ⟨rule, hparse, hmatch⟩ := h
  simp only [evaluateRules, hparse, hmatch]

theorem evaluateRules_of_stop (h : StopsAt regExp tool args entry rule) :
    evaluateRules regExp tool args default (entry :: entries) = .ok rule.decision := by
  simp only [evaluateRules, h.1, h.2]

theorem evaluateRules_of_fail (default : ToolPolicyEffect) (entries : List ToolPolicyEntry)
    (h : FailsAt regExp tool args entry) :
    ∃ e, evaluateRules regExp tool args default (entry :: entries) = .error e := by
  rcases h with ⟨e, hparse⟩ | ⟨rule, e, hparse, hmatch⟩
  · exact ⟨e, by simp only [evaluateRules, hparse]⟩
  · exact ⟨e, by simp only [evaluateRules, hparse, hmatch]⟩

theorem evaluateRules_append (h : PassesOver regExp tool args before) :
    evaluateRules regExp tool args default (before ++ entries) =
      evaluateRules regExp tool args default entries := by
  induction before with
  | nil => rfl
  | cons entry before ih =>
      obtain ⟨hentry, hbefore⟩ := passesOver_cons.1 h
      rw [List.cons_append, evaluateRules_of_pass hentry, ih hbefore]

/-- The decision of a rule is not the one without a rule. -/
theorem decision_ne_default : rule.decision ≠ default.defaultDecision := by
  intro h
  have htext := congrArg (fun d : ToolPolicyDecision => d.explanation.toList.head?) h
  simp only [ToolPolicyRule.decision, ToolPolicyEffect.defaultDecision, String.toList_append,
    List.head?_append] at htext
  have hhead : (toString "Matched rule for tool ").toList.head? = some 'M' := by decide
  rw [hhead, Option.some_or] at htext
  exact absurd htext (by decide)

/-- The default decides exactly the calls that no rule matches. -/
theorem evaluateRules_default_iff :
    evaluateRules regExp tool args default entries = .ok default.defaultDecision ↔
      PassesOver regExp tool args entries := by
  induction entries with
  | nil => exact ⟨fun _ => passesOver_nil, fun _ => rfl⟩
  | cons entry entries ih =>
      rw [passesOver_cons]
      rcases entry_outcome regExp tool args entry with hpass | ⟨rule, hstop⟩ | hfail
      · rw [evaluateRules_of_pass hpass, ih]
        exact ⟨fun h => ⟨hpass, h⟩, fun h => h.2⟩
      · rw [evaluateRules_of_stop hstop]
        constructor
        · intro h
          exact absurd (Except.ok.inj h) decision_ne_default
        · rintro ⟨⟨rule', hparse, hmatch⟩, -⟩
          rw [hstop.1] at hparse
          cases hparse
          rw [hstop.2] at hmatch
          cases hmatch
      · obtain ⟨e, he⟩ := evaluateRules_of_fail default entries hfail
        rw [he]
        constructor
        · rintro ⟨⟩
        · rintro ⟨⟨rule, hparse, hmatch⟩, -⟩
          rcases hfail with ⟨e', hparse'⟩ | ⟨rule', e', hparse', hmatch'⟩
          · rw [hparse] at hparse'
            cases hparse'
          · rw [hparse] at hparse'
            cases hparse'
            rw [hmatch] at hmatch'
            cases hmatch'

/-- A call is not denied: the default lets it pass, or the first entry that does not pass it over is
a rule that lets it pass, or an error. -/
def Escapes (regExp : RegExpTest) (tool : String) (args : OrderedMap String Json)
    (default : ToolPolicyEffect) (entries : List ToolPolicyEntry) : Prop :=
  (PassesOver regExp tool args entries ∧ default.denies = false) ∨
    ∃ before entry after, entries = before ++ entry :: after ∧
      PassesOver regExp tool args before ∧
      ((∃ rule, StopsAt regExp tool args entry rule ∧ rule.effect.denies = false) ∨
        FailsAt regExp tool args entry)

theorem stopsAt_not_pass (h : StopsAt regExp tool args entry rule) :
    ¬ ∃ rule, entry.parse = .ok rule ∧ matchesCall regExp tool args rule = .ok false := by
  rintro ⟨rule', hparse, hmatch⟩
  rw [h.1] at hparse
  cases hparse
  rw [h.2] at hmatch
  cases hmatch

theorem failsAt_not_pass (h : FailsAt regExp tool args entry) :
    ¬ ∃ rule, entry.parse = .ok rule ∧ matchesCall regExp tool args rule = .ok false := by
  rintro ⟨rule, hparse, hmatch⟩
  rcases h with ⟨e', hparse'⟩ | ⟨rule', e', hparse', hmatch'⟩
  · rw [hparse] at hparse'
    cases hparse'
  · rw [hparse] at hparse'
    cases hparse'
    rw [hmatch] at hmatch'
    cases hmatch'

theorem escapes_cons_of_pass
    (h : ∃ rule, entry.parse = .ok rule ∧ matchesCall regExp tool args rule = .ok false) :
    Escapes regExp tool args default (entry :: entries) ↔
      Escapes regExp tool args default entries := by
  rw [Escapes, Escapes, passesOver_cons, and_iff_right h]
  apply or_congr_right
  constructor
  · rintro ⟨before, entry', after, heq, hbefore, hentry⟩
    cases before with
    | nil =>
        obtain ⟨rfl, rfl⟩ := List.cons.inj heq
        rcases hentry with ⟨rule, hstop, -⟩ | hfail
        · exact absurd h (stopsAt_not_pass hstop)
        · exact absurd h (failsAt_not_pass hfail)
    | cons first before =>
        obtain ⟨rfl, rfl⟩ := List.cons.inj heq
        exact ⟨before, entry', after, rfl, (passesOver_cons.1 hbefore).2, hentry⟩
  · rintro ⟨before, entry', after, rfl, hbefore, hentry⟩
    exact ⟨entry :: before, entry', after, rfl, passesOver_cons.2 ⟨h, hbefore⟩, hentry⟩

/-- **A call is denied exactly when it does not escape.** -/
theorem evaluateRules_denied_iff :
    (∃ d, evaluateRules regExp tool args default entries = .ok d ∧ d.effect.denies = true) ↔
      ¬ Escapes regExp tool args default entries := by
  induction entries with
  | nil =>
      constructor
      · rintro ⟨d, hd, hdenies⟩ (⟨-, hdefault⟩ | ⟨before, entry, after, heq, -⟩)
        · cases Except.ok.inj hd
          exact absurd (hdenies.symm.trans hdefault) (by decide)
        · cases before <;> cases heq
      · intro hnot
        refine ⟨default.defaultDecision, rfl, ?_⟩
        cases hdefault : default.denies with
        | true => exact hdefault
        | false => exact absurd (.inl ⟨passesOver_nil, hdefault⟩) hnot
  | cons entry entries ih =>
      rcases entry_outcome regExp tool args entry with hpass | ⟨rule, hstop⟩ | hfail
      · rw [evaluateRules_of_pass hpass, ih, escapes_cons_of_pass hpass]
      · rw [evaluateRules_of_stop hstop]
        constructor
        · rintro ⟨d, hd, hdenies⟩ (⟨hall, -⟩ | ⟨before, entry', after, heq, hbefore, hentry⟩)
          · exact stopsAt_not_pass hstop (passesOver_cons.1 hall).1
          · cases before with
            | nil =>
                obtain ⟨rfl, rfl⟩ := List.cons.inj heq
                cases Except.ok.inj hd
                rcases hentry with ⟨rule', hstop', heffect⟩ | hfail
                · obtain rfl : rule' = rule := Except.ok.inj (hstop'.1.symm.trans hstop.1)
                  rw [ToolPolicyRule.decision, heffect] at hdenies
                  cases hdenies
                · rcases hfail with ⟨e, hparse⟩ | ⟨rule', e, hparse, hmatch⟩
                  · rw [hstop.1] at hparse
                    cases hparse
                  · rw [hstop.1] at hparse
                    cases hparse
                    rw [hstop.2] at hmatch
                    cases hmatch
            | cons first before =>
                obtain ⟨rfl, rfl⟩ := List.cons.inj heq
                exact stopsAt_not_pass hstop (passesOver_cons.1 hbefore).1
        · intro hnot
          refine ⟨rule.decision, rfl, ?_⟩
          cases heffect : rule.effect.denies with
          | true => exact heffect
          | false =>
              exact absurd (.inr ⟨[], entry, entries, rfl, passesOver_nil,
                .inl ⟨rule, hstop, heffect⟩⟩) hnot
      · obtain ⟨e, he⟩ := evaluateRules_of_fail default entries hfail
        rw [he]
        constructor
        · rintro ⟨d, ⟨⟩, -⟩
        · intro hnot
          exact absurd (.inr ⟨[], entry, entries, rfl, passesOver_nil, .inr hfail⟩) hnot

end Evaluator

/-! ## Patterns that any call matches -/

/-- The rule has no argument patterns but stars. -/
def AnyArguments (ruleArgs : Option Json) : Prop :=
  ∀ ruleVals, ruleArgs = some ruleVals → isTruthyValue (some ruleVals) = true →
    ∀ pair ∈ argumentEntries ruleVals, pair.2 = .str "*"

section Arguments

variable {regExp : RegExpTest} {tool : String} {args : OrderedMap String Json}

theorem matchesEntries_iff {entries : List (String × Json)} :
    matchesEntries regExp args entries = .ok true ↔
      ∀ pair ∈ entries, matchesArgument regExp args pair.1 pair.2 = .ok true := by
  induction entries with
  | nil => simp [matchesEntries]
  | cons pair entries ih =>
      rcases pair with ⟨key, ruleVal⟩
      rw [List.forall_mem_cons, ← ih, matchesEntries]
      cases matchesArgument regExp args key ruleVal with
      | error e => simp
      | ok found => cases found <;> simp

/-- A pattern that is matched by no arguments and by a `null` under its key is a star. -/
theorem star_of_matchesArgument {key : String} {ruleVal : Json}
    (hnone : matchesArgument regExp [] key ruleVal = .ok true)
    (hnull : matchesArgument regExp [(key, .null)] key ruleVal = .ok true) :
    ruleVal = .str "*" := by
  unfold matchesArgument at hnone hnull
  split at hnone
  · rename_i habsent
    rw [if_pos habsent] at hnull
    simp [OrderedMap.get?] at hnull
  · split at hnone
    · rfl
    · rename_i hget _
      cases hget
    · rename_i hget _
      cases hget
    · cases hnone

theorem matchesArguments_iff {ruleArgs : Option Json} :
    (∀ args, matchesArguments regExp args ruleArgs = .ok true) ↔ AnyArguments ruleArgs := by
  cases ruleArgs with
  | none =>
      constructor
      · rintro - _ ⟨⟩
      · intro _ args
        rfl
  | some ruleVals =>
      unfold matchesArguments AnyArguments
      cases htruthy : isTruthyValue (some ruleVals) with
      | false => simp [htruthy]
      | true =>
          simp only [htruthy, Bool.not_true, Bool.false_eq_true, if_false, matchesEntries_iff]
          constructor
          · rintro hall _ ⟨⟩ - pair hpair
            exact star_of_matchesArgument (hall [] pair hpair) (hall _ pair hpair)
          · intro hstars args pair hpair
            rw [hstars ruleVals rfl htruthy pair hpair]
            rfl

theorem matchesCall_iff {rule : ToolPolicyRule} :
    (∀ args, matchesCall regExp tool args rule = .ok true) ↔
      matchesTool regExp tool rule.tool = .ok true ∧ AnyArguments rule.arguments := by
  unfold matchesCall
  cases matchesTool regExp tool rule.tool with
  | error e => simp
  | ok found =>
      cases found with
      | false => simp
      | true => simp [matchesArguments_iff]

end Arguments

/-! ## Names that a document allows -/

/-- A rule of the permissions allows exactly this name. -/
def AllowsName (permissions : Option Json) (name : String) : Prop :=
  ∃ rule ∈ toolPolicyRules permissions, ∃ effect ∈ toolPolicyAllowEffects,
    RuleNames rule effect name

/-- The default of the permissions is `allow`. -/
def AllowsByDefault (permissions : Option Json) : Prop :=
  ((permissions.bind fun record => record.field? "tool_policy").bind
    fun record => record.field? "default") = some (.str "allow")

section Allowed

variable {policy : NormalizedToolPolicy} {permissions : Option Json} {name tool : String}

/-- What a rule does: nothing, or the name it gives goes to the side of its effect. -/
theorem addRule_cases (policy : NormalizedToolPolicy) (rule : Json) :
    ((∀ effect name, ¬ RuleNames rule effect name) ∧ addRule policy rule = policy) ∨
      ∃ effect text, toolPolicyRuleParts rule = (some (.str effect), some (.str text)) ∧
        jsTrim text ≠ "" ∧ addRule policy rule = {
          allow := if effect ∈ toolPolicyAllowEffects then addName policy.allow (jsTrim text)
            else policy.allow
          deny := if effect ∈ toolPolicyDenyEffects then addName policy.deny (jsTrim text)
            else policy.deny } := by
  rw [addRule]
  cases hparts : toolPolicyRuleParts rule with
  | mk effect tool =>
      show (_ ∧ addToolPolicyRule policy effect tool = policy) ∨ _
      unfold addToolPolicyRule
      split
      · rename_i effect text
        by_cases hempty : jsTrim text = ""
        · left
          refine ⟨?_, if_pos hempty⟩
          rintro _ _ ⟨text', hrule, rfl, hne⟩
          rw [hparts] at hrule
          cases hrule
          exact hne hempty
        · exact .inr ⟨effect, text, rfl, hempty, if_neg hempty⟩
      · rename_i hnotText
        left
        refine ⟨?_, rfl⟩
        rintro effect' _ ⟨text', hrule, -⟩
        rw [hparts] at hrule
        cases hrule
        exact hnotText _ _ rfl rfl

theorem mem_allow_addRule {rule : Json} :
    name ∈ (addRule policy rule).allow ↔
      name ∈ policy.allow ∨ ∃ effect ∈ toolPolicyAllowEffects, RuleNames rule effect name := by
  rcases addRule_cases policy rule with ⟨hnames, hrule⟩ | ⟨effect, text, hparts, hne, hrule⟩
  · rw [hrule]
    refine ⟨.inl, fun h => h.resolve_right ?_⟩
    rintro ⟨effect, -, hname⟩
    exact hnames effect name hname
  · rw [hrule]
    by_cases heffect : effect ∈ toolPolicyAllowEffects
    · simp only [if_pos heffect, mem_addName]
      apply or_congr_right
      constructor
      · rintro rfl
        exact ⟨effect, heffect, text, hparts, rfl, hne⟩
      · rintro ⟨_, -, text', hrule', rfl, -⟩
        rw [hparts] at hrule'
        cases hrule'
        rfl
    · simp only [if_neg heffect]
      refine ⟨.inl, fun h => h.resolve_right ?_⟩
      rintro ⟨effect', heffect', text', hrule', -⟩
      rw [hparts] at hrule'
      cases hrule'
      exact heffect heffect'

theorem mem_allow_foldl_addRule (rules : List Json) :
    name ∈ (rules.foldl addRule policy).allow ↔
      name ∈ policy.allow ∨
        ∃ rule ∈ rules, ∃ effect ∈ toolPolicyAllowEffects, RuleNames rule effect name := by
  induction rules generalizing policy with
  | nil => simp
  | cons rule rules ih =>
      rw [List.foldl_cons, ih, mem_allow_addRule, List.exists_mem_cons_iff, or_assoc]

theorem mem_allow_addDefault {toolPolicy : Option Json} :
    name ∈ (addDefault {} toolPolicy).allow ↔
      (toolPolicy.bind fun record => record.field? "default") = some (.str "allow") ∧
        name = "*" := by
  unfold addDefault
  split
  · rename_i h
    simp [h]
  · rename_i h
    constructor
    · rintro ⟨⟩
    · rintro ⟨hdefault, -⟩
      exact absurd hdefault h

/-- The allowed names are those that a rule allows, and the wildcard by default. -/
theorem mem_allow_iff : name ∈ (normalizeToolPolicy permissions).allow ↔
    (AllowsByDefault permissions ∧ name = "*") ∨ AllowsName permissions name := by
  unfold normalizeToolPolicy addStructuredToolPolicyRules AllowsName AllowsByDefault toolPolicyRules
  rcases (permissions.bind fun record => record.field? "tool_policy").bind
    fun record => record.field? "rules" with _ | x
  · simp [mem_allow_addDefault]
  · cases x with
    | arr rules => simp [mem_allow_foldl_addRule, mem_allow_addDefault]
    | _ => simp [mem_allow_addDefault]

end Allowed

/-! ## Valid documents -/

section Valid

variable {label : String} {permissions : Json}

theorem readEntry_of_valid {i : Nat} {rule : Json} (h : validateSingleRule label i rule = []) :
    ∃ entry, readEntry rule = some entry := by
  cases rule with
  | str text => exact ⟨.text text, rfl⟩
  | null => cases h
  | bool b => cases h
  | num n => cases h
  | arr xs => cases h
  | obj fields =>
      simp only [validateSingleRule, List.append_eq_nil_iff] at h
      obtain ⟨heffect, htool⟩ := h
      cases hread : readEffect ((Json.obj fields).field? "effect") with
      | none => simp [hread] at heffect
      | some effect =>
          split at htool
          · rename_i tool hname
            simp only [readEntry, hread, hname]
            exact ⟨_, rfl⟩
          · cases htool

theorem mapM_readEntry {rules : List Json} (h : ∀ rule ∈ rules, ∃ entry, readEntry rule = some entry) :
    ∃ entries, rules.mapM readEntry = some entries := by
  induction rules with
  | nil => exact ⟨[], rfl⟩
  | cons rule rules ih =>
      obtain ⟨entry, hentry⟩ := h rule List.mem_cons_self
      obtain ⟨entries, hentries⟩ := ih fun rule hrule => h rule (List.mem_cons_of_mem _ hrule)
      exact ⟨entry :: entries, by rw [List.mapM_cons, hentry, hentries]; rfl⟩

/-- A document that the validation accepts is one that the evaluator can read. -/
theorem readToolPolicy_of_valid (h : validateToolPolicyShape label permissions = [])
    (hpolicy : (permissions.field? "tool_policy").isSome = true) :
    ∃ doc, readToolPolicy permissions = some doc := by
  obtain ⟨policy, hpolicy⟩ := Option.isSome_iff_exists.1 hpolicy
  rw [validateToolPolicyShape, hpolicy] at h
  simp only [List.append_eq_nil_iff] at h
  obtain ⟨hdefault, hrules⟩ := h
  cases hread : readEffect (policy.field? "default") with
  | none => simp [hread] at hdefault
  | some default =>
      split at hrules
      · rename_i rules hfield
        have hentries : ∀ rule ∈ rules, ∃ entry, readEntry rule = some entry := by
          intro rule hrule
          obtain ⟨i, hi, rfl⟩ := List.getElem_of_mem hrule
          apply readEntry_of_valid
          exact List.flatten_eq_nil_iff.1 hrules _ (List.mem_mapIdx.2 ⟨i, hi, rfl⟩)
        obtain ⟨entries, hmap⟩ := mapM_readEntry hentries
        refine ⟨{ default, rules := entries }, ?_⟩
        simp [readToolPolicy, hpolicy, hread, hfield, hmap]
      · cases hrules

end Valid

/-! ## The two readings -/

/-- The names of the document leave the tool among the offered ones. -/
def OfferedByNames (permissions : Option Json) (tool : String) : Prop :=
  ¬ Denies permissions tool ∧
    ((¬ AllowsByDefault permissions ∧ ∀ name, ¬ AllowsName permissions name) ∨
      AllowsByDefault permissions ∨ AllowsName permissions "*" ∨ AllowsName permissions tool ∨
        ∃ name, AllowsName permissions name ∧ baseName? name = some tool)

/-- The evaluator denies every call of the tool. -/
def AlwaysDenied (regExp : RegExpTest) (doc : ToolPolicyDocument) (tool : String) : Prop :=
  ∀ args, ∃ d, evaluateToolPolicy regExp tool args doc = .ok d ∧ d.effect.denies = true

/-- Some rule makes the evaluator let every call of the tool pass: the rules before it leave every
call to the default, and with it, as in the whole document, its decision stands. -/
def RuleMakesAllow (regExp : RegExpTest) (doc : ToolPolicyDocument) (tool : String) : Prop :=
  ∃ before entry after rule, doc.rules = before ++ entry :: after ∧ entry.parse = .ok rule ∧
    rule.effect.denies = false ∧
    ∀ args,
      evaluateToolPolicy regExp tool args { doc with rules := before } =
        .ok doc.default.defaultDecision ∧
      evaluateToolPolicy regExp tool args { doc with rules := before ++ [entry] } =
        .ok rule.decision ∧
      evaluateToolPolicy regExp tool args doc = .ok rule.decision

/-- A tool that is always denied is not offered, and a tool that some rule always allows is. -/
def OfferedToolAgrees (regExp : RegExpTest) (permissions : Json) (doc : ToolPolicyDocument)
    (base candidates : List String) (tool : String) : Prop :=
  (AlwaysDenied regExp doc tool →
    tool ∉ applyPolicyToToolNames base candidates (some permissions)) ∧
  (RuleMakesAllow regExp doc tool →
    tool ∈ applyPolicyToToolNames base candidates (some permissions))

/-- What it takes for the readings to agree. Offered by its names, the tool needs a call that
escapes denial; not offered, every rule that lets all of its calls pass needs an earlier entry in its
way. -/
def ReadingsAgree (regExp : RegExpTest) (permissions : Json) (doc : ToolPolicyDocument)
    (tool : String) : Prop :=
  (OfferedByNames (some permissions) tool →
    ∃ args, Escapes regExp tool args doc.default doc.rules) ∧
  (¬ OfferedByNames (some permissions) tool →
    ∀ before entry after rule, doc.rules = before ++ entry :: after → entry.parse = .ok rule →
      rule.effect.denies = false → matchesTool regExp tool rule.tool = .ok true →
      AnyArguments rule.arguments →
      ∃ earlier ∈ before, ∃ args, ¬ ∃ rule', earlier.parse = .ok rule' ∧
        matchesCall regExp tool args rule' = .ok false)

section Readings

variable {regExp : RegExpTest} {doc : ToolPolicyDocument} {base candidates : List String}
  {permissions : Option Json} {tool : String}

/-- Of the tools in both sets those are offered that the names leave. -/
theorem mem_offered_iff (hbase : tool ∈ base) :
    tool ∈ applyPolicyToToolNames base candidates permissions ↔ OfferedByNames permissions tool := by
  have hstar : baseName? "*" ≠ some tool := by
    have hnone : baseName? "*" = none := by decide +kernel
    rw [hnone]
    rintro ⟨⟩
  rw [mem_applyPolicyToToolNames, OfferedByNames, Allows]
  simp only [mem_allow_iff, List.eq_nil_iff_forall_not_mem]
  apply and_congr_right
  intro _
  constructor
  · rintro (⟨hnone, -⟩ | ⟨h, -⟩)
    · left
      exact ⟨fun hdefault => hnone "*" (.inl ⟨hdefault, rfl⟩), fun name hname =>
        hnone name (.inr hname)⟩
    · right
      rcases h with (⟨h, -⟩ | h) | (⟨h, -⟩ | h) | ⟨name, ⟨-, rfl⟩ | hname, hbaseName⟩
      · exact .inl h
      · exact .inr (.inl h)
      · exact .inl h
      · exact .inr (.inr (.inl h))
      · exact absurd hbaseName hstar
      · exact .inr (.inr (.inr ⟨name, hname, hbaseName⟩))
  · rintro (⟨hdefault, hnames⟩ | h)
    · left
      refine ⟨?_, hbase⟩
      rintro name (⟨h, -⟩ | h)
      · exact hdefault h
      · exact hnames name h
    · right
      refine ⟨?_, .inl hbase⟩
      rcases h with h | h | h | ⟨name, hname, hbaseName⟩
      · exact .inl (.inl ⟨h, trivial⟩)
      · exact .inl (.inr h)
      · exact .inr (.inl (.inr h))
      · exact .inr (.inr ⟨name, .inr hname, hbaseName⟩)

theorem alwaysDenied_iff : AlwaysDenied regExp doc tool ↔
    ¬ ∃ args, Escapes regExp tool args doc.default doc.rules := by
  rw [not_exists]
  exact forall_congr' fun args => evaluateRules_denied_iff

/-- A rule that makes the evaluator allow every call matches all of them, and no earlier entry
matches any. -/
theorem ruleMakesAllow_iff : RuleMakesAllow regExp doc tool ↔
    ∃ before entry after rule, doc.rules = before ++ entry :: after ∧ entry.parse = .ok rule ∧
      rule.effect.denies = false ∧ matchesTool regExp tool rule.tool = .ok true ∧
      AnyArguments rule.arguments ∧ ∀ args, PassesOver regExp tool args before := by
  apply exists_congr
  intro before
  apply exists_congr
  intro entry
  apply exists_congr
  intro after
  apply exists_congr
  intro rule
  constructor
  · rintro ⟨hrules, hparse, heffect, hall⟩
    have hpass : ∀ args, PassesOver regExp tool args before := fun args =>
      evaluateRules_default_iff.1 (hall args).1
    have hmatch : ∀ args, matchesCall regExp tool args rule = .ok true := by
      intro args
      have hdecision := (hall args).2.1
      rw [evaluateToolPolicy, evaluateRules_append (hpass args)] at hdecision
      rcases entry_outcome regExp tool args entry with hentry | ⟨rule', hstop⟩ | hfail
      · rw [evaluateRules_of_pass hentry] at hdecision
        exact absurd (Except.ok.inj hdecision).symm decision_ne_default
      · obtain rfl : rule' = rule := Except.ok.inj (hstop.1.symm.trans hparse)
        exact hstop.2
      · obtain ⟨e, he⟩ := evaluateRules_of_fail doc.default [] hfail
        rw [he] at hdecision
        cases hdecision
    obtain ⟨htool, hargs⟩ := matchesCall_iff.1 hmatch
    exact ⟨hrules, hparse, heffect, htool, hargs, hpass⟩
  · rintro ⟨hrules, hparse, heffect, htool, hargs, hpass⟩
    refine ⟨hrules, hparse, heffect, fun args => ?_⟩
    have hstop : StopsAt regExp tool args entry rule := ⟨hparse, matchesCall_iff.2 ⟨htool, hargs⟩ args⟩
    refine ⟨evaluateRules_default_iff.2 (hpass args), ?_, ?_⟩
    · rw [evaluateToolPolicy, evaluateRules_append (hpass args), evaluateRules_of_stop hstop]
    · rw [evaluateToolPolicy, hrules, evaluateRules_append (hpass args),
        evaluateRules_of_stop hstop]

theorem offeredToolAgrees_iff {permissions : Json} (hbase : tool ∈ base) :
    OfferedToolAgrees regExp permissions doc base candidates tool ↔
      ReadingsAgree regExp permissions doc tool := by
  rw [OfferedToolAgrees, ReadingsAgree, mem_offered_iff hbase, alwaysDenied_iff, ruleMakesAllow_iff]
  apply and_congr
  · rw [not_imp_not]
  · rw [← not_imp_not]
    apply imp_congr_right
    intro _
    constructor
    · intro hnone before entry after rule hrules hparse heffect htool hargs
      by_contra hearlier
      push Not at hearlier
      exact hnone ⟨before, entry, after, rule, hrules, hparse, heffect, htool, hargs,
        fun args earlier hmem => hearlier earlier hmem args⟩
    · rintro hearlier ⟨before, entry, after, rule, hrules, hparse, heffect, htool, hargs, hpass⟩
      obtain ⟨earlier, hmem, args, hnot⟩ :=
        hearlier before entry after rule hrules hparse heffect htool hargs
      exact hnot (hpass args earlier hmem)

end Readings

/-- **Offered tools agree with the evaluator exactly when the two readings of the document do.** -/
theorem offered_tools_agree_iff (regExp : RegExpTest) (label : String) {permissions : Json}
    (hvalid : validateToolPolicyShape label permissions = [])
    (hpolicy : (permissions.field? "tool_policy").isSome = true) :
    ∃ doc, readToolPolicy permissions = some doc ∧
      ∀ (base candidates : List String) (tool : String), tool ∈ base → tool ∈ candidates →
        (OfferedToolAgrees regExp permissions doc base candidates tool ↔
          ReadingsAgree regExp permissions doc tool) := by
  obtain ⟨doc, hdoc⟩ := readToolPolicy_of_valid hvalid hpolicy
  exact ⟨doc, hdoc, fun _ _ _ hbase _ => offeredToolAgrees_iff hbase⟩

/-- The regular expressions of documents without stars: none is tested. -/
def withoutGlobs : RegExpTest := fun _ _ => none

/-- Permissions with one rule. -/
def oneRulePolicy (default rule : String) : Json :=
  .obj [("tool_policy", .obj [("default", .str default), ("rules", .arr [.str rule])])]

theorem offered_tools_agree_iff_one_rule :
    ∃ doc, readToolPolicy (oneRulePolicy "deny" "allow git_status") = some doc ∧
      ∀ (base candidates : List String) (tool : String), tool ∈ base → tool ∈ candidates →
        (OfferedToolAgrees withoutGlobs (oneRulePolicy "deny" "allow git_status") doc base
            candidates tool ↔
          ReadingsAgree withoutGlobs (oneRulePolicy "deny" "allow git_status") doc tool) :=
  offered_tools_agree_iff withoutGlobs "permissions" (by decide +kernel)
    (by decide +kernel)

/-- A rule in capital letters denies every call of a tool that is offered. -/
theorem upper_case_deny_is_offered :
    ¬ ∀ (permissions : Json) (doc : ToolPolicyDocument),
      validateToolPolicyShape "permissions" permissions = [] →
      readToolPolicy permissions = some doc →
      ∀ (base candidates : List String) (tool : String), tool ∈ base → tool ∈ candidates →
        OfferedToolAgrees withoutGlobs permissions doc base candidates tool := by
  intro h
  have hagrees := h (oneRulePolicy "allow" "DENY git_push") ⟨.allow, [.text "DENY git_push"]⟩
    (by decide +kernel) rfl ["git_push"] ["git_push"] "git_push" (by decide) (by decide)
  have hparse : parseStringRule "DENY git_push" = .ok { effect := .deny, tool := "git_push" } := by
    rfl
  apply hagrees.1
  · intro args
    have hstop : StopsAt withoutGlobs "git_push" args (.text "DENY git_push")
        { effect := .deny, tool := "git_push" } := ⟨hparse, rfl⟩
    exact ⟨_, evaluateRules_of_stop hstop, rfl⟩
  · decide +kernel

end Nexus
