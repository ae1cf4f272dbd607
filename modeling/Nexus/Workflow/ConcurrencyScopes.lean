import Nexus.Lib.PathParts
import Nexus.Workflow.Launch

/-!
# Concurrency scopes

The scope of a run is the values of the paths of its policy, put together with colons. Two triggers
get one scope for different values just when the colons inside the values make up for the ones in
between, and a single value `global` gets the scope of a policy without paths
(`concurrency_scopes_separate_iff`).
-/

set_option autoImplicit false

namespace Nexus

namespace ConcurrencyPolicyService

/-- The paths of the scope of a policy. -/
def scopePaths (policy : IConcurrencyPolicy) : List String :=
  ((normalizeScopeExpression (policy.scope.getD "global")).toList.splitOn '+').map String.ofList

/-- What the trigger has at a path. -/
def resolvedValue (triggerData : JsonRecord) (path : String) : Option Json :=
  let cs := path.toList
  let stripped := if "trigger.".toList.isPrefixOf cs then cs.drop 8 else cs
  (splitDots (String.ofList stripped)).foldl propertyOf (some (.obj triggerData))

/-- The policy names paths: it is not the one scope of all runs. -/
def IsScoped (policy : IConcurrencyPolicy) : Prop :=
  normalizeScopeExpression (policy.scope.getD "global") ≠ "global"

/-- The values of all paths are texts. -/
def ResolvesTo (policy : IConcurrencyPolicy) (triggerData : JsonRecord) (values : List String) :
    Prop :=
  (scopePaths policy).map (resolvedValue triggerData) = values.map fun value => some (.str value)

/-- The parts of the values between colons, one value after the other. -/
def colonParts (values : List String) : List (List Char) :=
  (values.map String.toList).flatMap fun value => value.splitOn ':'

/-- How many colons each value has. -/
def colons (values : List String) : List Nat := (values.map String.toList).map (List.count ':')

variable {triggerData : JsonRecord}

theorem scopeValue_of_text {path value : String}
    (h : resolvedValue triggerData path = some (.str value)) :
    scopeValue triggerData path = value := by
  unfold resolvedValue at h
  unfold scopeValue
  dsimp only at h ⊢
  rw [h]

variable {values : List String}

/-- The scope of a trigger whose values are texts. -/
theorem resolveConcurrencyScope_eq {policy : IConcurrencyPolicy} (hscoped : IsScoped policy)
    (h : ResolvesTo policy triggerData values) :
    resolveConcurrencyScope policy triggerData = ":".intercalate values := by
  have hvalues : ∀ {paths values : List String},
      paths.map (resolvedValue triggerData) = values.map (fun value => some (Json.str value)) →
      paths.map (scopeValue triggerData) = values := by
    intro paths
    induction paths with
    | nil =>
        intro values hpaths
        exact (List.map_eq_nil_iff.1 hpaths.symm).symm
    | cons path paths ih =>
        intro values hpaths
        cases values with
        | nil => simp at hpaths
        | cons value values =>
            rw [List.map_cons, List.map_cons, List.cons.injEq] at hpaths
            rw [List.map_cons, scopeValue_of_text hpaths.1, ih hpaths.2]
  rw [resolveConcurrencyScope, if_neg hscoped, ← hvalues h]
  rfl

theorem ResolvesTo.ne_nil {policy : IConcurrencyPolicy} (h : ResolvesTo policy triggerData values) :
    values ≠ [] := by
  rintro rfl
  have hpaths : scopePaths policy = [] := List.map_eq_nil_iff.1 h
  exact List.splitOn_ne_nil _ _ (List.map_eq_nil_iff.1 hpaths)

theorem splitOn_scope (hne : values ≠ []) :
    (":".intercalate values).toList.splitOn ':' = colonParts values := by
  rw [String.toList_intercalate]
  exact Parts.splitOn_intercalate (by simpa using hne)

/-- Two lists of values have one scope just when they have the same parts. -/
theorem scope_eq_iff {values' : List String} (hne : values ≠ []) (hne' : values' ≠ []) :
    ":".intercalate values = ":".intercalate values' ↔ colonParts values = colonParts values' := by
  rw [← splitOn_scope hne, ← splitOn_scope hne']
  constructor
  · intro h
    rw [h]
  · intro h
    exact String.toList_inj.1 (Parts.splitOn_injective h)

/-- The values are determined by their parts and their colons. -/
theorem eq_of_colonParts {values' : List String} (hcolons : colons values = colons values')
    (h : colonParts values = colonParts values') : values = values' := by
  have hlists := Parts.eq_of_flatMap_splitOn hcolons h
  exact (List.map_injective_iff.2 fun _ _ => String.toList_inj.1) hlists

/-- The scope of all runs is the one of the single value `global`. -/
theorem scope_eq_global_iff (hne : values ≠ []) :
    ":".intercalate values = "global" ↔ values = ["global"] := by
  have hsingle : ":".intercalate ["global"] = "global" := by simp
  constructor
  · intro h
    rw [← hsingle, scope_eq_iff hne (by simp)] at h
    apply eq_of_colonParts _ h
    -- a value with a colon, or a second value, has a part more
    have hlength : (colonParts values).length = 1 := by
      rw [h]
      decide
    have hparts : ∀ value : String, 0 < (value.toList.splitOn ':').length := fun value =>
      List.length_pos_iff.2 (List.splitOn_ne_nil _ _)
    match values with
    | [] => exact absurd rfl hne
    | [value] =>
        have hcount : (value.toList.splitOn ':').length = 1 := by simpa [colonParts] using hlength
        rw [Parts.length_splitOn] at hcount
        simp only [colons, List.map_cons, List.map_nil, List.cons.injEq, and_true]
        rw [Nat.succ_inj.1 hcount]
        decide
    | value :: value' :: values =>
        have hfirst := hparts value
        have hsecond := hparts value'
        simp only [colonParts, List.map_cons, List.flatMap_cons, List.length_append] at hlength
        omega
  · rintro rfl
    exact hsingle

/-- **Concurrency scopes.** For two triggers whose values at the paths of a scope are texts: the
scopes are the same just for the same values, and neither is the scope of all runs, exactly when
values with the same parts also have the same colons and neither trigger has the single value
`global`. -/
theorem concurrency_scopes_separate_iff (policy : IConcurrencyPolicy) (hscoped : IsScoped policy)
    (triggerData triggerData' : JsonRecord) (values values' : List String)
    (h : ResolvesTo policy triggerData values) (h' : ResolvesTo policy triggerData' values') :
    ((resolveConcurrencyScope policy triggerData = resolveConcurrencyScope policy triggerData' ↔
        values = values') ∧
      resolveConcurrencyScope policy triggerData ≠ "global" ∧
      resolveConcurrencyScope policy triggerData' ≠ "global") ↔
    (colonParts values = colonParts values' → colons values = colons values') ∧
      values ≠ ["global"] ∧ values' ≠ ["global"] := by
  rw [resolveConcurrencyScope_eq hscoped h, resolveConcurrencyScope_eq hscoped h',
    scope_eq_iff h.ne_nil h'.ne_nil, ne_eq, scope_eq_global_iff h.ne_nil, ne_eq,
    scope_eq_global_iff h'.ne_nil]
  refine and_congr ?_ Iff.rfl
  constructor
  · intro hsame hparts
    rw [hsame.1 hparts]
  · intro hcolons
    refine ⟨fun hparts => eq_of_colonParts (hcolons hparts) hparts, ?_⟩
    rintro rfl
    rfl

/-- The scope of a tenant and a resource. -/
def tenantPolicy : IConcurrencyPolicy where
  max_runs := 1
  scope := some "trigger.tenant+trigger.id"

def tenantTrigger (tenant id : String) : JsonRecord := [("tenant", .str tenant), ("id", .str id)]

theorem resolvesTo_tenantTrigger (tenant id : String) :
    ResolvesTo tenantPolicy (tenantTrigger tenant id) [tenant, id] := by
  have hpaths : scopePaths tenantPolicy = ["trigger.tenant", "trigger.id"] := by decide +kernel
  rw [ResolvesTo, hpaths]
  rfl

theorem concurrency_scopes_separate_tenants : IsScoped tenantPolicy ∧
    ((resolveConcurrencyScope tenantPolicy (tenantTrigger "a" "1") =
          resolveConcurrencyScope tenantPolicy (tenantTrigger "b" "1") ↔
        ["a", "1"] = ["b", "1"]) ∧
      resolveConcurrencyScope tenantPolicy (tenantTrigger "a" "1") ≠ "global" ∧
      resolveConcurrencyScope tenantPolicy (tenantTrigger "b" "1") ≠ "global") := by
  have hscoped : IsScoped tenantPolicy := by
    unfold IsScoped
    decide +kernel
  refine ⟨hscoped, (concurrency_scopes_separate_iff tenantPolicy hscoped _ _ _ _
    (resolvesTo_tenantTrigger "a" "1") (resolvesTo_tenantTrigger "b" "1")).2 ?_⟩
  decide +kernel

/-- The runs of two tenants share a scope. -/
theorem tenants_share_scope :
    ResolvesTo tenantPolicy (tenantTrigger "a:b" "c") ["a:b", "c"] ∧
    ResolvesTo tenantPolicy (tenantTrigger "a" "b:c") ["a", "b:c"] ∧
    ["a:b", "c"] ≠ ["a", "b:c"] ∧
    resolveConcurrencyScope tenantPolicy (tenantTrigger "a:b" "c") =
      resolveConcurrencyScope tenantPolicy (tenantTrigger "a" "b:c") :=
  ⟨resolvesTo_tenantTrigger _ _, resolvesTo_tenantTrigger _ _, by decide, by decide +kernel⟩

end ConcurrencyPolicyService

end Nexus
