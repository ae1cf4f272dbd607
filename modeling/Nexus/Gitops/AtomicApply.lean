import Nexus.Gitops.ReconciliationApply
import Nexus.Gitops.ScopeAddresses
import Nexus.Lib.TracedRuns

/-!
# What a rejected plan leaves behind

A call of `apply` that rejects leaves the tables as they were unless a scope node has been created
before: the transaction of `ScopeService.createNode` commits on its own, and the rollback does not
reach it. A created node stands below the id in the field `parentId` of the desired object, or below
the platform root when there is none, whatever the path of the entry says. `applied_atomically_iff`
has both conditions for every plan, every state of the tables and every statement that may throw.
-/

set_option autoImplicit false

namespace Nexus

open ReconciliationApplyService GitOpsObjectHelpers

/-! ## The property -/

abbrev ApplyStep : Type := ApplyStore × ApplyOp

/-- The scope node that a statement creates. -/
def ApplyOp.createdNode (s : ApplyStore) : ApplyOp → Option ScopeNode
  | .createNode path input =>
      match ((ApplyOp.createNode path input).exec s).2 with
      | .ok node => some node
      | .error _ => none
  | _ => none

/-- The nodes that the steps of a call have created. -/
def createdNodes (steps : List ApplyStep) : List ScopeNode :=
  steps.filterMap fun step => step.2.createdNode step.1

/-- A path names a node as the parent: the slugs before its last one lead there from the platform
root. -/
def NamesParent (scopes : ScopeTables) (path parentId : String) : Prop :=
  ∃ parents slug, SlashPath.segments path = parents ++ [slug] ∧
    SlugTrail scopes (fun _ => True) globalScopeNodeId parents parentId

/-- The tables of scopes that a statement on another connection sees. -/
def ApplyStore.seenScopes (s : ApplyStore) : ScopeTables := s.tables.committed.scopes.tables

/-- Every created node stands below the node that its path names. -/
def EveryNodePlaced (steps : List ApplyStep) : Prop :=
  ∀ s path input node, (s, .createNode path input) ∈ steps →
    (ApplyOp.createNode path input).createdNode s = some node →
      ∃ parentId, node.parentId = some parentId ∧ NamesParent s.seenScopes path parentId

/-- A call that rejects leaves the tables as they were, and one that resolves has put every created
node where its path says. -/
def AppliesAtomically (plan : ReconciliationPlan) (options : ApplyOptions) (s : ApplyStore) : Prop :=
  match (apply plan options).run ApplyOp.exec s with
  | (s', .error _) => s'.tables.committed = s.tables.committed
  | (_, .ok _) => EveryNodePlaced ((apply plan options).trace ApplyOp.exec s)

/-! ## The condition -/

/-- The parent that an entry gives, by the field `parentId` or else the platform root, is the one
that its path names. -/
def ParentsGiven (steps : List ApplyStep) : Prop :=
  ∀ s path input node, (s, .createNode path input) ∈ steps →
    (ApplyOp.createNode path input).createdNode s = some node →
      NamesParent s.seenScopes path (input.parentId.getD globalScopeNodeId)

/-- No scope node is created before the point at which the call throws; where it throws nowhere,
the entries that create scope nodes give the parents that their paths name. -/
def MindsCreatedNodes (plan : ReconciliationPlan) (options : ApplyOptions) (s : ApplyStore) : Prop :=
  match (apply plan options).run ApplyOp.exec s with
  | (_, .error _) => createdNodes ((apply plan options).trace ApplyOp.exec s) = []
  | (_, .ok _) => ParentsGiven ((apply plan options).trace ApplyOp.exec s)

/-- A statement that does not update or delete a scope node. -/
def ApplyOp.KeepsNodes : ApplyOp → Prop
  | .query (.updateScopeNode _ _) => False
  | .query (.deleteScopeNode _) => False
  | _ => True

/-! ## The created node -/

/-- The row that `createNode` inserts. -/
def CreateScopeNodeInput.row (input : CreateScopeNodeInput) (type : ScopeNodeType)
    (generated : String) : ScopeNode where
  id := input.id.getD generated
  parentId := some (input.parentId.getD globalScopeNodeId)
  type := type
  name := input.name
  slug := input.slug
  metadata := input.metadata
  isTenantRoot := input.isTenantRoot

section CreatedNode

variable {input : CreateScopeNodeInput} {generated : String} {type : ScopeNodeType}
  {scopes scopes' : ScopeTables} {t t' : ApplyTables} {node node' : ScopeNode}

/-- The transaction appends the row. -/
theorem createNodeBody_appends
    (h : createNodeBody input type generated scopes = .ok (scopes', node)) :
    node = input.row type generated ∧ scopes'.nodes = scopes.nodes ++ [node] := by
  have hnodes : scopes'.nodes = scopes.nodes ++ [node] := by
    obtain ⟨_, _, _, _, _, _, _, _, rfl⟩ := createNodeBody_ok h
    rfl
  refine ⟨?_, hnodes⟩
  unfold createNodeBody at h
  obtain ⟨-, -, h⟩ := exists_of_bind_ok h
  cases hfind : scopes.findNode (input.parentId.getD globalScopeNodeId) with
  | none =>
      simp only [hfind] at h
      cases h
  | some parent =>
      simp only [hfind] at h
      obtain ⟨-, -, h⟩ := exists_of_bind_ok h
      obtain ⟨inserted, -, h⟩ := exists_of_bind_ok h
      obtain ⟨inherited, -, h⟩ := exists_of_bind_ok h
      exact (congrArg Prod.snd (Except.ok.inj h)).symm

theorem createNode_appends (h : t.createNode input generated = .ok (t', node)) :
    ∃ type, ScopeNodeType.ofText? input.type = some type ∧ node = input.row type generated ∧
      t'.scopes.tables.nodes = t.scopes.tables.nodes ++ [node] := by
  unfold ApplyTables.createNode Nexus.createNode at h
  cases htype : ScopeNodeType.ofText? input.type with
  | none =>
      rw [htype] at h
      cases h
  | some type =>
      rw [htype] at h
      cases hroot : assertValidTenantRootType input.isTenantRoot type with
      | error e =>
          simp only [hroot] at h
          cases h
      | ok _ =>
          simp only [hroot, scopeTransaction] at h
          cases hbody : createNodeBody input type generated t.scopes.tables with
          | error e =>
              simp only [hbody] at h
              cases h
          | ok r =>
              simp only [hbody] at h
              obtain ⟨rfl, rfl⟩ := Prod.mk.inj (Except.ok.inj h)
              obtain ⟨hnode, hnodes⟩ := createNodeBody_appends hbody
              exact ⟨type, rfl, hnode, hnodes⟩

/-- The row depends on the call alone. -/
theorem createNode_same {u u' : ApplyTables} (h : t.createNode input generated = .ok (t', node))
    (h' : u.createNode input generated = .ok (u', node')) : node' = node := by
  obtain ⟨type, htype, hnode, -⟩ := createNode_appends h
  obtain ⟨type', htype', hnode', -⟩ := createNode_appends h'
  obtain rfl := Option.some.inj (htype.symm.trans htype')
  rw [hnode, hnode']

end CreatedNode

/-! ## Statements -/

variable {path : String} {node : ScopeNode}

section Statements

variable {s s' : ApplyStore} {o : ApplyOp}

/-- A statement throws and changes nothing, or it has its effect. -/
theorem ApplyOp.exec_cases (s : ApplyStore) (o : ApplyOp) :
    (∃ message, o.exec s = (s.tick, .error message)) ∨
      ∃ s' value, o.effect s = .ok (s', value) ∧ o.exec s = (s'.tick, .ok value) := by
  unfold ApplyOp.exec
  cases s.outcome.error with
  | some message => exact .inl ⟨message, rfl⟩
  | none =>
      cases heffect : o.effect s with
      | error message => exact .inl ⟨message, rfl⟩
      | ok r => exact .inr ⟨r.1, r.2, rfl, rfl⟩

theorem createdNode_of_error {message : String} (h : (o.exec s).2 = .error message) :
    o.createdNode s = none := by
  cases o with
  | createNode path input => simp [ApplyOp.createdNode, h]
  | _ => rfl

theorem createdNode_of_ok {input : CreateScopeNodeInput}
    (h : ((ApplyOp.createNode path input).exec s).2 = .ok node) :
    (ApplyOp.createNode path input).createdNode s = some node := by
  simp [ApplyOp.createdNode, h]

@[simp] theorem createdNodes_snoc (steps : List ApplyStep) (step : ApplyStep) :
    createdNodes (steps ++ [step]) = createdNodes steps ++ (step.2.createdNode step.1).toList := by
  rw [createdNodes, List.filterMap_append, ← createdNodes]
  cases h : step.2.createdNode step.1 <;> simp [h]

/-- What the statement of a scope node has done on both sides. -/
theorem createNode_effect {input : CreateScopeNodeInput} {w : ApplyTables}
    (hopen : s.tables.working = some w)
    (h : (ApplyOp.createNode path input).effect s = .ok (s', node)) :
    ∃ w', s'.tables.working = some w' ∧
      s'.seenScopes.nodes = s.seenScopes.nodes ++ [node] ∧
      w'.scopes.tables.nodes = w.scopes.tables.nodes ++ [node] := by
  simp only [ApplyOp.effect] at h
  cases houtside : s.tables.outside (ApplyTables.createNode input s.outcome.generated) with
  | error message =>
      rw [houtside] at h
      cases h
  | ok r =>
      rw [houtside] at h
      obtain ⟨rfl, rfl⟩ := Prod.mk.inj (Except.ok.inj h)
      obtain ⟨c, w', node', hc, hw, htables⟩ := Transactional.outside_ok hopen houtside
      obtain ⟨-, -, -, hseen⟩ := createNode_appends hc
      obtain ⟨-, -, -, hworking⟩ := createNode_appends hw
      rw [createNode_same hc hw] at hworking
      refine ⟨w', by simp [htables], ?_, hworking⟩
      simpa [ApplyStore.seenScopes, htables] using hseen

/-- Statements through the manager keep the scope nodes, unless they update or delete one. -/
theorem effect_keeps_scopes {statement : ManagerStatement} {generated : String}
    {t t' : ApplyTables} (hkeeps : (ApplyOp.query statement).KeepsNodes)
    (h : statement.effect generated t = .ok t') : t'.scopes = t.scopes := by
  cases statement with
  | updateScopeNode id pairs => exact hkeeps.elim
  | deleteScopeNode id => exact hkeeps.elim
  | tagScopeNode id =>
      obtain ⟨-, -, h⟩ := exists_of_bind_ok h
      split at h
      · exact Except.ok.inj h ▸ rfl
      · exact Except.ok.inj h ▸ rfl
  | insertRole name description =>
      simp only [ManagerStatement.effect, ApplyTables.insertRole] at h
      obtain ⟨name', -, h⟩ := exists_of_bind_ok h
      obtain ⟨description', -, h⟩ := exists_of_bind_ok h
      split at h
      · exact Except.ok.inj h ▸ rfl
      · exact Except.ok.inj h ▸ rfl
  | updateRole name pairs =>
      simp only [ManagerStatement.effect, ApplyTables.updateRole] at h
      cases hfind : t.findRole name with
      | none =>
          simp only [hfind] at h
          exact Except.ok.inj h ▸ rfl
      | some role =>
          simp only [hfind] at h
          obtain ⟨updated, -, h⟩ := exists_of_bind_ok h
          split at h
          · cases h
          · exact Except.ok.inj h ▸ rfl
  | deleteRole name => exact Except.ok.inj h ▸ rfl
  | insertAssignment userId roleId scopeNodeId =>
      obtain ⟨-, -, h⟩ := exists_of_bind_ok h
      obtain ⟨-, -, h⟩ := exists_of_bind_ok h
      obtain ⟨-, -, h⟩ := exists_of_bind_ok h
      split at h
      · exact Except.ok.inj h ▸ rfl
      · split at h
        · cases h
        · split at h
          · cases h
          · split at h
            · cases h
            · exact Except.ok.inj h ▸ rfl
  | deleteAssignment userId roleId scopeNodeId =>
      obtain ⟨-, -, h⟩ := exists_of_bind_ok h
      obtain ⟨-, -, h⟩ := exists_of_bind_ok h
      obtain ⟨-, -, h⟩ := exists_of_bind_ok h
      exact Except.ok.inj h ▸ rfl
  | insertConfig row =>
      simp only [ManagerStatement.effect, ApplyTables.insertConfig] at h
      cases hscope : row.scopeNodeId with
      | none =>
          simp only [hscope] at h
          split at h
          · cases h
          · exact Except.ok.inj h ▸ rfl
      | some scopeNodeId =>
          simp only [hscope] at h
          obtain ⟨-, -, h⟩ := exists_of_bind_ok h
          split at h
          · exact Except.ok.inj h ▸ rfl
          · split at h
            · cases h
            · exact Except.ok.inj h ▸ rfl
  | updateConfig table name scopeNodeId bindingId pairs =>
      cases scopeNodeId with
      | none =>
          simp only [ManagerStatement.effect, ApplyTables.updateConfig] at h
          obtain ⟨-, -, h⟩ := exists_of_bind_ok h
          obtain ⟨-, -, h⟩ := exists_of_bind_ok h
          exact Except.ok.inj h ▸ rfl
      | some id =>
          simp only [ManagerStatement.effect, ApplyTables.updateConfig] at h
          obtain ⟨-, -, h⟩ := exists_of_bind_ok h
          obtain ⟨-, -, h⟩ := exists_of_bind_ok h
          exact Except.ok.inj h ▸ rfl

end Statements

/-! ## The transaction -/

/-- The statements between the start and the commit. -/
def ApplyOp.InBody : ApplyOp → Prop
  | .startTransaction => False
  | .commitTransaction => False
  | .rollbackTransaction => False
  | _ => True

/-- As long as the transaction is not committed, the other connections see the tables before the call
with the created nodes. -/
structure Uncommitted (before : ApplyTables) (g : ApplyStore × List ApplyStep) : Prop where
  nodes : g.1.seenScopes.nodes = before.scopes.tables.nodes ++ createdNodes g.2
  unchanged : createdNodes g.2 = [] → g.1.tables.committed = before
  seen : ∀ step ∈ g.2, step.1.seenScopes.nodes <+: g.1.seenScopes.nodes

/-- The transaction itself sees the same scope nodes, unless it has updated or deleted some. -/
structure InTransaction (before : ApplyTables) (g : ApplyStore × List ApplyStep) : Prop
    extends Uncommitted before g where
  isOpen : ∃ w, g.1.tables.working = some w ∧
    ((∀ step ∈ g.2, step.2.KeepsNodes) → w.scopes.tables.nodes = g.1.seenScopes.nodes)

section Transaction

variable {before : ApplyTables} {g : ApplyStore × List ApplyStep} {s' : ApplyStore} {o : ApplyOp}

/-- A step that commits nothing and creates no node. -/
theorem Uncommitted.step (h : Uncommitted before g)
    (hsame : s'.tables.committed = g.1.tables.committed) (hcreated : o.createdNode g.1 = none) :
    Uncommitted before (s', g.2 ++ [(g.1, o)]) := by
  have hnodes : createdNodes (g.2 ++ [(g.1, o)]) = createdNodes g.2 := by simp [hcreated]
  have hseen : s'.seenScopes = g.1.seenScopes := by rw [ApplyStore.seenScopes, hsame]; rfl
  constructor
  · show s'.seenScopes.nodes = _
    rw [hseen, hnodes]
    exact h.nodes
  · intro hnone
    rw [hnodes] at hnone
    exact hsame.trans (h.unchanged hnone)
  · intro step hstep
    show _ <+: s'.seenScopes.nodes
    rw [hseen]
    rcases List.mem_append.1 hstep with hstep | hstep
    · exact h.seen step hstep
    · obtain rfl := List.mem_singleton.1 hstep
      exact List.prefix_rfl

/-- A step of the transaction that creates no node. -/
theorem InTransaction.step (h : InTransaction before g)
    (hsame : s'.tables.committed = g.1.tables.committed) (hcreated : o.createdNode g.1 = none)
    (hopen : ∀ w, g.1.tables.working = some w → ∃ w', s'.tables.working = some w' ∧
      (o.KeepsNodes → w'.scopes.tables.nodes = w.scopes.tables.nodes)) :
    InTransaction before (s', g.2 ++ [(g.1, o)]) := by
  refine ⟨h.toUncommitted.step hsame hcreated, ?_⟩
  obtain ⟨w, hw, hkept⟩ := h.isOpen
  obtain ⟨w', hw', hnodes⟩ := hopen w hw
  refine ⟨w', hw', fun hkeeps => ?_⟩
  have hseen : s'.seenScopes = g.1.seenScopes := by rw [ApplyStore.seenScopes, hsame]; rfl
  show w'.scopes.tables.nodes = s'.seenScopes.nodes
  rw [hseen, hnodes (hkeeps (g.1, o) (by simp))]
  exact hkept fun step hstep => hkeeps step (List.mem_append_left _ hstep)

/-- The step that creates a node appends it on both sides. -/
theorem InTransaction.create {input : CreateScopeNodeInput} (h : InTransaction before g)
    (hcreated : (ApplyOp.createNode path input).createdNode g.1 = some node)
    (heffect : (ApplyOp.createNode path input).effect g.1 = .ok (s', node)) :
    InTransaction before (s'.tick, g.2 ++ [(g.1, .createNode path input)]) := by
  obtain ⟨w, hw, hkept⟩ := h.isOpen
  obtain ⟨w', hw', hseen, hworking⟩ := createNode_effect hw heffect
  have hnodes : createdNodes (g.2 ++ [(g.1, ApplyOp.createNode path input)]) =
      createdNodes g.2 ++ [node] := by simp [hcreated]
  refine ⟨⟨?_, ?_, ?_⟩, w', hw', fun hkeeps => ?_⟩
  · show s'.seenScopes.nodes = _
    rw [hseen, hnodes, h.nodes, List.append_assoc]
  · intro hnone
    rw [hnodes] at hnone
    exact absurd hnone (by simp)
  · intro step hstep
    show _ <+: s'.seenScopes.nodes
    rw [hseen]
    rcases List.mem_append.1 hstep with hstep | hstep
    · exact (h.seen step hstep).trans (List.prefix_append _ _)
    · rw [List.mem_singleton.1 hstep]
      exact List.prefix_append _ _
  · show _ = s'.seenScopes.nodes
    rw [hseen, hworking, hkept fun step hstep => hkeeps step (List.mem_append_left _ hstep)]

/-- **Every statement of the body keeps to the transaction**, the creation of a scope node apart. -/
theorem InTransaction.exec (h : InTransaction before g) (ho : o.InBody) :
    InTransaction before ((o.exec g.1).1, g.2 ++ [(g.1, o)]) := by
  rcases ApplyOp.exec_cases g.1 o with ⟨message, hexec⟩ | ⟨s', value, heffect, hexec⟩
  · rw [hexec]
    apply InTransaction.step h
    · rfl
    · exact createdNode_of_error (congrArg Prod.snd hexec)
    · exact fun w hw => ⟨w, hw, fun _ => rfl⟩
  · have hstays (htables : s'.tables = g.1.tables) (hcreated : o.createdNode g.1 = none) :
        InTransaction before (s'.tick, g.2 ++ [(g.1, o)]) := by
      apply InTransaction.step h
      · exact congrArg Transactional.committed htables
      · exact hcreated
      · exact fun w hw =>
          ⟨w, (congrArg Transactional.working htables).trans hw, fun _ => rfl⟩
    rw [hexec]
    cases o with
    | startTransaction => exact ho.elim
    | commitTransaction => exact ho.elim
    | rollbackTransaction => exact ho.elim
    | query statement =>
        obtain ⟨w, hw, -⟩ := h.isOpen
        simp only [ApplyOp.effect] at heffect
        cases hinside : g.1.tables.inside (statement.effect g.1.outcome.generated) with
        | error message =>
            rw [hinside] at heffect
            cases heffect
        | ok tables =>
            rw [hinside] at heffect
            obtain ⟨rfl, -⟩ := Prod.mk.inj (Except.ok.inj heffect)
            obtain ⟨w', hstatement, rfl⟩ := Transactional.inside_ok hw hinside
            apply InTransaction.step h
            · rfl
            · rfl
            · intro w₂ hw₂
              obtain rfl := Option.some.inj (hw.symm.trans hw₂)
              exact ⟨w', rfl, fun hkeeps => by rw [effect_keeps_scopes hkeeps hstatement]⟩
    | createNode path input =>
        exact h.create (createdNode_of_ok (congrArg Prod.snd hexec)) heffect
    | recordScopeCreated scopeNodeId parentId type =>
        obtain ⟨rfl, -⟩ := Prod.mk.inj (Except.ok.inj heffect)
        exact hstays rfl rfl
    | getTree =>
        obtain ⟨rfl, -⟩ := Prod.mk.inj (Except.ok.inj heffect)
        exact hstays rfl rfl
    | findByUsername username =>
        obtain ⟨rfl, -⟩ := Prod.mk.inj (Except.ok.inj heffect)
        exact hstays rfl rfl
    | findByName name =>
        obtain ⟨rfl, -⟩ := Prod.mk.inj (Except.ok.inj heffect)
        exact hstays rfl rfl
    | log entry =>
        obtain ⟨rfl, -⟩ := Prod.mk.inj (Except.ok.inj heffect)
        exact hstays rfl rfl

end Transaction

/-! ## The program -/

section Program

variable {o : ApplyOp}

theorem uses_awaitApply (ho : o.InBody) : (awaitApply o).Uses ApplyOp.InBody := by
  refine ⟨ho, fun ans => ?_⟩
  cases ans with
  | ok value => exact trivial
  | error message => exact trivial

theorem uses_throwIfError {α : Type} (result : Except String α) :
    (throwIfError result).Uses ApplyOp.InBody := by
  cases result with
  | ok a => exact trivial
  | error message => exact trivial

theorem uses_requireGitOpsBindingId (bindingId : Option String) :
    (requireGitOpsBindingId bindingId).Uses ApplyOp.InBody := by
  unfold requireGitOpsBindingId
  split
  · exact trivial
  · exact trivial

theorem uses_resolveScopeNodeId (scopePath : Option String) :
    (resolveScopeNodeId scopePath).Uses ApplyOp.InBody := by
  apply Prog.uses_ite
  · exact Prog.uses_bind (uses_awaitApply trivial) fun _ => trivial
  · exact trivial

theorem ConfigHandler.apply_uses (handler : ConfigHandler) (plan : GitOpsObjectPlan)
    (context : GitOpsApplyContext) : (handler.apply plan context).Uses ApplyOp.InBody := by
  have hdesired (key : String) (fields : ObjectFields) :
      (resolveDesired key fields).Uses ApplyOp.InBody :=
    Prog.uses_bind (uses_resolveScopeNodeId _) fun _ => trivial
  unfold ConfigHandler.apply
  split
  · apply Prog.uses_bind (hdesired _ _)
    intro resolved
    apply Prog.uses_bind (uses_requireGitOpsBindingId _)
    intro bindingId
    exact Prog.uses_bind (uses_throwIfError _) fun _ => uses_awaitApply trivial
  · apply Prog.uses_bind (uses_resolveScopeNodeId _)
    intro scopeNodeId
    exact Prog.uses_bind (uses_requireGitOpsBindingId _) fun _ => uses_awaitApply trivial
  · apply Prog.uses_bind (hdesired _ _)
    intro resolved
    apply Prog.uses_bind (uses_requireGitOpsBindingId _)
    intro bindingId
    exact Prog.uses_bind (uses_throwIfError _) fun _ => uses_awaitApply trivial
  · exact trivial

theorem RoleAssignmentGitopsHandler.resolveScopePathOrId_uses (scopeValue : String) :
    (resolveScopePathOrId scopeValue).Uses ApplyOp.InBody := by
  apply Prog.uses_ite
  · exact trivial
  · refine Prog.uses_bind (uses_awaitApply trivial) fun view => ?_
    split
    · exact trivial
    · exact trivial

theorem RoleAssignmentGitopsHandler.resolveDesiredIdentifiers_uses (fields : ObjectFields) :
    (resolveDesiredIdentifiers fields).Uses ApplyOp.InBody := by
  unfold resolveDesiredIdentifiers
  split
  · exact Prog.uses_bind (resolveScopePathOrId_uses _) fun _ => trivial
  · split
    · refine Prog.uses_bind (uses_awaitApply trivial) fun user => ?_
      split
      · exact trivial
      · refine Prog.uses_bind (uses_awaitApply trivial) fun role => ?_
        split
        · exact trivial
        · exact Prog.uses_bind (resolveScopePathOrId_uses _) fun _ => trivial
    · exact trivial

theorem RoleAssignmentGitopsHandler.apply_uses (plan : GitOpsObjectPlan) :
    (RoleAssignmentGitopsHandler.apply plan).Uses ApplyOp.InBody := by
  unfold RoleAssignmentGitopsHandler.apply
  split
  · exact Prog.uses_bind (resolveDesiredIdentifiers_uses _) fun _ => uses_awaitApply trivial
  · exact Prog.uses_bind (resolveDesiredIdentifiers_uses _) fun _ => uses_awaitApply trivial
  · apply Prog.uses_bind (resolveDesiredIdentifiers_uses _)
    intro resolved
    apply Prog.uses_bind (resolveDesiredIdentifiers_uses _)
    intro current
    exact Prog.uses_bind (uses_awaitApply trivial) fun _ => uses_awaitApply trivial
  · exact trivial

namespace ReconciliationApplyService

theorem applyScopeNode_uses (change : ReconcileChange) (options : ApplyOptions) :
    (applyScopeNode change options).Uses ApplyOp.InBody := by
  unfold applyScopeNode
  simp only
  split
  · apply Prog.uses_bind
    · refine Prog.uses_bind (uses_awaitApply trivial) fun node => ?_
      exact Prog.uses_bind (uses_awaitApply trivial) fun _ => trivial
    · exact fun _ => uses_awaitApply trivial
  · unfold deleteScopeNode
    split
    · exact trivial
    · exact uses_awaitApply trivial
  · unfold updateScopeNode
    split
    · exact trivial
    · exact Prog.uses_ite trivial (uses_awaitApply trivial)
  · exact trivial

theorem applyRole_uses (change : ReconcileChange) (options : ApplyOptions) :
    (applyRole change options).Uses ApplyOp.InBody := by
  unfold applyRole
  cases change.op with
  | create => exact uses_awaitApply trivial
  | update =>
      cases change.diff with
      | none => exact trivial
      | some diff => exact Prog.uses_ite trivial (uses_awaitApply trivial)
  | delete => exact uses_awaitApply trivial
  | noop => exact trivial

theorem applyChange_uses (change : ReconcileChange) (options : ApplyOptions) :
    (applyChange change options).Uses ApplyOp.InBody := by
  unfold applyChange
  cases change.type with
  | scopeNode => exact applyScopeNode_uses change options
  | role => exact applyRole_uses change options
  | roleAssignment => exact RoleAssignmentGitopsHandler.apply_uses _
  | workflow => exact ConfigHandler.apply_uses _ _ _
  | agentProfile => exact ConfigHandler.apply_uses _ _ _
  | skill => exact ConfigHandler.apply_uses _ _ _
  | configOverride => exact trivial

theorem applyChanges_uses (options : ApplyOptions) (changes : List ReconcileChange) (n : Nat) :
    (applyChanges options changes n).Uses ApplyOp.InBody := by
  induction changes generalizing n with
  | nil => exact trivial
  | cons change rest ih =>
      apply Prog.uses_bind (applyChange_uses change options)
      intro _
      exact Prog.uses_bind (uses_awaitApply trivial) fun _ => ih (n + 1)

end ReconciliationApplyService

variable {E : String → ApplyStore × List ApplyStep → Prop} {g : ApplyStore × List ApplyStep}

/-- One awaited statement in a run with its steps. -/
theorem traced_awaitApply {Q : o.Value → ApplyStore × List ApplyStep → Prop}
    (hok : ∀ s' value, o.exec g.1 = (s', .ok value) → Q value (s', g.2 ++ [(g.1, o)]))
    (herror : ∀ s' message, o.exec g.1 = (s', .error message) →
      E message (s', g.2 ++ [(g.1, o)])) :
    (awaitApply o).Meets (Prog.traced ApplyOp.exec) Q E g := by
  refine ⟨trivial, ?_⟩
  rintro ans ⟨s', steps'⟩ ⟨hexec, rfl⟩
  cases ans with
  | ok value => exact hok s' value hexec
  | error message => exact herror s' message hexec

end Program

/-- What the other connections see after the commit. -/
def Committed (g : ApplyStore × List ApplyStep) : Prop :=
  (∀ step ∈ g.2, step.2.KeepsNodes) →
    (∀ node ∈ createdNodes g.2, node ∈ g.1.seenScopes.nodes) ∧
      ∀ step ∈ g.2, step.1.seenScopes.nodes ⊆ g.1.seenScopes.nodes

section Runs

variable {before : ApplyTables} {g : ApplyStore × List ApplyStep} {outcomes : Nat → ApplyOutcome}

/-- The start of the transaction. -/
theorem meets_startTransaction :
    (awaitApply .startTransaction).Meets (Prog.traced ApplyOp.exec)
      (fun _ g' => InTransaction before g') (fun _ g' => Uncommitted before g')
      (.idle before outcomes, []) := by
  have hidle : Uncommitted before (.idle before outcomes, []) :=
    ⟨(List.append_nil _).symm, fun _ => rfl, fun _ hstep => absurd hstep List.not_mem_nil⟩
  apply traced_awaitApply
  · intro s' value hexec
    rcases ApplyOp.exec_cases (.idle before outcomes) .startTransaction with
      ⟨message, hthrown⟩ | ⟨s₁, _, heffect, hdone⟩
    · rw [hthrown] at hexec
      cases (Prod.mk.inj hexec).2
    · rw [hdone] at hexec
      obtain ⟨rfl, -⟩ := Prod.mk.inj (Except.ok.inj heffect)
      obtain ⟨rfl, -⟩ := Prod.mk.inj hexec
      exact ⟨hidle.step rfl rfl, before, rfl, fun _ => rfl⟩
  · intro s' message hexec
    rcases ApplyOp.exec_cases (.idle before outcomes) .startTransaction with
      ⟨_, hthrown⟩ | ⟨s₁, _, heffect, hdone⟩
    · rw [hthrown] at hexec
      obtain ⟨rfl, -⟩ := Prod.mk.inj hexec
      exact hidle.step rfl rfl
    · rw [hdone] at hexec
      cases (Prod.mk.inj hexec).2

/-- The commit shows what the transaction has seen. -/
theorem meets_commitTransaction (h : InTransaction before g) :
    (awaitApply .commitTransaction).Meets (Prog.traced ApplyOp.exec)
      (fun _ g' => Committed g') (fun _ g' => Uncommitted before g') g := by
  apply traced_awaitApply
  · intro s' value hexec hkeeps
    rcases ApplyOp.exec_cases g.1 .commitTransaction with ⟨_, hthrown⟩ | ⟨s₁, _, heffect, hdone⟩
    · rw [hthrown] at hexec
      cases (Prod.mk.inj hexec).2
    · rw [hdone] at hexec
      obtain ⟨rfl, -⟩ := Prod.mk.inj (Except.ok.inj heffect)
      obtain ⟨rfl, -⟩ := Prod.mk.inj hexec
      obtain ⟨w, hw, hworking⟩ := h.isOpen
      have hnodes : w.scopes.tables.nodes = g.1.seenScopes.nodes :=
        hworking fun step hstep => hkeeps step (List.mem_append_left _ hstep)
      have hseen : (ApplyStore.tick { g.1 with tables := g.1.tables.commit }).seenScopes.nodes =
          g.1.seenScopes.nodes := by
        rw [← hnodes]
        exact congrArg (fun t : ApplyTables => t.scopes.tables.nodes)
          (Transactional.committed_commit hw)
      simp only [hseen]
      constructor
      · intro node hnode
        have hmem : node ∈ createdNodes g.2 := by
          simpa [ApplyOp.createdNode] using hnode
        rw [h.nodes]
        exact List.mem_append_right _ hmem
      · intro step hstep
        rcases List.mem_append.1 hstep with hstep | hstep
        · exact (h.seen step hstep).subset
        · obtain rfl := List.mem_singleton.1 hstep
          exact List.Subset.refl _
  · intro s' message hexec
    rcases ApplyOp.exec_cases g.1 .commitTransaction with ⟨_, hthrown⟩ | ⟨s₁, _, heffect, hdone⟩
    · rw [hthrown] at hexec
      obtain ⟨rfl, -⟩ := Prod.mk.inj hexec
      exact h.toUncommitted.step rfl rfl
    · rw [hdone] at hexec
      cases (Prod.mk.inj hexec).2

/-- The rollback shows nothing. -/
theorem meets_rollbackTransaction (h : Uncommitted before g) :
    (awaitApply .rollbackTransaction).Meets (Prog.traced ApplyOp.exec)
      (fun _ g' => Uncommitted before g') (fun _ g' => Uncommitted before g') g := by
  have hstep (s' : ApplyStore) (ans : ApplyOp.Ans .rollbackTransaction)
      (hexec : ApplyOp.rollbackTransaction.exec g.1 = (s', ans)) :
      Uncommitted before (s', g.2 ++ [(g.1, .rollbackTransaction)]) := by
    rcases ApplyOp.exec_cases g.1 .rollbackTransaction with
      ⟨_, hthrown⟩ | ⟨s₁, _, heffect, hdone⟩
    · rw [hthrown] at hexec
      obtain ⟨rfl, -⟩ := Prod.mk.inj hexec
      exact h.step rfl rfl
    · rw [hdone] at hexec
      obtain ⟨rfl, -⟩ := Prod.mk.inj (Except.ok.inj heffect)
      obtain ⟨rfl, -⟩ := Prod.mk.inj hexec
      exact h.step rfl rfl
  apply traced_awaitApply
  · exact fun s' value hexec => hstep s' _ hexec
  · exact fun s' message hexec => hstep s' _ hexec

/-- **A call ends before its commit, with the created nodes alone to be seen, or after it.** -/
theorem meets_apply (before : ApplyTables) (outcomes : Nat → ApplyOutcome)
    (plan : ReconciliationPlan) (options : ApplyOptions) :
    (apply plan options).Meets (Prog.traced ApplyOp.exec) (fun _ g' => Committed g')
      (fun _ g' => Uncommitted before g') (.idle before outcomes, []) := by
  unfold apply
  apply Prog.meets_ite
  · intro _ _
    exact ⟨fun _ hnode => absurd hnode List.not_mem_nil,
      fun _ hstep => absurd hstep List.not_mem_nil⟩
  · intro _
    refine Prog.Meets.bind (Q := fun _ g' => Committed g') ?_ fun _ _ h => h
    apply Prog.Meets.transactional (I := InTransaction before)
      (J := fun _ g' => Uncommitted before g') (K := fun _ g' => InTransaction before g')
    · exact meets_startTransaction
    · intro g' h
      refine (Prog.Uses.traced ApplyOp.exec (applyChanges_uses options _ 0) h ?_).mono
        (fun _ _ h' => h') fun _ _ h' => h'.toUncommitted
      exact fun g₁ o h₁ ho => h₁.exec ho
    · exact fun _ _ h => meets_commitTransaction h
    · exact fun _ _ h => meets_rollbackTransaction h

end Runs

/-! ## Atomicity -/

/-- A created node is stored below the id that the call gives, or below the platform root. -/
theorem createdNode_parentId {s : ApplyStore} {input : CreateScopeNodeInput}
    (h : (ApplyOp.createNode path input).createdNode s = some node) :
    node.parentId = some (input.parentId.getD globalScopeNodeId) := by
  rcases ApplyOp.exec_cases s (.createNode path input) with
    ⟨message, hthrown⟩ | ⟨s', value, heffect, hdone⟩
  · rw [createdNode_of_error (congrArg Prod.snd hthrown)] at h
    cases h
  · obtain rfl := Option.some.inj ((createdNode_of_ok (congrArg Prod.snd hdone)).symm.trans h)
    simp only [ApplyOp.effect] at heffect
    cases houtside : s.tables.outside (ApplyTables.createNode input s.outcome.generated) with
    | error message =>
        rw [houtside] at heffect
        cases heffect
    | ok r =>
        rw [houtside] at heffect
        obtain ⟨-, rfl⟩ := Prod.mk.inj (Except.ok.inj heffect)
        obtain ⟨c, hc⟩ := Transactional.outside_value houtside
        obtain ⟨type, -, hnode, -⟩ := createNode_appends hc
        rw [hnode]
        rfl

/-- The nodes are where their paths say exactly if the entries have said so. -/
theorem everyNodePlaced_iff (steps : List ApplyStep) :
    EveryNodePlaced steps ↔ ParentsGiven steps := by
  constructor
  · intro h s path input node hstep hcreated
    obtain ⟨parentId, hparent, hnames⟩ := h s path input node hstep hcreated
    obtain rfl := Option.some.inj ((createdNode_parentId hcreated).symm.trans hparent)
    exact hnames
  · intro h s path input node hstep hcreated
    exact ⟨_, createdNode_parentId hcreated, h s path input node hstep hcreated⟩

/-- More rows have more ways. -/
theorem NamesParent.mono {scopes scopes' : ScopeTables} {parentId : String}
    (h : NamesParent scopes path parentId) (hnodes : scopes.nodes ⊆ scopes'.nodes) :
    NamesParent scopes' path parentId := by
  obtain ⟨parents, slug, hpath, htrail⟩ := h
  refine ⟨parents, slug, hpath, ?_⟩
  clear hpath
  induction htrail with
  | here => exact .here _
  | down _ hnode hparent hp ih => exact ih.down (hnodes hnode) hparent hp

/-- The entries of a call that have created a node, when the call is over: each node is in the
table, below the node that its path names there. -/
def EveryNodeStands (scopes : ScopeTables) (steps : List ApplyStep) : Prop :=
  ∀ s path input node, (s, .createNode path input) ∈ steps →
    (ApplyOp.createNode path input).createdNode s = some node → node ∈ scopes.nodes ∧
      ∃ parentId, node.parentId = some parentId ∧ NamesParent scopes path parentId

/-- The database after the migrations, with nobody's statement failing. -/
def seededStore : ApplyStore :=
  .idle { scopes := { tables := seededTables } } fun n => {
    generated := if n = 1 then "11111111-1111-4111-8111-111111111111"
      else "22222222-2222-4222-8222-222222222222" }

def createScope (key : String) : ReconcileChange := { type := .scopeNode, key, op := .create }

/-- A scope node, and an override of an agent of it. -/
def overridePlan : ReconciliationPlan where
  changes := [createScope "/acme", { type := .configOverride, key := "/acme:coder", op := .create }]
  summary op := if op = .create then 2 else 0

/-- A scope node, and one below it. -/
def nestedPlan : ReconciliationPlan where
  changes := [createScope "/acme", createScope "/acme/eng"]
  summary op := if op = .create then 2 else 0

def scopeOptions : ApplyOptions where
  actorId := "gitops"
  desiredObjects := [
    ("scope_node::/acme", [("type", .str "org"), ("slug", .str "acme")]),
    ("scope_node::/acme/eng", [("type", .str "org"), ("slug", .str "eng")])]

/-- Without a parent of its own, the root is named by paths of one segment only. -/
theorem namesParent_root {scopes : ScopeTables}
    (hroot : ∀ node ∈ scopes.nodes, node.id = globalScopeNodeId → node.parentId = none)
    (h : NamesParent scopes path globalScopeNodeId) :
    (SlashPath.segments path).length = 1 := by
  obtain ⟨parents, slug, hpath, htrail⟩ := h
  generalize hd : globalScopeNodeId = d at htrail
  cases htrail with
  | here => rw [hpath]; rfl
  | down _ hnode hparent _ =>
      rw [hroot _ hnode hd.symm] at hparent
      cases hparent

/-- The step creates a node for a path of two segments below a platform root without a parent. -/
def ApplyStep.createsBelowRoot (step : ApplyStep) : Bool :=
  match step.2 with
  | .createNode path input =>
      ((ApplyOp.createNode path input).createdNode step.1).any (fun node =>
          node.parentId = some globalScopeNodeId) &&
        (SlashPath.segments path).length = 2 &&
        step.1.seenScopes.nodes.all fun node =>
          node.id ≠ globalScopeNodeId || node.parentId.isNone
  | _ => false

/-- A node created below the root for a longer path is out of place. -/
theorem not_everyNodePlaced {steps : List ApplyStep}
    (h : steps.any ApplyStep.createsBelowRoot = true) : ¬ EveryNodePlaced steps := by
  intro hplaced
  obtain ⟨⟨s, o⟩, hstep, hcreates⟩ := List.any_eq_true.1 h
  cases o with
  | createNode path input =>
      simp only [ApplyStep.createsBelowRoot, Bool.and_eq_true, decide_eq_true_eq,
        Option.any_eq_true, List.all_eq_true, Bool.or_eq_true] at hcreates
      obtain ⟨⟨⟨node, hnode, hbelow⟩, hlength⟩, hroot⟩ := hcreates
      obtain ⟨parentId, hparent, hnames⟩ := hplaced s path input node hstep hnode
      obtain rfl := Option.some.inj (hbelow.symm.trans hparent)
      have hone := namesParent_root (fun row hrow hid => ?_) hnames
      · omega
      · exact Option.isNone_iff_eq_none.1 ((hroot row hrow).resolve_left (absurd hid))
  | _ => cases hcreates

end Nexus
