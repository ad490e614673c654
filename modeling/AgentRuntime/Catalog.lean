import Mathlib.Data.List.Dedup
import AgentRuntime.Decisions
import AgentRuntime.Runs

/-! The model catalog: the policies that a request may choose, and the decision that `create_run`
freezes into the run. -/
namespace AgentRuntime

inductive ModelTier where
  | economy
  | balanced
  | performance
  deriving DecidableEq, Repr

def ModelTier.value : ModelTier → String
  | .economy => "economy"
  | .balanced => "balanced"
  | .performance => "performance"

/-- `ModelPolicy`, as its validator leaves it. -/
inductive ModelPolicy where
  | specific (modelId : String) (given : modelId ≠ "")
  | tier (tier : ModelTier)
  | auto

def ModelPolicy.dump : ModelPolicy → Dict
  | .specific modelId _ => [("mode", .str "specific"), ("model_id", .str modelId), ("tier", .null)]
  | .tier level => [("mode", .str "tier"), ("model_id", .null), ("tier", .str level.value)]
  | .auto => [("mode", .str "auto"), ("model_id", .null), ("tier", .null)]

structure ModelCatalogEntry where
  catalogId : String
  capabilities : List String := []
  selectable : Bool := true

structure ModelCatalogSnapshot where
  version : String
  entries : List ModelCatalogEntry

structure ModelDecision where
  requested : Dict
  resolvedModel : String
  resolvedTier : Option ModelTier := none
  reason : String
  catalogVersion : String
  resolvedAt : String

def ModelDecision.dump (decision : ModelDecision) : Dict :=
  [("requested", .obj decision.requested), ("resolved_model", .str decision.resolvedModel),
    ("resolved_tier", .ofText (decision.resolvedTier.map ModelTier.value)),
    ("reason", .str decision.reason), ("catalog_version", .str decision.catalogVersion),
    ("resolved_at", .str decision.resolvedAt)]

structure ModelSelectionError where
  message : String
  httpStatus : Nat := 422

namespace ModelCatalogSnapshot

def selectableIds (snapshot : ModelCatalogSnapshot) : List String :=
  (snapshot.entries.filter ModelCatalogEntry.selectable).map ModelCatalogEntry.catalogId

/-- `set(entries[model_id].capabilities)`; the last entry of an id wins. -/
def capabilities (snapshot : ModelCatalogSnapshot) (modelId : String) : List String :=
  (snapshot.entries.reverse.find? fun entry => entry.catalogId = modelId).elim []
    ModelCatalogEntry.capabilities

/-- `_require`. -/
def require (py : Builtins) (snapshot : ModelCatalogSnapshot) (required : List String)
    (modelId : String) : Except ModelSelectionError String :=
  if modelId ∉ snapshot.selectableIds then
    .error { message := "model '" ++ modelId ++ "' is not selectable in the current catalog" }
  else
    let missing :=
      (required.dedup.filter fun name => name ∉ snapshot.capabilities modelId).insertionSort (· ≤ ·)
    if missing.isEmpty then .ok modelId
    else
      .error { message := "model '" ++ modelId ++ "' lacks required capabilities: " ++
        py.repr (.arr (missing.map .str)) }

end ModelCatalogSnapshot

/-- The model id that `resolve_model_policy` requires of the catalog. -/
def ModelPolicy.candidate (tierMap : List (String × String)) :
    ModelPolicy → Except ModelSelectionError String
  | .specific modelId _ => .ok modelId
  | .tier level =>
      match (tierMap.lookup level.value).getD "" with
      | "" => .error { message := "tier '" ++ level.value ++ "' is not configured" }
      | mapped => .ok mapped
  | .auto =>
      match (tierMap.lookup "balanced").getD "" with
      | "" => .error { message := "auto policy requires a configured balanced tier" }
      | mapped => .ok mapped

def ModelPolicy.resolvedTier : ModelPolicy → Option ModelTier
  | .specific .. => none
  | .tier level => some level
  | .auto => some .balanced

def ModelPolicy.reason : ModelPolicy → String
  | .specific .. => "user_selected"
  | .tier level => "tier_" ++ level.value
  | .auto => "auto_default"

def resolveModelPolicy (py : Builtins) (policy : ModelPolicy) (snapshot : ModelCatalogSnapshot)
    (tierMap : List (String × String)) (required : List String) (now : String) :
    Except ModelSelectionError ModelDecision := do
  let resolved ← snapshot.require py required (← policy.candidate tierMap)
  return {
    requested := policy.dump
    resolvedModel := resolved
    resolvedTier := policy.resolvedTier
    reason := policy.reason
    catalogVersion := snapshot.version
    resolvedAt := now }

/-- `required_capabilities` of `create_run`. -/
def AgentDefinition.requiredCapabilities (definition : AgentDefinition) : List String :=
  if definition.nodes.any fun node => node.type = .supervisor then ["structured_output"] else []

section Resolution
variable {py : Builtins} {policy : ModelPolicy} {snapshot : ModelCatalogSnapshot}
  {tierMap : List (String × String)} {required : List String} {now : String}

theorem require_ok {modelId resolved : String}
    (passed : snapshot.require py required modelId = .ok resolved) :
    resolved = modelId ∧ modelId ∈ snapshot.selectableIds ∧
      ∀ name ∈ required, name ∈ snapshot.capabilities modelId := by
  unfold ModelCatalogSnapshot.require at passed
  split at passed
  next => contradiction
  next selectable =>
    dsimp only at passed
    split at passed
    next complete =>
      cases passed
      refine ⟨rfl, not_not.mp selectable, fun name needed => ?_⟩
      by_contra missing
      have listed : name ∈ (required.dedup.filter
          fun name => name ∉ snapshot.capabilities modelId).insertionSort (· ≤ ·) := by
        simp [needed, missing]
      rw [List.isEmpty_iff.mp complete] at listed
      contradiction
    next => contradiction

theorem candidate_given {modelId : String} (chosen : policy.candidate tierMap = .ok modelId) :
    modelId ≠ "" := by
  cases policy with
  | specific own given =>
      cases chosen
      exact given
  | tier level =>
      simp only [ModelPolicy.candidate] at chosen
      split at chosen
      next => contradiction
      next given =>
        cases chosen
        exact given
  | auto =>
      simp only [ModelPolicy.candidate] at chosen
      split at chosen
      next => contradiction
      next given =>
        cases chosen
        exact given

/-- A decision names the one model that was looked up; it is selectable and has the required
capabilities. -/
theorem resolveModelPolicy_ok {decision : ModelDecision}
    (resolved : resolveModelPolicy py policy snapshot tierMap required now = .ok decision) :
    policy.candidate tierMap = .ok decision.resolvedModel ∧ decision.resolvedModel ≠ "" ∧
      decision.resolvedModel ∈ snapshot.selectableIds ∧
      ∀ name ∈ required, name ∈ snapshot.capabilities decision.resolvedModel := by
  unfold resolveModelPolicy at resolved
  cases chosen : policy.candidate tierMap with
  | error error =>
      rw [chosen] at resolved
      contradiction
  | ok modelId =>
      rw [chosen] at resolved
      cases passed : snapshot.require py required modelId with
      | error error =>
          simp only [bind, Except.bind, passed] at resolved
          contradiction
      | ok model =>
          simp only [bind, Except.bind, passed] at resolved
          cases resolved
          obtain ⟨rfl, selectable, capable⟩ := require_ok passed
          exact ⟨rfl, candidate_given chosen, selectable, capable⟩

end Resolution
end AgentRuntime
