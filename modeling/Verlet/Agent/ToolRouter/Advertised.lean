import Verlet.Agent.ToolRouter

/-!
# Agent — The tools shown are the tools that can be called

* `find?_offers_of_alias`, `find?_offers_of_no_alias`: what the listing finds first under a name, by the
  searches of a call.
* `sourced_of_projection`, `sourced_of_provider`: a call that goes anywhere goes where the listed
  definition is from, unless the name is that of an alias whose operation is not registered.
-/

namespace Verlet.Agent
open Support
open Support.Proc (Makes)

/-! ### Sources -/

/-- Where a definition is from, and where a call goes. -/
inductive ToolSource where
  | aliasOperation (registeredName operationName : String)
  | registryProjection (registeredName operationName : String)
  | provider (place : Nat)

namespace AgentToolRouter

variable (router : AgentToolRouter)

def aliasOffers : List (String × Option (ToolSource × ToolDefinition)) :=
  router.toolAliases.values.map fun entry =>
    (entry.toolName, (router.projectionForRegisteredOperation entry.registeredName
      entry.operationName).map fun projection =>
        (.aliasOperation entry.registeredName entry.operationName, entry.definition projection))

def registryOffers : List (String × Option (ToolSource × ToolDefinition)) :=
  router.operationRegistry.values.flatMap fun record =>
    if isKernelRecord record then []
    else record.projections.map fun projection =>
      (projection.llmToolName, some
        (.registryProjection projection.registeredName projection.operationName,
          projection.definition))

def providerOffers : List (String × Option (ToolSource × ToolDefinition)) :=
  router.kernelToolProviders.zipIdx.flatMap fun (definitions, place) =>
    definitions.map fun tool => (tool.name, some (.provider place, tool))

/-- The offers, in the order of the three loops. -/
def offers : List (String × Option (ToolSource × ToolDefinition)) :=
  router.aliasOffers ++ router.registryOffers ++ router.providerOffers

def sourcedDefinitions : List (ToolSource × ToolDefinition) := granted router.offers

theorem toolDefinitions_eq : router.toolDefinitions = router.sourcedDefinitions.map (·.2) := by
  have hprovided : router.kernelToolProviders.flatMap (fun definitions =>
      definitions.map fun tool => (tool.name, some tool)) =
      router.providerOffers.map fun o => (o.1, o.2.map (·.2)) := by
    rw [providerOffers, List.map_flatMap]
    calc router.kernelToolProviders.flatMap _
        = (router.kernelToolProviders.zipIdx.map Prod.fst).flatMap fun definitions =>
            definitions.map fun tool => (tool.name, some tool) := by rw [List.zipIdx_map_fst]
      _ = _ := by rw [List.flatMap_map]; simp [Function.comp_def]
  have hregistered : router.operationRegistry.values.flatMap (fun record =>
      if isKernelRecord record then []
      else record.projections.map fun projection =>
        (projection.llmToolName, some projection.definition)) =
      router.registryOffers.map fun o => (o.1, o.2.map (·.2)) := by
    rw [registryOffers, List.map_flatMap]
    refine List.flatMap_congr fun record _ => ?_
    split <;> simp
  rw [sourcedDefinitions, ← map_granted, toolDefinitions, hprovided, hregistered, offers,
    List.map_append, List.map_append]
  simp [aliasOffers, Function.comp_def]

end AgentToolRouter

def RouterCall.goesTo {τ : Type} (router : AgentToolRouter) (toolName : String) :
    RouterCall τ → Option ToolSource
  | .operation registeredName operationName _ _ =>
    match router.toolAliases.get? toolName with
    | some _ => some (.aliasOperation registeredName operationName)
    | none   => some (.registryProjection registeredName operationName)
  | .provider place _ _ => some (.provider place)
  | .nowMs => none

/-- **The tools shown are the tools that can be called**: each is listed once, a call goes only where
the definition listed under its name is from, and a call of a name that is not listed fails as an
unknown tool. -/
structure AdvertisesCallable (library : ToolLibrary) (router : AgentToolRouter) : Prop where
  once : (router.toolDefinitions.map (·.name)).Nodup
  listed : ∀ (τ : Type) (turnContext : Option τ) callId toolName arguments cancellation,
    Makes (fun call => ∀ source, call.goesTo router toolName = some source →
        ∃ definition, (source, definition) ∈ router.sourcedDefinitions ∧ definition.name = toolName)
      (router.invokeToolCallOutcomeMessage library turnContext callId toolName arguments cancellation)
  unlisted : ∀ (τ : Type) (turnContext : Option τ) callId toolName arguments cancellation,
    toolName ∉ router.toolDefinitions.map (·.name) →
    router.invokeToolCallOutcomeMessage library turnContext callId toolName arguments cancellation =
      throw (unknownTool toolName)

/-- Some kernel provider defines a tool under the name of an alias whose operation is not
registered. -/
def AgentToolRouter.DanglingAliasNamesTool (router : AgentToolRouter) : Prop :=
  ∃ toolName entry, router.toolAliases.get? toolName = some entry ∧
    router.projectionForRegisteredOperation entry.registeredName entry.operationName = none ∧
    ∃ definitions ∈ router.kernelToolProviders, ∃ tool ∈ definitions, tool.name = toolName

/-! ### What is found first under a name -/

variable {projection : OperationProjection}

theorem mem_projections {record : RegisteredOperation} (h : projection ∈ record.projections) :
    projection.registeredName = record.name := by
  obtain ⟨operation, -, rfl⟩ := List.mem_map.mp h
  rfl

theorem find?_numbered (toolName : String) (providers : List (List ToolDefinition)) (first : Nat) :
    match providers.findIdx? (fun definitions => definitions.any fun tool => tool.name = toolName) with
    | some i => ∃ tool : ToolDefinition, ((providers.zipIdx first).flatMap fun (definitions, place) =>
      definitions.map fun tool => (tool.name, some (ToolSource.provider place, tool))).find?
        (fun o => o.1 = toolName) = some (toolName, some (.provider (i + first), tool))
    | none => ((providers.zipIdx first).flatMap fun (definitions, place) =>
      definitions.map fun tool => (tool.name, some (ToolSource.provider place, tool))).find?
        (fun o => o.1 = toolName) = none := by
  induction providers generalizing first with
  | nil => rfl
  | cons definitions providers ih =>
    rw [List.findIdx?_cons, List.zipIdx_cons]
    simp only [List.flatMap_cons, List.find?_append, List.find?_map]
    by_cases hany : definitions.any fun tool => tool.name = toolName
    · rw [if_pos hany]
      obtain ⟨tool, htool⟩ : ∃ tool, definitions.find? (fun tool => tool.name = toolName) =
          some tool := Option.isSome_iff_exists.mp (by simpa using hany)
      have hname : tool.name = toolName := by simpa using List.find?_some htool
      exact ⟨tool, by simp only [Function.comp_def, htool]; simp [hname]⟩
    · have hnone : definitions.find? (fun tool => tool.name = toolName) = none := by
        simpa using hany
      have hrest := ih (first + 1)
      rw [if_neg hany]
      revert hrest
      cases providers.findIdx? fun definitions => definitions.any fun tool =>
          decide (tool.name = toolName) with
      | none => simp only [Function.comp_def, hnone]; simp
      | some i =>
        rintro ⟨tool, htool⟩
        refine ⟨tool, ?_⟩
        simp only [Function.comp_def, hnone, Option.map_none, Option.none_or, htool]
        simp; omega

variable {τ : Type}

namespace AgentToolRouter

variable {router : AgentToolRouter} {toolName : String}

theorem name_of_offer {o : String × Option (ToolSource × ToolDefinition)} (ho : o ∈ router.offers)
    (shown : ToolSource × ToolDefinition) (h : o.2 = some shown) : shown.2.name = o.1 := by
  rcases List.mem_append.mp ho with ho | ho
  · rcases List.mem_append.mp ho with ho | ho
    · obtain ⟨entry, -, rfl⟩ := List.mem_map.mp ho
      obtain ⟨projection, -, rfl⟩ := Option.map_eq_some_iff.mp h
      rfl
    · obtain ⟨record, -, ho⟩ := List.mem_flatMap.mp ho
      split at ho
      · cases ho
      · obtain ⟨projection, -, rfl⟩ := List.mem_map.mp ho
        cases h
        rfl
  · obtain ⟨⟨definitions, place⟩, -, ho⟩ := List.mem_flatMap.mp ho
    obtain ⟨tool, -, rfl⟩ := List.mem_map.mp ho
    cases h
    rfl

theorem find?_aliasOffers :
    router.aliasOffers.find? (fun o => o.1 = toolName) =
      (router.toolAliases.get? toolName).map fun entry =>
        (entry.toolName, (router.projectionForRegisteredOperation entry.registeredName
          entry.operationName).map fun projection =>
            (.aliasOperation entry.registeredName entry.operationName,
              entry.definition projection)) := by
  rw [aliasOffers, List.find?_map]
  rfl

theorem find?_registryOffers (h : router.toolAliases.get? toolName = none) :
    router.registryOffers.find? (fun o => o.1 = toolName) =
      (router.projectionForToolName toolName).map fun projection =>
        (projection.llmToolName, some
          (.registryProjection projection.registeredName projection.operationName,
            projection.definition)) := by
  rw [registryOffers, List.find?_flatMap, projectionForToolName, h]
  simp only
  rw [List.map_findSome?]
  refine congrArg (fun f => router.operationRegistry.values.findSome? f) (funext fun record => ?_)
  by_cases hkernel : isKernelRecord record
  · simp [hkernel]
  · simp only [hkernel, List.find?_map, Function.comp_def, Bool.false_eq_true, if_false]

theorem find?_providerOffers :
    match router.kernelToolProviderForName toolName with
    | some place => ∃ tool, router.providerOffers.find? (fun o => o.1 = toolName) =
        some (toolName, some (.provider place, tool))
    | none => router.providerOffers.find? (fun o => o.1 = toolName) = none :=
  find?_numbered toolName router.kernelToolProviders 0

theorem mem_sourcedDefinitions {source : ToolSource} :
    (∃ definition, (source, definition) ∈ router.sourcedDefinitions ∧ definition.name = toolName) ↔
      ∃ definition, router.offers.find? (fun o => o.1 = toolName) =
        some (toolName, some (source, definition)) := by
  refine exists_congr fun definition => ?_
  rw [sourcedDefinitions, mem_granted]
  constructor
  · rintro ⟨⟨name, hfind⟩, hname⟩
    have hsame := name_of_offer (List.mem_of_find?_eq_some hfind) (source, definition) rfl
    obtain rfl : name = toolName := hsame.symm.trans hname
    exact hfind
  · intro hfind
    have hsame := name_of_offer (List.mem_of_find?_eq_some hfind) (source, definition) rfl
    exact ⟨⟨toolName, hfind⟩, hsame⟩

theorem mem_names_iff :
    toolName ∈ router.toolDefinitions.map (·.name) ↔
      ∃ source definition, (source, definition) ∈ router.sourcedDefinitions ∧
        definition.name = toolName := by
  rw [toolDefinitions_eq, List.map_map, List.mem_map]
  exact ⟨fun ⟨shown, hshown, hname⟩ => ⟨shown.1, shown.2, hshown, hname⟩,
    fun ⟨source, definition, hshown, hname⟩ => ⟨(source, definition), hshown, hname⟩⟩

theorem nodup_names : (router.toolDefinitions.map (·.name)).Nodup := by
  rw [toolDefinitions_eq, List.map_map]
  exact nodup_granted fun o ho shown h => name_of_offer ho shown h

theorem find?_offers :
    router.offers.find? (fun o => o.1 = toolName) =
      ((router.aliasOffers.find? fun o => o.1 = toolName).or
        (router.registryOffers.find? fun o => o.1 = toolName)).or
        (router.providerOffers.find? fun o => o.1 = toolName) := by
  rw [offers, List.find?_append, List.find?_append]

theorem projectionForRegisteredOperation_some {registeredName operationName : String}
    (h : router.projectionForRegisteredOperation registeredName operationName = some projection) :
    projection.registeredName = registeredName ∧ projection.operationName = operationName := by
  obtain ⟨record, -, h⟩ := List.exists_of_findSome?_eq_some h
  split at h
  · cases h
  · next hname =>
    refine ⟨(mem_projections (List.mem_of_find?_eq_some h)).trans (not_not.mp hname), ?_⟩
    simpa using List.find?_some h

theorem sourced_of_projection (h : router.projectionForToolName toolName = some projection)
    (input : List UInt8) (metadata : List (String × Json)) (source : ToolSource)
    (hgoes : (RouterCall.operation projection.registeredName projection.operationName input metadata :
      RouterCall τ).goesTo router toolName = some source) :
    ∃ definition, (source, definition) ∈ router.sourcedDefinitions ∧ definition.name = toolName := by
  rw [mem_sourcedDefinitions, find?_offers, find?_aliasOffers]
  cases hget : router.toolAliases.get? toolName with
  | some entry =>
    have hname : entry.toolName = toolName := Keyed.key_of_get? hget
    rw [projectionForToolName, hget] at h
    obtain ⟨hregistered, hoperation⟩ := projectionForRegisteredOperation_some h
    simp only [RouterCall.goesTo, hget, Option.some.injEq] at hgoes
    refine ⟨entry.definition projection, ?_⟩
    simp only at h
    rw [← hgoes, hregistered, hoperation]
    simp [h, hname]
  | none =>
    rw [find?_registryOffers hget, h]
    rw [projectionForToolName, hget] at h
    obtain ⟨record, -, hrecord⟩ := List.exists_of_findSome?_eq_some h
    have hname : projection.llmToolName = toolName := by
      split at hrecord
      · cases hrecord
      · simpa using List.find?_some hrecord
    simp only [RouterCall.goesTo, hget, Option.some.injEq] at hgoes
    exact ⟨projection.definition, by simp [← hgoes, hname]⟩

theorem find?_offers_of_no_projection (h : router.projectionForToolName toolName = none) :
    router.offers.find? (fun o => o.1 = toolName) =
      match router.toolAliases.get? toolName with
      | some _ => some (toolName, none)
      | none   => router.providerOffers.find? fun o => o.1 = toolName := by
  rw [find?_offers, find?_aliasOffers]
  cases hget : router.toolAliases.get? toolName with
  | some entry =>
    have hname : entry.toolName = toolName := Keyed.key_of_get? hget
    rw [projectionForToolName, hget] at h
    simp only at h
    simp [h, hname]
  | none => simp [find?_registryOffers hget, h]

theorem kernelToolProviderForName_eq_none :
    router.kernelToolProviderForName toolName = none ↔
      ∀ definitions ∈ router.kernelToolProviders, ∀ tool ∈ definitions, tool.name ≠ toolName := by
  rw [kernelToolProviderForName, List.findIdx?_eq_none_iff]
  simp

/-! ### What a call makes -/

theorem makes_invokeOperation {P : RouterCall τ → Prop} (library : ToolLibrary) (callId : String)
    (projection : OperationProjection) (arguments : Json)
    (hoperation : ∀ input metadata,
      P (.operation projection.registeredName projection.operationName input metadata))
    (hclock : P .nowMs) :
    Makes P (router.invokeOperation library callId toolName projection arguments) := by
  unfold invokeOperation
  by_cases hsink : projection.abi.hasHiddenDurableSink
  · rw [if_pos hsink]
    exact Makes.throw
  · rw [if_neg hsink]
    exact Makes.bind Makes.settle fun _ =>
      Makes.bind Makes.settle fun _ => Makes.bind (Makes.await (hoperation _ _)) fun _ =>
      Makes.bind Makes.settle fun _ => Makes.bind (Makes.await hclock) fun _ => Makes.pure

theorem makes_invokeProvider {P : RouterCall τ → Prop} {place : Nat} {call : AgentKernelToolCall τ}
    {cancellation : Option ToolInvocationCancellation} (h : P (.provider place call cancellation)) :
    Makes P (invokeProvider place call cancellation) := by
  refine Makes.bind (Makes.await h) fun reply => Makes.bind Makes.settle fun outcome => ?_
  split
  · exact Makes.throw
  · exact Makes.pure

theorem invokeProvider_ne_throw {place : Nat} {call : AgentKernelToolCall τ}
    {cancellation : Option ToolInvocationCancellation} {err : ToolError} :
    invokeProvider place call cancellation ≠ throw err := by
  intro h
  cases (congrArg ExceptT.run h)

/-! ### The law -/

/-- **The tools shown are the tools that can be called, but for dangling aliases**: exactly where no
kernel provider defines a tool under the name of an alias whose operation is not registered. -/
theorem advertised_iff_no_dangling_alias (library : ToolLibrary) (router : AgentToolRouter) :
    AdvertisesCallable library router ↔ ¬router.DanglingAliasNamesTool := by
  constructor
  · rintro h ⟨toolName, entry, hget, hdangling, definitions, hdefinitions, tool, htool, hname⟩
    have hprojection : router.projectionForToolName toolName = none := by
      rw [projectionForToolName, hget]
      exact hdangling
    have hunlisted : toolName ∉ router.toolDefinitions.map (·.name) := by
      rw [mem_names_iff]
      rintro ⟨source, hlisted⟩
      obtain ⟨definition, hfind⟩ := mem_sourcedDefinitions.mp hlisted
      rw [find?_offers_of_no_projection hprojection, hget] at hfind
      cases hfind
    have hunknown := h.unlisted Unit none "" toolName .null none hunlisted
    rw [invokeToolCallOutcomeMessage, hprojection] at hunknown
    cases hplace : router.kernelToolProviderForName toolName with
    | none => exact kernelToolProviderForName_eq_none.mp hplace definitions hdefinitions tool htool hname
    | some place =>
      rw [hplace] at hunknown
      exact invokeProvider_ne_throw hunknown
  · intro hdangling
    -- without a projection the name is no alias, or no provider has it
    have hfirst : ∀ {toolName}, router.projectionForToolName toolName = none →
        ∀ place, router.kernelToolProviderForName toolName = some place →
          router.toolAliases.get? toolName = none := by
      intro toolName hprojection place hplace
      cases hget : router.toolAliases.get? toolName with
      | none => rfl
      | some entry =>
        rw [projectionForToolName, hget] at hprojection
        refine absurd ⟨toolName, entry, hget, hprojection, ?_⟩ hdangling
        by_contra hnone
        have : router.kernelToolProviderForName toolName = none :=
          kernelToolProviderForName_eq_none.mpr fun definitions hdefinitions tool htool hname =>
            hnone ⟨definitions, hdefinitions, tool, htool, hname⟩
        rw [this] at hplace
        cases hplace
    have hprovided : ∀ {toolName}, router.projectionForToolName toolName = none →
        ∀ place, router.kernelToolProviderForName toolName = some place →
          ∃ definition, (ToolSource.provider place, definition) ∈ router.sourcedDefinitions ∧
            definition.name = toolName := by
      intro toolName hprojection place hplace
      rw [mem_sourcedDefinitions, find?_offers_of_no_projection hprojection,
        hfirst hprojection place hplace]
      simpa only [hplace] using @find?_providerOffers router toolName
    refine ⟨nodup_names, fun τ turnContext callId toolName arguments cancellation => ?_,
      fun τ turnContext callId toolName arguments cancellation hunlisted => ?_⟩
    · rw [invokeToolCallOutcomeMessage]
      cases hprojection : router.projectionForToolName toolName with
      | some projection =>
        refine makes_invokeOperation library callId projection arguments
          (fun input metadata source => sourced_of_projection hprojection input metadata source) ?_
        intro source hgoes
        cases hgoes
      | none =>
        cases hplace : router.kernelToolProviderForName toolName with
        | none => exact Makes.throw
        | some place =>
          refine makes_invokeProvider fun source hgoes => ?_
          cases hgoes
          exact hprovided hprojection place hplace
    · rw [mem_names_iff, not_exists] at hunlisted
      rw [invokeToolCallOutcomeMessage]
      cases hprojection : router.projectionForToolName toolName with
      | some projection =>
        obtain ⟨source, hsource⟩ : ∃ source, (RouterCall.operation projection.registeredName
            projection.operationName [] [] : RouterCall τ).goesTo router toolName = some source := by
          unfold RouterCall.goesTo
          cases router.toolAliases.get? toolName with
          | some entry => exact ⟨_, rfl⟩
          | none => exact ⟨_, rfl⟩
        exact absurd (sourced_of_projection hprojection [] [] source hsource) (hunlisted source)
      | none =>
        cases hplace : router.kernelToolProviderForName toolName with
        | none => rfl
        | some place => exact absurd (hprovided hprojection place hplace) (hunlisted _)

end AgentToolRouter

/-! ### A tool that runs unseen -/

/-- A `serde_json` that writes nothing down. -/
def silentLibrary : ToolLibrary where
  toVec _ := .ok []
  fromSlice _ := none
  toText _ := none

/-- The alias `read` of an operation nobody registered, and a provider with a tool `read`. -/
def danglingRouter : AgentToolRouter :=
  ((AgentToolRouter.new .empty).withKernelToolProvider
    [.new "read" "Read a file." (.obj [("type", .str "object")])]).withToolAliases
    [{ toolName := "read", registeredName := "files", operationName := "read",
       attachEventId := none, surface := none }]

/-- The router shows no tool, and hands a call of `read` to the provider. -/
theorem dangling_alias_runs_unseen : ¬AdvertisesCallable silentLibrary danglingRouter := by
  intro h
  have hshown : danglingRouter.toolDefinitions = [] := by decide
  have hunknown := h.unlisted Unit none "call" "read" .null none (by simp [hshown])
  have hcalled : danglingRouter.invokeToolCallOutcomeMessage silentLibrary (none : Option Unit) "call"
      "read" .null none =
        AgentToolRouter.invokeProvider 0 ⟨"call", "read", .null, none⟩ none := rfl
  exact AgentToolRouter.invokeProvider_ne_throw (hcalled.symm.trans hunknown)

end Verlet.Agent
