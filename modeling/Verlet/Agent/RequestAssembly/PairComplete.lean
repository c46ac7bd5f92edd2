import Verlet.Provider.Transform.Pairing
import Verlet.Agent.RequestAssembly

/-!
# Agent — Every request is pair-complete
-/

namespace Verlet.Agent
open Support
open History
open Provider

/-! ### The traffic of session entries -/

/-- The calls an entry issues and answers, as a message of the conversation or of a hook. -/
def entryMarks (entry : SessionEntry) : List Mark :=
  match entry.kind with
  | .message message | .customContextMessage message => marks message
  | .modelChange _ _ _ | .compaction _ | .branchSummary _ | .runtime _ _ => []

def entryTraffic (entries : List SessionEntry) : List Mark := entries.flatMap entryMarks

/-- A call is issued as a message of the conversation or as one of a hook, not as both. -/
def IssuedOneWay (entries : List SessionEntry) : Prop :=
  ∀ entry ∈ entries, ∀ other ∈ entries, ∀ message id, other.kind = .customContextMessage message →
    id ∈ issuedBy entry → id ∉ callIds message

/-- What stands in a traffic before another thing. -/
def NotReissued (a b : Mark) : Prop := ∀ id, a = .result id → b ≠ .call id

variable {id : String}

theorem mem_marks_call {message : CanonicalMessage} :
    .call id ∈ marks message ↔ id ∈ callIds message := by
  simp [marks]

theorem ordered_marks (message : CanonicalMessage) : Ordered (marks message) := by
  cases message with
  | user content timestampMs => exact List.Pairwise.nil
  | toolResult toolCallId toolName content isError cacheControl timestampMs =>
    exact List.pairwise_singleton _ _
  | assistant content api provider model usage stopReason errorMessage timestampMs =>
    rw [marks, answeredId, Option.toList_none, List.map_nil, List.append_nil]
    exact List.pairwise_map.mpr (List.pairwise_of_forall (fun _ _ _ h => by cases h))

theorem ordered_entryMarks (entry : SessionEntry) : Ordered (entryMarks entry) := by
  unfold entryMarks
  split
  · exact ordered_marks _
  · exact ordered_marks _
  all_goals exact List.Pairwise.nil

variable {entries : List SessionEntry}

theorem ordered_entryTraffic :
    Ordered (entryTraffic entries) ↔
      entries.Pairwise fun entry later =>
        ∀ a ∈ entryMarks entry, ∀ b ∈ entryMarks later, NotReissued a b := by
  refine List.pairwise_flatMap.trans ⟨fun h => h.2, fun h => ⟨fun entry _ => ?_, h⟩⟩
  exact ordered_entryMarks entry

variable {entry : SessionEntry}

theorem notReissued_of_lt (h : Ordered (entryTraffic entries)) {i j : Nat} (hlt : i < j)
    {later : SessionEntry} (hentry : entries[i]? = some entry) (hlater : entries[j]? = some later) :
    ∀ a ∈ entryMarks entry, ∀ b ∈ entryMarks later, NotReissued a b := by
  obtain ⟨hi, rfl⟩ := List.getElem?_eq_some_iff.mp hentry
  obtain ⟨hj, rfl⟩ := List.getElem?_eq_some_iff.mp hlater
  exact List.pairwise_iff_getElem.mp (ordered_entryTraffic.mp h) i j hi hj hlt

/-! ### Issuers -/

theorem noteIssuer_lookup (issuers : Map String (Option Nat)) (issue : String × Nat) (id : String) :
    (noteIssuer issuers issue).lookup id =
      if id = issue.1 then
        some (match issuers.lookup id with
          | some _ => none
          | none   => some issue.2)
      else issuers.lookup id := by
  unfold noteIssuer
  split
  · next hlookup =>
    rw [Map.lookup_insert]
    split
    · next h => rw [h, hlookup]
    · rfl
  · next hlookup =>
    rw [Map.lookup_insert]
    split
    · next h => rw [h, hlookup]
    · rfl

variable {index : Nat}

theorem foldl_noteIssuer (issues : List (String × Nat)) (issuers : Map String (Option Nat))
    (id : String) (h : (issues.foldl noteIssuer issuers).lookup id = some (some index)) :
    (issuers.lookup id = some (some index) ∧ ∀ place, (id, place) ∉ issues) ∨
      issuers.lookup id = none ∧ (id, index) ∈ issues ∧
        ∀ place, (id, place) ∈ issues → place = index := by
  induction issues generalizing issuers with
  | nil => exact Or.inl ⟨h, fun place hmem => by cases hmem⟩
  | cons issue issues ih =>
    obtain ⟨name, place⟩ := issue
    rw [List.foldl_cons] at h
    rcases ih _ h with ⟨hlookup, hrest⟩ | ⟨hlookup, hmem, hrest⟩
    · rw [noteIssuer_lookup] at hlookup
      by_cases hname : id = name
      · rw [if_pos hname] at hlookup
        cases hold : issuers.lookup id with
        | some old => rw [hold] at hlookup; cases hlookup
        | none =>
          rw [hold] at hlookup
          cases hlookup
          refine Or.inr ⟨rfl, by simp [hname], fun other hmem => ?_⟩
          rcases List.mem_cons.mp hmem with heq | hmem
          · exact congrArg Prod.snd heq
          · exact absurd hmem (hrest other)
      · rw [if_neg hname] at hlookup
        refine Or.inl ⟨hlookup, fun other hmem => ?_⟩
        rcases List.mem_cons.mp hmem with heq | hmem
        · exact hname (congrArg Prod.fst heq)
        · exact hrest other hmem
    · rw [noteIssuer_lookup] at hlookup
      by_cases hname : id = name
      · rw [if_pos hname] at hlookup
        cases hlookup
      · rw [if_neg hname] at hlookup
        refine Or.inr ⟨hlookup, List.mem_cons_of_mem _ hmem, fun other hmem => ?_⟩
        rcases List.mem_cons.mp hmem with heq | hmem
        · exact absurd (congrArg Prod.fst heq) hname
        · exact hrest other hmem

theorem mem_entryIssues :
    (id, index) ∈ entryIssues entries ↔
      ∃ entry, entries[index]? = some entry ∧ id ∈ issuedBy entry := by
  simp only [entryIssues, List.mem_flatMap, List.mem_map, Prod.mk.injEq, Prod.exists,
    List.mem_zipIdx_iff_getElem?]
  constructor
  · rintro ⟨entry, place, hentry, i, hi, rfl, rfl⟩
    exact ⟨entry, hentry, hi⟩
  · rintro ⟨entry, hentry, hi⟩
    exact ⟨entry, index, hentry, id, hi, rfl, rfl⟩

theorem sole_issuer (h : (issuerByCallId entries).lookup id = some (some index)) :
    (∃ entry, entries[index]? = some entry ∧ id ∈ issuedBy entry) ∧
      ∀ place entry, entries[place]? = some entry → id ∈ issuedBy entry → place = index := by
  rcases foldl_noteIssuer _ _ _ h with ⟨hlookup, -⟩ | ⟨-, hmem, hsole⟩
  · cases hlookup
  · exact ⟨mem_entryIssues.mp hmem, fun place entry hentry hissued =>
    hsole place (mem_entryIssues.mpr ⟨entry, hentry, hissued⟩)⟩

/-! ### Moving late results -/

variable {resultIndex : Nat}

/-- A result that is put before a turn input: it is a result of the conversation, and its one issuer
stands before that input. -/
theorem turnInputOvertaking_some (h : turnInputOvertaking entries resultIndex = some index) :
    ∃ entry id issuer, entries[resultIndex]? = some entry ∧ answeredBy entry = some id ∧
      (issuerByCallId entries).lookup id = some (some issuer) ∧ issuer < index ∧
      ∃ input, entries[index]? = some input ∧ isTurnInput input := by
  simp only [turnInputOvertaking, Option.bind_eq_bind, Option.bind_eq_some_iff,
    Option.join_eq_some_iff] at h
  obtain ⟨id, ⟨entry, hentry, hanswered⟩, issuer, hlookup, h⟩ := h
  split at h
  · cases h
  · have hinput := List.find?_some h
    have hplace := List.mem_of_find?_eq_some h
    rw [List.mem_range'_1] at hplace
    refine ⟨entry, id, issuer, hentry, hanswered, hlookup, by omega, ?_⟩
    cases hget : entries[index]? with
    | none => simp [hget] at hinput
    | some input => exact ⟨input, rfl, by simpa [hget] using hinput⟩

theorem entryMarks_of_answeredBy (h : answeredBy entry = some id) :
    entryMarks entry = [.result id] := by
  unfold answeredBy at h
  split at h
  · next message hkind =>
    simp only [entryMarks, hkind]
    cases message with
    | user content timestampMs => cases h
    | assistant content api provider model usage stopReason errorMessage timestampMs => cases h
    | toolResult toolCallId toolName content isError cacheControl timestampMs =>
      cases h
      rfl
  all_goals cases h

theorem entryMarks_of_isTurnInput (h : isTurnInput entry) : entryMarks entry = [] := by
  unfold isTurnInput at h
  split at h
  · next hkind =>
    simp only [entryMarks, hkind]
    rfl
  all_goals cases h

theorem mem_entriesAtPlace (h : entry ∈ entriesAtPlace entries index) :
    (∃ resultIndex, turnInputOvertaking entries resultIndex = some index ∧
        entries[resultIndex]? = some entry) ∨
      turnInputOvertaking entries index = none ∧ entries[index]? = some entry := by
  rcases List.mem_append.mp h with h | h
  · obtain ⟨resultIndex, hmem, hget⟩ := List.mem_filterMap.mp h
    exact Or.inl ⟨resultIndex, by simpa using (List.mem_filter.mp hmem).2, hget⟩
  · split at h
    · cases h
    · next hmoved => exact Or.inr ⟨by simpa using hmoved, by simpa using h⟩

theorem entryMarks_of_moved (h : turnInputOvertaking entries resultIndex = some index)
    (hget : entries[resultIndex]? = some entry) : ∃ id, entryMarks entry = [.result id] := by
  obtain ⟨moved, id, -, hmoved, hanswered, -⟩ := turnInputOvertaking_some h
  rw [hget, Option.some.injEq] at hmoved
  exact ⟨id, entryMarks_of_answeredBy (hmoved ▸ hanswered)⟩

theorem notReissued_of_moved (h : turnInputOvertaking entries resultIndex = some index)
    (hget : entries[resultIndex]? = some entry) (a : Mark) :
    ∀ b ∈ entryMarks entry, NotReissued a b := by
  obtain ⟨id, hmarks⟩ := entryMarks_of_moved h hget
  rw [hmarks]
  rintro b hb i -
  rw [List.mem_singleton.mp hb]
  exact fun heq => by cases heq

theorem call_mem_entryMarks (h : .call id ∈ entryMarks entry) :
    id ∈ issuedBy entry ∨
      ∃ message, entry.kind = .customContextMessage message ∧ id ∈ callIds message := by
  unfold entryMarks at h
  split at h
  · next message hkind =>
    left
    simpa only [issuedBy, hkind] using mem_marks_call.mp h
  · next message hkind => exact Or.inr ⟨message, hkind, mem_marks_call.mp h⟩
  all_goals cases h

/-- **Moving late results forward** leaves the traffic ordered. -/
theorem ordered_reattach (h : Ordered (entryTraffic entries)) (honeWay : IssuedOneWay entries) :
    Ordered (entryTraffic (reattachLateToolResultEntries entries)) := by
  unfold reattachLateToolResultEntries
  split
  · exact h
  · refine ordered_entryTraffic.mpr (List.pairwise_flatMap.mpr ⟨fun index _ => ?_, ?_⟩)
    · refine List.pairwise_append.mpr ⟨?_, ?_, fun moved hmoved entry hentry => ?_⟩
      · -- the results moved to one place issue nothing
        refine List.pairwise_of_forall_mem_list fun moved _ other hother a _ => ?_
        obtain ⟨resultIndex, hmem, hget⟩ := List.mem_filterMap.mp hother
        exact notReissued_of_moved (by simpa using (List.mem_filter.mp hmem).2) hget a
      · split
        · exact List.Pairwise.nil
        · cases entries[index]? with
          | none => exact List.Pairwise.nil
          | some entry => exact List.pairwise_singleton _ _
      · -- and the entry they are put before is a turn input
        obtain ⟨resultIndex, hmem, -⟩ := List.mem_filterMap.mp hmoved
        have hmoves : turnInputOvertaking entries resultIndex = some index := by
          simpa using (List.mem_filter.mp hmem).2
        obtain ⟨-, -, -, -, -, -, -, input, hinput, hturn⟩ := turnInputOvertaking_some hmoves
        split at hentry
        · cases hentry
        · rw [Option.mem_toList, hinput, Option.some.injEq] at hentry
          rw [← hentry, entryMarks_of_isTurnInput hturn]
          rintro a - b hb
          cases hb
    · refine List.pairwise_lt_range.imp fun {index later} hlt entry hentry other hother => ?_
      rcases mem_entriesAtPlace hother with ⟨resultIndex, hmoved, hget⟩ | ⟨-, hother⟩
      · exact fun a _ => notReissued_of_moved hmoved hget a
      · rcases mem_entriesAtPlace hentry with ⟨resultIndex, hmoved, hget⟩ | ⟨-, hentry⟩
        · -- a result that was moved: its issuer is before its new place, and there is no other
          obtain ⟨entry', id, issuer, hentry', hanswered, hlookup, hissuer, -⟩ :=
            turnInputOvertaking_some hmoved
          rw [hget, Option.some.injEq] at hentry'
          subst hentry'
          rw [entryMarks_of_answeredBy hanswered]
          rintro a ha b hb i rfl rfl
          obtain rfl : i = id := Mark.result.inj (List.mem_singleton.mp ha)
          obtain ⟨⟨first, hfirst, hissued⟩, hsole⟩ := sole_issuer hlookup
          rcases call_mem_entryMarks hb with hagain | ⟨message, hkind, hagain⟩
          · have := hsole later other hother hagain
            omega
          · exact honeWay first (List.mem_of_getElem? hfirst) other (List.mem_of_getElem? hother)
              message i hkind hissued hagain
        · exact notReissued_of_lt h hlt hentry hother

/-! ### Compiling -/

variable {φ : Type} {fractionalBudgetLimit : Nat → φ → Nat}

@[simp] theorem untracked_append (tracked later : List TrackedMessage) :
    untracked (tracked ++ later) = untracked tracked ++ untracked later := List.map_append

theorem traffic_synthetic (timestampMs : Int) (source : AgentContextSource) (contexts : List String) :
    traffic (untracked (contexts.map (syntheticMessage timestampMs source))) = [] := by
  induction contexts with
  | nil => rfl
  | cons context contexts ih => exact ih

theorem traffic_trackEntry (entries : List SessionEntry) (tracking : Tracking) :
    (traffic (untracked (entries.foldl trackEntry tracking).1)).Sublist
      (traffic (untracked tracking.1) ++ entryTraffic entries) := by
  induction entries generalizing tracking with
  | nil => simp [entryTraffic]
  | cons entry entries ih =>
    refine (ih (trackEntry tracking entry)).trans ?_
    rw [entryTraffic, entryTraffic, List.flatMap_cons, ← List.append_assoc]
    refine List.Sublist.append ?_ (List.Sublist.refl _)
    cases hkind : entry.kind with
    | message message => simp [trackEntry, entryMarks, hkind, untracked]
    | customContextMessage message => simp [trackEntry, entryMarks, hkind, untracked]
    | compaction summary =>
      simp only [trackEntry, hkind]
      exact List.nil_sublist _
    | modelChange provider api model => simp [trackEntry, entryMarks, hkind]
    | branchSummary summary => simp [trackEntry, entryMarks, hkind]
    | runtime kind payload => simp [trackEntry, entryMarks, hkind]

theorem traffic_truncateTracked (messages : List TrackedMessage) (maxBytes : Nat) :
    traffic (untracked (truncateTracked messages maxBytes)) = traffic (untracked messages) := by
  unfold truncateTracked
  induction messages with
  | nil => rfl
  | cons tracked messages ih =>
    simp only [untracked] at ih ⊢
    simp only [List.mapAccumr, List.map_cons, traffic_cons, marks_truncateMessage, ih]

theorem traffic_budgeted (messages : List TrackedMessage) (policy : AgentContextCompilePolicy) :
    (traffic (untracked (budgeted messages policy))).Sublist (traffic (untracked messages)) := by
  have htruncated : (traffic (untracked (budgeted messages policy))).Sublist
      (traffic (untracked (budgeted messages { policy with maxTextBytes := none }))) := by
    unfold budgeted
    cases policy.maxTextBytes with
    | none => exact List.Sublist.refl _
    | some maxTextBytes => simp only [traffic_truncateTracked, List.Sublist.refl]
  refine htruncated.trans ?_
  unfold budgeted
  cases policy.maxMessages with
  | none => exact List.Sublist.refl _
  | some maxMessages => exact traffic_sublist ((List.drop_sublist _ _).map _)

/-- **The compiled messages** only take from the traffic of the entries. -/
theorem traffic_compile_sublist (input : AgentContextCompileInput φ) :
    (traffic (compile fractionalBudgetLimit input).messages).Sublist
      (entryTraffic input.sessionEntries) := by
  refine (traffic_budgeted _ _).trans ?_
  simp only [untracked_append, traffic_append, traffic_synthetic, List.append_nil]
  have h := traffic_trackEntry input.sessionEntries
    ((renderEnvironmentContexts input.turnContext input.environmentContexts).map
      (syntheticMessage input.turnAnchorTimestampMs .environment), [])
  rwa [traffic_synthetic, List.nil_append] at h

/-! ### The law -/

theorem entryTraffic_sublist {kept : List SessionEntry} (h : kept.Sublist entries) :
    (entryTraffic kept).Sublist (entryTraffic entries) := by
  induction h with
  | slnil => exact List.Sublist.refl []
  | cons entry _ ih => exact ih.trans (List.sublist_append_right _ _)
  | cons_cons entry _ ih => exact List.Sublist.append (List.Sublist.refl _) ih

/-- **Every request is pair-complete**, where no tool result stands before the issue of its call and
no call was issued both as a message of the conversation and as one of a hook. -/
theorem request_pair_complete (fractionalBudgetLimit : Nat → φ → Nat) (input : AssemblyInput φ)
    (hordered : Ordered (entryTraffic input.sessionEntries))
    (honeWay : IssuedOneWay input.sessionEntries) :
    PairComplete (assembleRequest fractionalBudgetLimit input).request.messages := by
  have hcompiled : Ordered (traffic (compiledContext fractionalBudgetLimit input).messages) := by
    have hkept := List.filter_sublist (l := input.sessionEntries) (p := fun entry =>
      decide (entry.entryId ∉ input.steeringContexts.map (·.entryId)))
    refine Ordered.sublist (ordered_reattach (hordered.sublist (entryTraffic_sublist hkept)) ?_)
      (traffic_compile_sublist _)
    exact fun entry hentry other hother =>
      honeWay entry (hkept.subset hentry) other (hkept.subset hother)
  simp only [assembleRequest]
  cases input.endpoint.capabilities with
  | none => exact pairComplete_normalize hcompiled _ _
  | some policy =>
    refine pairComplete_normalize (Ordered.sublist hcompiled ?_) _ _
    exact (traffic_compile _ policy).trans (traffic_normalize _ _ _)

/-! ### A late result -/

def sampleEntry (entryId : Nat) (turnId : Option String) (kind : SessionEntryKind) :
    SessionEntry :=
  { entryId := ⟨⟨BitVec.ofNat 128 entryId⟩⟩, parentEntryId := none, turnId
    coordinates := ⟨"tenant", "user", "session", ⟨⟨0⟩⟩⟩, createdAtMs := 0, kind }

/-- An assistant's message that calls `x`. -/
def callMessage : CanonicalMessage :=
  .assistant [.toolCall "x" "read" (.obj [])] .anthropicMessages "anthropic" "model" ⟨0, 0, 0, 0⟩
    .toolUse none 0

/-- The result of `x`. -/
def resultMessage : CanonicalMessage := .toolResult "x" "read" [.text "done" none] false none 0

/-- A call of `x`, the input of the next turn, what stands between, and the late result. -/
def lateEntries (between : List SessionEntry) : List SessionEntry :=
  [sampleEntry 1 (some "first") (.message callMessage),
    sampleEntry 2 (some "second") (.message (.userTextAt "go on" 0))] ++ between ++
  [sampleEntry 4 none (.message resultMessage)]

/-- An assembly from these entries, of so many messages at most, for a provider with this policy. -/
def sampleAssembly (sessionEntries : List SessionEntry) (maxMessages : Option Nat)
    (capabilities : Option ProviderContextPolicy) : AssemblyInput Unit :=
  { sessionEntries, steeringContexts := [], turnContext := ⟨none, [], [], [], []⟩
    turnAnchorTimestampMs := 0, skillContexts := [], memoryContexts := [], instructionContexts := []
    staticContextSegments := [], system := [], tools := [], contextCompilePolicy := ⟨maxMessages, none⟩
    endpoint := ⟨.anthropicMessages, "anthropic", "model", 1024, capabilities⟩ }

theorem request_pair_complete_late :
    PairComplete (assembleRequest (fun _ _ => 0)
      (sampleAssembly (lateEntries []) none (some ⟨some 2, some 8⟩))).request.messages :=
  request_pair_complete (fun _ _ => 0)
    (sampleAssembly (lateEntries []) none (some ⟨some 2, some 8⟩))
    (by simp [Ordered, entryTraffic, sampleAssembly, lateEntries, sampleEntry, entryMarks, marks,
      callMessage, resultMessage, callIds, calledId, answeredId, CanonicalMessage.userTextAt])
    (by simp [IssuedOneWay, sampleAssembly, lateEntries, sampleEntry])

/-- A call that is issued again as a message of a hook stands, after its first issue was cut off,
behind its result. -/
theorem hook_call_follows_result :
    Ordered (entryTraffic (lateEntries
        [sampleEntry 3 none (.customContextMessage callMessage)])) ∧
      ¬PairComplete (assembleRequest (fun _ _ => 0) (sampleAssembly (lateEntries
        [sampleEntry 3 none (.customContextMessage callMessage)]) (some 3) none)).request.messages := by
  refine ⟨by simp [Ordered, entryTraffic, lateEntries, sampleEntry, entryMarks, marks, callMessage,
    resultMessage, callIds, calledId, answeredId, CanonicalMessage.userTextAt], fun h => ?_⟩
  rcases h "x" with h | h <;> revert h <;> decide

end Verlet.Agent
