import Verlet.Provider.Transform.Pairing

/-!
# Provider — What a history for a target keeps

Of which messages and blocks `normalize_history_for_target` is made, each with the one of the history
that it comes from.

* `mem_emittedThrough`: the results that were kept before.
-/

namespace Verlet.Provider
open Support History

/-- What the second pass has at hand. -/
def replayOf (messages : List CanonicalMessage) (targetApi : ProviderApi) (targetProvider : String) :
    Replay :=
  { targetApi, targetProvider, survey := .of messages, errored := messages.map isErrored,
    latestUserIndex := latestUserIndex messages }

theorem normalize_eq (messages : List CanonicalMessage) (targetApi : ProviderApi)
    (targetProvider : String) :
    normalizeHistoryForTarget messages targetApi targetProvider =
      normalizeFrom (replayOf messages targetApi targetProvider) [] messages.zipIdx := rfl

variable {index : Nat} {message : CanonicalMessage}

section Replay

variable {messages : List CanonicalMessage} {targetApi : ProviderApi} {targetProvider : String}

theorem errored_replayOf (h : messages[index]? = some message) :
    (replayOf messages targetApi targetProvider).errored[index]?.getD false = isErrored message := by
  simp [replayOf, h]

/-- The call was issued by one message alone, and that one did not fail. -/
def IssuedOnce (messages : List CanonicalMessage) (id : String) : Prop :=
  (messages.flatMap callIds).count id = 1 ∧
    ∀ message ∈ messages, id ∈ callIds message → isErrored message = false

/-- **An issuer lives** that issued its call alone and did not fail. -/
theorem issuerAlive_replayOf (id : String) :
    (replayOf messages targetApi targetProvider).issuerAlive id = true ↔ IssuedOnce messages id := by
  have hsurvey := Survey.describes_of messages
  have hduplicate := hsurvey.duplicate id
  have hissued := hsurvey.issued id
  rw [map_issues] at hduplicate hissued
  cases hlookup : (Survey.of messages).issuerByCallId.lookup id with
  | none =>
    have hnone : id ∉ messages.flatMap callIds := by
      rw [← hissued, hlookup]
      simp
    have hdead : (replayOf messages targetApi targetProvider).issuerAlive id = false := by
      simp [Replay.issuerAlive, replayOf, hlookup]
    simp [hdead, IssuedOnce, List.count_eq_zero.mpr hnone]
  | some issuer =>
    have hmem : id ∈ messages.flatMap callIds := by
      rw [← hissued, hlookup]
      rfl
    -- the message that the first pass has for the issuer
    obtain ⟨⟨message, index⟩, hnumbered, hcall⟩ :=
      List.mem_flatMap.mp (hsurvey.issuer id issuer hlookup)
    obtain ⟨called, hcalled, hpair⟩ := List.mem_map.mp hcall
    obtain ⟨rfl, rfl⟩ := Prod.mk.inj hpair
    have hplace : messages[index]? = some message := List.mem_zipIdx_iff_getElem?.mp hnumbered
    have hfound : (replayOf messages targetApi targetProvider).survey.issuerByCallId.lookup called =
        some index := hlookup
    rw [issuerAlive_iff hfound, errored_replayOf hplace]
    change called ∉ (Survey.of messages).duplicateCallIds ∧ _ ↔ _
    rw [hduplicate]
    have hpos := List.count_pos_iff.mpr hmem
    constructor
    · rintro ⟨hfew, herrored⟩
      refine ⟨by omega, fun other hother hcallother => ?_⟩
      obtain ⟨place, hplaceother⟩ := List.mem_iff_getElem?.mp hother
      have hissuer := hsurvey.unique (List.mem_flatMap.mpr ⟨(other, place),
        List.mem_zipIdx_iff_getElem?.mpr hplaceother, List.mem_map.mpr ⟨called, hcallother, rfl⟩⟩)
        (fun hdup => hfew (hduplicate.mp hdup))
      obtain rfl := Option.some.inj (hlookup.symm.trans hissuer)
      obtain rfl := Option.some.inj (hplace.symm.trans hplaceother)
      exact herrored
    · rintro ⟨hone, hhealthy⟩
      exact ⟨by omega, hhealthy message (List.mem_of_getElem? hplace) hcalled⟩

end Replay

/-! ### Blocks -/

theorem mem_keepBlocks {read : CanonicalContent → Option CanonicalContent × ReplayTransformCounts}
    {blocks : List CanonicalContent} {kept : CanonicalContent} :
    kept ∈ (keepBlocks read blocks).1 ↔ ∃ block ∈ blocks, (read block).1 = some kept := by
  induction blocks with
  | nil => simp [keepBlocks]
  | cons block blocks ih =>
    simp only [keepBlocks, List.mem_append, Option.mem_toList, ih, List.mem_cons, exists_eq_or_imp]

theorem keepBlocks_same {read : CanonicalContent → Option CanonicalContent × ReplayTransformCounts}
    {blocks : List CanonicalContent} (h : ∀ block ∈ blocks, (read block).1 = some block) :
    (keepBlocks read blocks).1 = blocks := by
  induction blocks with
  | nil => rfl
  | cons block blocks ih =>
    obtain ⟨hblock, hblocks⟩ := List.forall_mem_cons.mp h
    rw [keepBlocks, hblock, ih hblocks]
    rfl

/-! ### Messages -/

/-- What the second pass keeps of a message that it does not drop. -/
inductive Keeps (replay : Replay) (emitted : List String) (index : Nat) :
    CanonicalMessage → CanonicalMessage → Prop
  | user {content timestampMs isLatestUser}
      (hlatest : isLatestUser = true ↔ some index = replay.latestUserIndex)
      (hsolid : (keepBlocks (userBlock replay isLatestUser) content).1 = [] → isLatestUser = true) :
      Keeps replay emitted index (.user content timestampMs)
        (.user (keepBlocks (userBlock replay isLatestUser) content).1 timestampMs)
  | assistant {content api provider model usage stopReason errorMessage timestampMs native}
      (hnative : native = true ↔ api = replay.targetApi ∧ provider = replay.targetProvider)
      (hhealthy : replay.errored[index]?.getD false = false)
      (hsolid : (keepBlocks (assistantBlock replay native) content).1 ≠ []) :
      Keeps replay emitted index
        (.assistant content api provider model usage stopReason errorMessage timestampMs)
        (.assistant (keepBlocks (assistantBlock replay native) content).1 api provider model usage
          stopReason errorMessage timestampMs)
  | toolResult {toolCallId toolName content isError cacheControl cacheControl' timestampMs}
      (halive : replay.issuerAlive toolCallId = true) (hnew : toolCallId ∉ emitted)
      (hcache : replay.capabilities.supportsCacheControl = false → cacheControl' = none) :
      Keeps replay emitted index
        (.toolResult toolCallId toolName content isError cacheControl timestampMs)
        (.toolResult toolCallId toolName (keepBlocks (keptBlock replay.capabilities) content).1 isError
          cacheControl' timestampMs)

theorem Keeps.of_normalizeMessage {replay : Replay} {emitted : List String} {kept : CanonicalMessage}
    (h : (normalizeMessage replay emitted message index).1 = some kept) :
    Keeps replay emitted index message kept := by
  cases message with
  | user =>
    simp only [normalizeMessage] at h
    split at h
    · cases h
    · next hsolid =>
      cases h
      exact .user (by simp) (by simpa using hsolid)
  | assistant =>
    simp only [normalizeMessage] at h
    split at h
    · cases h
    · next hhealthy =>
      split at h
      · cases h
      · next hsolid =>
        cases h
        exact .assistant (by simp) (by simpa using hhealthy) (by simpa using hsolid)
  | toolResult =>
    simp only [normalizeMessage] at h
    split at h
    · cases h
    · next halive =>
      split at h
      · cases h
      · next hnew =>
        split at h
        · cases h
          exact .toolResult (by simpa using halive) hnew fun _ => rfl
        · next hcache =>
          cases h
          exact .toolResult (by simpa using halive) hnew fun hlacks => by simpa [hlacks] using hcache

/-- The results kept up to a place. -/
def emittedThrough (replay : Replay) (emitted : List String)
    (before : List (CanonicalMessage × Nat)) : List String :=
  before.foldl (fun emitted numbered => emittedAfter replay emitted numbered.1) emitted

theorem mem_emittedThrough {replay : Replay} {emitted : List String}
    {before : List (CanonicalMessage × Nat)} {id : String} :
    id ∈ emittedThrough replay emitted before ↔
      id ∈ emitted ∨ (replay.issuerAlive id = true ∧
        ∃ numbered ∈ before, answeredId numbered.1 = some id) := by
  induction before generalizing emitted with
  | nil => simp [emittedThrough]
  | cons first before ih =>
    rw [emittedThrough, List.foldl_cons, ← emittedThrough, ih, emittedAfter, List.mem_append,
      Option.mem_toList, Option.filter_eq_some_iff]
    simp only [List.mem_cons, exists_eq_or_imp]
    by_cases hemitted : id ∈ emitted
    · simp [hemitted]
    · simp [hemitted]
      tauto

theorem mem_normalizeFrom {replay : Replay} {emitted : List String}
    {numbered : List (CanonicalMessage × Nat)} {kept : CanonicalMessage} :
    kept ∈ (normalizeFrom replay emitted numbered).messages ↔
      ∃ before message index after, numbered = before ++ (message, index) :: after ∧
        (normalizeMessage replay (emittedThrough replay emitted before) message index).1 =
          some kept := by
  induction numbered generalizing emitted with
  | nil => simp [normalizeFrom]
  | cons first rest ih =>
    obtain ⟨message, index⟩ := first
    have hlater : (((normalizeMessage replay emitted message index).1.bind answeredId).toList ++
        emitted) = emittedAfter replay emitted message := by
      rw [answeredId_normalizeMessage]
      rfl
    simp only [normalizeFrom, hlater, List.mem_append, Option.mem_toList, ih]
    constructor
    · rintro (hkept | ⟨before, message', index', after, rfl, hkept⟩)
      · exact ⟨[], message, index, rest, rfl, hkept⟩
      · exact ⟨(message, index) :: before, message', index', after, rfl, hkept⟩
    · rintro ⟨before, message', index', after, heq, hkept⟩
      cases before with
      | nil =>
        obtain ⟨hfirst, -⟩ := List.cons.inj heq
        obtain ⟨rfl, rfl⟩ := Prod.mk.inj hfirst
        exact .inl hkept
      | cons first before =>
        obtain ⟨rfl, rfl⟩ := List.cons.inj heq
        exact .inr ⟨before, message', index', after, rfl, hkept⟩

variable {messages : List CanonicalMessage}

theorem split_zipIdx : messages[index]? = some message ↔
      ∃ after, messages.zipIdx = (messages.take index).zipIdx ++ (message, index) :: after := by
  constructor
  · intro h
    obtain ⟨hlt, hget⟩ := List.getElem?_eq_some_iff.mp h
    refine ⟨(messages.drop (index + 1)).zipIdx (index + 1), ?_⟩
    conv_lhs => rw [← List.take_append_drop index messages, List.zipIdx_append]
    rw [List.drop_eq_getElem_cons hlt, List.zipIdx_cons, hget]
    simp [Nat.min_eq_left (Nat.le_of_lt hlt)]
  · rintro ⟨after, h⟩
    have hmem : (message, index) ∈ messages.zipIdx := by
      rw [h]
      simp
    exact List.mem_zipIdx_iff_getElem?.mp hmem

theorem place_of_split {before after : List (CanonicalMessage × Nat)}
    (h : messages.zipIdx = before ++ (message, index) :: after) :
    messages[index]? = some message ∧ before = (messages.take index).zipIdx := by
  have hmem : (message, index) ∈ messages.zipIdx := by
    rw [h]
    simp
  have hplace : messages[index]? = some message := List.mem_zipIdx_iff_getElem?.mp hmem
  refine ⟨hplace, ?_⟩
  obtain ⟨after', h'⟩ := split_zipIdx.mp hplace
  have hlength : before.length = index := by
    have hget := congrArg (·[before.length]?) h
    simp only [List.getElem?_append_right (Nat.le_refl _), Nat.sub_self, List.getElem?_cons_zero,
      List.getElem?_zipIdx, Nat.zero_add, Option.map_eq_some_iff, Prod.mk.injEq] at hget
    obtain ⟨_, -, -, hindex⟩ := hget
    exact hindex
  refine (List.append_inj (h.symm.trans h') ?_).1
  have hlt := (List.getElem?_eq_some_iff.mp hplace).1
  simp [hlength, Nat.min_eq_left (Nat.le_of_lt hlt)]

/-- **The messages of the outcome**: each is what the second pass makes of one, after the results kept
before it. -/
theorem mem_normalize {targetApi : ProviderApi}
    {targetProvider : String} {kept : CanonicalMessage} :
    kept ∈ (normalizeHistoryForTarget messages targetApi targetProvider).messages ↔
      ∃ message index, messages[index]? = some message ∧
        (normalizeMessage (replayOf messages targetApi targetProvider)
          (emittedThrough (replayOf messages targetApi targetProvider) []
            (messages.take index).zipIdx) message index).1 = some kept := by
  rw [normalize_eq, mem_normalizeFrom]
  constructor
  · rintro ⟨before, message, index, after, heq, hkept⟩
    obtain ⟨hplace, rfl⟩ := place_of_split heq
    exact ⟨message, index, hplace, hkept⟩
  · rintro ⟨message, index, hplace, hkept⟩
    obtain ⟨after, heq⟩ := split_zipIdx.mp hplace
    exact ⟨_, message, index, after, heq, hkept⟩

end Verlet.Provider
