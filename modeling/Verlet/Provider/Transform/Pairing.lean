import Verlet.Provider.Transform
import Verlet.Provider.Traffic

/-!
# Provider — A history for a target is pair-complete
-/

namespace Verlet.Provider
open Support History

/-! ### The first pass -/

def issues (numbered : List (CanonicalMessage × Nat)) : List (String × Nat) :=
  numbered.flatMap fun (message, index) => (callIds message).map (·, index)

/-- What the first pass has found, of the calls issued and the answers so far. -/
structure Survey.Describes (survey : Survey) (issued : List (String × Nat))
    (answered : List String) : Prop where
  duplicate : ∀ id, id ∈ survey.duplicateCallIds ↔ 2 ≤ (issued.map (·.1)).count id
  issuer : ∀ id index, survey.issuerByCallId.lookup id = some index → (id, index) ∈ issued
  issued : ∀ id, (survey.issuerByCallId.lookup id).isSome ↔ id ∈ issued.map (·.1)
  answered : ∀ id, id ∈ survey.resultCallIds ↔ id ∈ answered

variable {survey : Survey} {issued : List (String × Nat)} {answered : List String}

variable (h : survey.Describes issued answered)

include h

theorem Survey.Describes.call (index : Nat) (id : String) :
    (survey.call index id).Describes (issued ++ [(id, index)]) answered := by
  refine ⟨fun i => ?_, fun i place hlookup => ?_, fun i => ?_, h.answered⟩
  · rw [List.map_append, List.count_append, List.map_singleton]
    by_cases hi : i = id
    · subst hi
      have hcount : 2 ≤ (issued.map (·.1)).count i + 1 ↔ i ∈ issued.map (·.1) := by
        rw [← List.count_pos_iff]; omega
      rw [List.count_singleton_self, hcount, ← h.issued i, Survey.call]
      by_cases hold : (survey.issuerByCallId.lookup i).isSome
      · simp [hold]
      · have hnot : i ∉ survey.duplicateCallIds := fun hdup => hold ((h.issued i).mpr
          (List.count_pos_iff.mp (by have := (h.duplicate i).mp hdup; omega)))
        simp [hold, hnot]
    · have hsame : i ∈ (survey.call index id).duplicateCallIds ↔ i ∈ survey.duplicateCallIds := by
        rw [Survey.call]
        by_cases hold : (survey.issuerByCallId.lookup id).isSome <;> simp [hold, hi]
      rw [hsame, h.duplicate i, List.count_singleton, if_neg (by simpa using Ne.symm hi), Nat.add_zero]
  · rw [Survey.call, Map.lookup_insert] at hlookup
    by_cases hi : i = id
    · rw [if_pos hi] at hlookup
      cases hlookup
      exact List.mem_append_right _ (by simp [hi])
    · rw [if_neg hi] at hlookup
      exact List.mem_append_left _ (h.issuer i place hlookup)
  · rw [Survey.call, Map.lookup_insert]
    by_cases hi : i = id
    · simp [hi]
    · rw [if_neg hi, h.issued i]
      simp [hi]

theorem Survey.Describes.calls (index : Nat) (ids : List String) :
    (ids.foldl (Survey.call index) survey).Describes (issued ++ ids.map (·, index)) answered := by
  induction ids generalizing survey issued with
  | nil => simpa using h
  | cons id ids ih => simpa using ih (h.call index id)

theorem Survey.Describes.message (message : CanonicalMessage) (index : Nat) :
    (survey.message message index).Describes (issued ++ (callIds message).map (·, index))
      (answered ++ (answeredId message).toList) := by
  have hcalls := h.calls index (callIds message)
  refine ⟨hcalls.duplicate, hcalls.issuer, hcalls.issued, fun id => ?_⟩
  rw [Survey.message, List.mem_append, List.mem_append, hcalls.answered id, or_comm]

theorem Survey.Describes.messages (numbered : List (CanonicalMessage × Nat)) :
    (numbered.foldl (fun survey (message, index) => survey.message message index) survey).Describes
      (issued ++ issues numbered)
      (answered ++ numbered.flatMap fun (message, _) => (answeredId message).toList) := by
  induction numbered generalizing survey issued answered with
  | nil => simpa [issues] using h
  | cons first rest ih =>
    obtain ⟨message, index⟩ := first
    simpa [issues] using ih (h.message message index)

omit h

variable (messages : List CanonicalMessage)

/-- **The first pass** finds who issued a call, which calls were issued twice and which answered. -/
theorem Survey.describes_of : (Survey.of messages).Describes (issues messages.zipIdx)
      (messages.flatMap fun message => (answeredId message).toList) := by
  have hempty : Survey.Describes ⟨∅, [], []⟩ [] [] := by
    refine ⟨fun id => ?_, fun id index h => ?_, fun id => ?_, fun id => ?_⟩ <;> simp_all
  have h := hempty.messages messages.zipIdx
  have hanswers : messages.zipIdx.flatMap (fun (message, _) => (answeredId message).toList) =
      messages.flatMap fun message => (answeredId message).toList := by
    conv_rhs => rw [← List.zipIdx_map_fst 0 messages, List.flatMap_map]
  rw [List.nil_append, List.nil_append, hanswers] at h
  exact h

variable {id : String}

theorem Survey.Describes.unique (h : survey.Describes issued answered) {index : Nat}
    (hissued : (id, index) ∈ issued) (hnew : id ∉ survey.duplicateCallIds) :
    survey.issuerByCallId.lookup id = some index := by
  obtain ⟨place, hplace⟩ := Option.isSome_iff_exists.mp
    ((h.issued id).mpr (List.mem_map.mpr ⟨_, hissued, rfl⟩))
  rw [hplace]
  by_contra hne
  have htwo : [(id, place), (id, index)].Subperm issued :=
    List.subperm_of_subset (by simpa using fun heq : place = index => hne (by rw [heq]))
      (by simp [hissued, h.issuer id place hplace])
  obtain ⟨both, hperm, hsub⟩ := htwo
  have hcount := (hsub.map (·.1)).count_le id
  rw [(hperm.map (·.1)).count_eq id, List.map_cons, List.map_singleton, List.count_cons_self,
    List.count_singleton_self] at hcount
  exact hnew ((h.duplicate id).mpr hcount)

/-! ### One message -/

theorem filterMap_keepBlocks (read : CanonicalContent → Option CanonicalContent × ReplayTransformCounts)
    (keeps : String → Bool)
    (hread : ∀ block, (read block).1.bind calledId = (calledId block).filter keeps)
    (blocks : List CanonicalContent) :
    (keepBlocks read blocks).1.filterMap calledId = (blocks.filterMap calledId).filter keeps := by
  induction blocks with
  | nil => rfl
  | cons block blocks ih =>
    have hblock := hread block
    rw [keepBlocks, List.filterMap_append, ih, List.filterMap_cons]
    cases hcalled : calledId block with
    | none =>
      rw [hcalled, Option.filter_none] at hblock
      cases hkept : (read block).1 with
      | none => rfl
      | some kept =>
        rw [hkept, Option.bind_some] at hblock
        simp [hblock]
    | some id =>
      rw [hcalled] at hblock
      by_cases hkeeps : keeps id
      · rw [Option.filter_some_pos hkeeps] at hblock
        cases hkept : (read block).1 with
        | none => rw [hkept] at hblock; cases hblock
        | some kept =>
          rw [hkept, Option.bind_some] at hblock
          simp [hblock, hkeeps]
      · rw [Option.filter_some_neg (by simpa using hkeeps)] at hblock
        cases hkept : (read block).1 with
        | none => simp [hkeeps]
        | some kept =>
          rw [hkept, Option.bind_some] at hblock
          simp [hblock, hkeeps]

theorem calledId_strip (capabilities : ReplayCapabilities) (block : CanonicalContent) :
    calledId (stripTextCacheControl capabilities block).1 = calledId block := by
  cases block with
  | text text cacheControl =>
    cases cacheControl with
    | none => rfl
    | some cacheControl =>
      simp only [stripTextCacheControl]
      split <;> rfl
  | image data mimeType => rfl
  | thinking text provider metadata => rfl
  | toolCall id name arguments => rfl

variable (replay : Replay)

theorem calledId_assistantBlock (native : Bool) (block : CanonicalContent) :
    (assistantBlock replay native block).1.bind calledId =
      (calledId block).filter replay.survey.keepsCall := by
  cases block with
  | text text cacheControl => exact calledId_strip replay.capabilities (.text text cacheControl)
  | image data mimeType => rfl
  | thinking text provider metadata =>
    simp only [assistantBlock]
    split
    · rfl
    · split <;> rfl
  | toolCall id name arguments =>
    simp only [assistantBlock, calledId]
    by_cases hkeeps : replay.survey.keepsCall id
    · rw [if_pos hkeeps, Option.filter_some_pos hkeeps]; rfl
    · rw [if_neg hkeeps, Option.filter_some_neg (by simpa using hkeeps)]; rfl

/-- What the second pass keeps of the traffic of one message. -/
def keptMarks (emitted : List String) (message : CanonicalMessage) (index : Nat) : List Mark :=
  (if replay.errored[index]?.getD false then []
    else (callIds message).filter replay.survey.keepsCall).map .call ++
  ((answeredId message).filter fun id => replay.issuerAlive id && id ∉ emitted).toList.map .result

/-- **One message of the second pass**, as traffic. -/
theorem traffic_normalizeMessage (emitted : List String)
    (message : CanonicalMessage) (index : Nat) :
    traffic (normalizeMessage replay emitted message index).1.toList =
      keptMarks replay emitted message index := by
  cases message with
  | user content timestampMs =>
    simp only [normalizeMessage, keptMarks, callIds, answeredId]
    split <;> simp
  | assistant content api provider model usage stopReason errorMessage timestampMs =>
    simp only [normalizeMessage, keptMarks, callIds, answeredId]
    split
    · rfl
    · next herrored =>
      have hcalls := filterMap_keepBlocks _ _ (calledId_assistantBlock replay
        (decide (api = replay.targetApi) && decide (provider = replay.targetProvider))) content
      split
      · next hempty =>
        rw [List.isEmpty_iff.mp hempty] at hcalls
        simp [← hcalls]
      · simp [marks, callIds, answeredId, hcalls]
  | toolResult toolCallId toolName content isError cacheControl timestampMs =>
    simp only [normalizeMessage, keptMarks, callIds, answeredId]
    by_cases halive : replay.issuerAlive toolCallId
    · by_cases hemitted : toolCallId ∈ emitted
      · simp [halive, hemitted, Option.filter]
      · simp only [halive, hemitted, Bool.not_true, Bool.false_eq_true, if_false]
        split <;> simp [marks, callIds, answeredId, halive, hemitted, Option.filter]
    · simp [halive, Option.filter]

theorem answeredId_normalizeMessage (emitted : List String)
    (message : CanonicalMessage) (index : Nat) :
    (normalizeMessage replay emitted message index).1.bind answeredId =
      (answeredId message).filter fun id => replay.issuerAlive id && id ∉ emitted := by
  cases message with
  | user content timestampMs =>
    simp only [normalizeMessage, answeredId]
    split <;> rfl
  | assistant content api provider model usage stopReason errorMessage timestampMs =>
    simp only [normalizeMessage, answeredId]
    split
    · rfl
    · split <;> rfl
  | toolResult toolCallId toolName content isError cacheControl timestampMs =>
    simp only [normalizeMessage, answeredId]
    by_cases halive : replay.issuerAlive toolCallId
    · by_cases hemitted : toolCallId ∈ emitted
      · simp [halive, hemitted, Option.filter]
      · simp only [halive, hemitted, Bool.not_true, Bool.false_eq_true, if_false]
        split <;> simp [answeredId, halive, hemitted, Option.filter]
    · simp [halive, Option.filter]

/-! ### The second pass -/

/-- The results kept up to and with this message. -/
def emittedAfter (emitted : List String) (message : CanonicalMessage) : List String :=
  ((answeredId message).filter fun id => replay.issuerAlive id && id ∉ emitted).toList ++ emitted

theorem traffic_normalizeFrom_cons (emitted : List String)
    (message : CanonicalMessage) (index : Nat) (rest : List (CanonicalMessage × Nat)) :
    traffic (normalizeFrom replay emitted ((message, index) :: rest)).messages =
      keptMarks replay emitted message index ++
        traffic (normalizeFrom replay (emittedAfter replay emitted message) rest).messages := by
  simp only [normalizeFrom, traffic_append, traffic_normalizeMessage, answeredId_normalizeMessage,
    emittedAfter]

theorem keptMarks_sublist (emitted : List String) (message : CanonicalMessage)
    (index : Nat) : (keptMarks replay emitted message index).Sublist (marks message) := by
  refine List.Sublist.append (List.Sublist.map _ ?_) (List.Sublist.map _ ?_)
  · split
    · exact List.nil_sublist _
    · exact List.filter_sublist
  · cases answeredId message with
    | none => exact List.Sublist.refl _
    | some id =>
      rw [Option.filter_some]
      split
      · exact List.Sublist.refl _
      · exact List.nil_sublist _

theorem traffic_normalizeFrom (emitted : List String) (numbered : List (CanonicalMessage × Nat)) :
    (traffic (normalizeFrom replay emitted numbered).messages).Sublist
      (traffic (numbered.map (·.1))) := by
  induction numbered generalizing emitted with
  | nil => exact List.Sublist.refl _
  | cons first rest ih =>
    obtain ⟨message, index⟩ := first
    rw [traffic_normalizeFrom_cons, List.map_cons, traffic_cons]
    exact List.Sublist.append (keptMarks_sublist replay emitted message index) (ih _)

/-- **The second pass** only takes from the traffic. -/
theorem traffic_normalize (targetApi : ProviderApi) (targetProvider : String) :
    (traffic (normalizeHistoryForTarget messages targetApi targetProvider).messages).Sublist
      (traffic messages) := by
  have h := traffic_normalizeFrom
    { targetApi, targetProvider, survey := .of messages, errored := messages.map isErrored,
      latestUserIndex := latestUserIndex messages } [] messages.zipIdx
  rwa [List.zipIdx_map_fst] at h

/-! ### One call in the second pass -/

@[simp] theorem about_nil (id : String) : about id [] = [] := rfl

theorem about_append (id : String) (t t' : List Mark) :
    about id (t ++ t') = about id t ++ about id t' := List.filter_append _ _

theorem about_calls (id : String) (ids : List String) :
    about id (ids.map .call) = (ids.filter (· = id)).map .call := by
  rw [about, List.filter_map]
  rfl

theorem about_keptResult (emitted : List String) (id : String) (answered : Option String) :
    about id ((answered.filter fun i => replay.issuerAlive i && i ∉ emitted).toList.map .result) =
      if answered = some id ∧ replay.issuerAlive id ∧ id ∉ emitted then [.result id] else [] := by
  cases answered with
  | none => simp
  | some i =>
    by_cases hi : i = id
    · subst hi
      by_cases halive : replay.issuerAlive i
      · by_cases hemitted : i ∈ emitted <;>
          simp [halive, hemitted, Option.filter, about, Mark.id]
      · simp [halive, Option.filter]
    · rw [if_neg (by simp [hi])]
      simp only [Option.filter]
      split
      · simp [about, Mark.id, hi]
      · rfl

/-- Of a call none of whose issuers lives, and no answer to a living one, nothing is kept. -/
theorem about_normalizeFrom_of_dead (emitted : List String)
    (numbered : List (CanonicalMessage × Nat))
    (hanswers : ∀ message index, (message, index) ∈ numbered → answeredId message = some id →
      replay.issuerAlive id = false)
    (hcalls : ∀ message index, (message, index) ∈ numbered → id ∈ callIds message →
      replay.errored[index]?.getD false = true ∨ replay.survey.keepsCall id = false) :
    about id (traffic (normalizeFrom replay emitted numbered).messages) = [] := by
  induction numbered generalizing emitted with
  | nil => rfl
  | cons first rest ih =>
    obtain ⟨message, index⟩ := first
    rw [traffic_normalizeFrom_cons, about_append,
      ih _ (fun message index hmem => hanswers message index (List.mem_cons_of_mem _ hmem))
        fun message index hmem => hcalls message index (List.mem_cons_of_mem _ hmem),
      List.append_nil, keptMarks, about_append, about_calls, about_keptResult]
    have hnone : (if replay.errored[index]?.getD false then []
        else (callIds message).filter replay.survey.keepsCall).filter (· = id) = [] := by
      split
      · rfl
      · next herrored =>
        refine List.filter_eq_nil_iff.mpr fun i hi => ?_
        obtain ⟨hmem, hkeeps⟩ := List.mem_filter.mp hi
        simp only [decide_eq_true_eq]
        rintro rfl
        rcases hcalls message index List.mem_cons_self hmem with h | h
        · exact herrored h
        · rw [h] at hkeeps
          cases hkeeps
    have hresult : ¬(answeredId message = some id ∧ replay.issuerAlive id ∧ id ∉ emitted) := by
      rintro ⟨hanswer, halive, -⟩
      rw [hanswers message index List.mem_cons_self hanswer] at halive
      cases halive
    rw [hnone, if_neg hresult]
    rfl

def firstAnswer : Bool → List Mark → List Mark
  | _,        [] => []
  | answered, .call id :: t   => .call id :: firstAnswer answered t
  | answered, .result id :: t => (if answered then [] else [.result id]) ++ firstAnswer true t

theorem firstAnswer_calls (answered : Bool) (ids : List String) (t : List Mark) :
    firstAnswer answered (ids.map .call ++ t) = ids.map .call ++ firstAnswer answered t := by
  induction ids with
  | nil => rfl
  | cons id ids ih => simp [firstAnswer, ih]

theorem firstAnswer_replicate (id : String) (answers : Nat) :
    firstAnswer true (List.replicate answers (.result id)) = [] := by
  induction answers with
  | zero => rfl
  | succ answers ih => simp [List.replicate_succ, firstAnswer, ih]

theorem about_normalizeFrom_of_alive (halive : replay.issuerAlive id)
    (hkeeps : replay.survey.keepsCall id) (emitted : List String)
    (numbered : List (CanonicalMessage × Nat))
    (hcalls : ∀ message index, (message, index) ∈ numbered → id ∈ callIds message →
      replay.errored[index]?.getD false = false) :
    about id (traffic (normalizeFrom replay emitted numbered).messages) =
      firstAnswer (id ∈ emitted) (about id (traffic (numbered.map (·.1)))) := by
  induction numbered generalizing emitted with
  | nil => rfl
  | cons first rest ih =>
    obtain ⟨message, index⟩ := first
    have hissued : (if replay.errored[index]?.getD false then []
        else (callIds message).filter replay.survey.keepsCall).filter (· = id) =
        (callIds message).filter (· = id) := by
      by_cases hmem : id ∈ callIds message
      · rw [hcalls message index List.mem_cons_self hmem, if_neg Bool.false_ne_true,
          List.filter_filter]
        refine List.filter_congr fun i _ => ?_
        by_cases hi : i = id <;> simp [hi, hkeeps]
      · have hnone : ∀ ids : List String, ids ⊆ callIds message → ids.filter (· = id) = [] :=
          fun ids hids => List.filter_eq_nil_iff.mpr fun i hi => by
            simpa using fun heq : i = id => hmem (heq ▸ hids hi)
        rw [hnone _ (List.Subset.refl _)]
        split
        · rfl
        · exact hnone _ List.filter_sublist.subset
    have hmarks : about id (marks message) = ((callIds message).filter (· = id)).map .call ++
        if answeredId message = some id then [.result id] else [] := by
      rw [marks, about_append, about_calls]
      cases answeredId message with
      | none => rfl
      | some i => by_cases hi : i = id <;> simp [about, Mark.id, hi]
    rw [traffic_normalizeFrom_cons, about_append,
      ih _ fun message index hmem => hcalls message index (List.mem_cons_of_mem _ hmem), keptMarks,
      about_append, about_calls, about_keptResult, hissued, List.map_cons, traffic_cons,
      about_append, hmarks, List.append_assoc, List.append_assoc, firstAnswer_calls]
    refine congrArg _ ?_
    by_cases hanswer : answeredId message = some id
    · by_cases hemitted : id ∈ emitted <;>
        simp [hanswer, halive, hemitted, firstAnswer, emittedAfter, Option.filter]
    · have hsame : id ∈ emittedAfter replay emitted message ↔ id ∈ emitted := by
        rw [emittedAfter, List.mem_append, Option.mem_toList, Option.filter_eq_some_iff]
        simp [hanswer]
      simp [hanswer, hsame]

/-! ### The law -/

theorem map_issues (first : Nat) :
    (issues (messages.zipIdx first)).map (·.1) = messages.flatMap callIds := by
  induction messages generalizing first with
  | nil => rfl
  | cons message messages ih =>
    have hrest := ih (first + 1)
    simp only [issues, List.zipIdx_cons, List.flatMap_cons, List.map_append, List.map_map] at hrest ⊢
    rw [hrest]
    simp [Function.comp_def]

theorem count_call (id : String) :
    (traffic messages).count (.call id) = (messages.flatMap callIds).count id := by
  induction messages with
  | nil => rfl
  | cons message messages ih =>
    rw [traffic_cons, List.count_append, ih, List.flatMap_cons, List.count_append, marks,
      List.count_append, List.count_map_of_injective _ _ fun i j h => Mark.call.inj h]
    have hnone : ((answeredId message).toList.map Mark.result).count (.call id) = 0 :=
      List.count_eq_zero.mpr (by simp)
    rw [hnone, Nat.add_zero]

theorem mem_result (id : String) : .result id ∈ traffic messages ↔
      id ∈ messages.flatMap fun message => (answeredId message).toList := by
  simp [traffic, marks]

theorem issuerAlive_iff {replay : Replay} {index : Nat}
    (h : replay.survey.issuerByCallId.lookup id = some index) :
    replay.issuerAlive id ↔
      id ∉ replay.survey.duplicateCallIds ∧ replay.errored[index]?.getD false = false := by
  simp [Replay.issuerAlive, h]

/-- **What a history for a target says of a call**: nothing, or, of a call that was issued once and
answered, the issue and the first answer. -/
theorem about_normalize (targetApi : ProviderApi) (targetProvider id : String) :
    about id (traffic (normalizeHistoryForTarget messages targetApi targetProvider).messages) = [] ∨
      (about id (traffic (normalizeHistoryForTarget messages targetApi targetProvider).messages) =
          firstAnswer false (about id (traffic messages)) ∧
        (traffic messages).count (.call id) = 1 ∧ .result id ∈ about id (traffic messages)) := by
  have hsurvey := Survey.describes_of messages
  unfold normalizeHistoryForTarget
  generalize hreplay : (Replay.mk targetApi targetProvider (.of messages) (messages.map isErrored)
    (latestUserIndex messages)) = replay
  have hsame : replay.survey = .of messages := by rw [← hreplay]
  rw [← hsame] at hsurvey
  -- a call that was issued once was issued where the first pass has its issuer
  have hissuer : ∀ message index, (message, index) ∈ messages.zipIdx → id ∈ callIds message →
      id ∉ replay.survey.duplicateCallIds →
      replay.survey.issuerByCallId.lookup id = some index := fun message index hmem hcall hnew =>
    hsurvey.unique (List.mem_flatMap.mpr ⟨(message, index), hmem,
      List.mem_map.mpr ⟨id, hcall, rfl⟩⟩) hnew
  by_cases halive : replay.issuerAlive id
  · obtain ⟨issuer, hlookup⟩ : ∃ issuer, replay.survey.issuerByCallId.lookup id = some issuer := by
      cases hlookup : replay.survey.issuerByCallId.lookup id with
      | some issuer => exact ⟨issuer, rfl⟩
      | none => simp [Replay.issuerAlive, hlookup] at halive
    obtain ⟨hnew, herrored⟩ := (issuerAlive_iff hlookup).mp halive
    have hcalls : ∀ message index, (message, index) ∈ messages.zipIdx → id ∈ callIds message →
        replay.errored[index]?.getD false = false := by
      intro message index hmem hcall
      have hplace := hissuer message index hmem hcall hnew
      rw [hlookup, Option.some.injEq] at hplace
      rw [← hplace, herrored]
    by_cases hanswered : id ∈ replay.survey.resultCallIds
    · right
      have hkeeps : replay.survey.keepsCall id := by simp [Survey.keepsCall, hnew, hanswered]
      have hone : (traffic messages).count (.call id) = 1 := by
        have htwo : ¬2 ≤ ((issues messages.zipIdx).map (·.1)).count id := fun h =>
          hnew ((hsurvey.duplicate id).mpr h)
        have hpos : 0 < ((issues messages.zipIdx).map (·.1)).count id :=
          List.count_pos_iff.mpr ((hsurvey.issued id).mp (by simp [hlookup]))
        rw [map_issues] at htwo hpos
        rw [count_call]
        omega
      refine ⟨?_, hone, List.mem_filter.mpr
        ⟨(mem_result messages id).mpr ((hsurvey.answered id).mp hanswered), by simp [Mark.id]⟩⟩
      rw [about_normalizeFrom_of_alive replay halive hkeeps [] _ hcalls, List.zipIdx_map_fst]
      simp
    · refine Or.inl (about_normalizeFrom_of_dead replay [] _ (fun message index hmem hanswer => ?_)
        fun message index hmem hcall => Or.inr (by simp [Survey.keepsCall, hanswered]))
      refine absurd ((hsurvey.answered id).mpr ?_) hanswered
      exact List.mem_flatMap.mpr ⟨message, List.fst_mem_of_mem_zipIdx hmem, by simp [hanswer]⟩
  · refine Or.inl (about_normalizeFrom_of_dead replay [] _
      (fun message index hmem hanswer => by simpa using halive) fun message index hmem hcall => ?_)
    by_cases hkeeps : replay.survey.keepsCall id
    · left
      have hnew : id ∉ replay.survey.duplicateCallIds := by
        simp only [Survey.keepsCall, Bool.and_eq_true, decide_eq_true_eq] at hkeeps
        exact hkeeps.1
      by_contra hhealthy
      exact halive ((issuerAlive_iff (hissuer message index hmem hcall hnew)).mpr
        ⟨hnew, by simpa using hhealthy⟩)
    · exact Or.inr (by simpa using hkeeps)

/-- **A history for a target is pair-complete**, where no call of it was issued after it was
answered. -/
theorem pairComplete_normalize {messages : List CanonicalMessage} (h : Ordered (traffic messages))
    (targetApi : ProviderApi) (targetProvider : String) :
    PairComplete (normalizeHistoryForTarget messages targetApi targetProvider).messages := by
  intro id
  rcases about_normalize messages targetApi targetProvider id with hnone | ⟨hfirst, hone, hmem⟩
  · exact .inl hnone
  · right
    obtain ⟨answers, habout⟩ := h.about_eq hone
    rw [habout] at hmem
    rw [hfirst, habout]
    cases answers with
    | zero => simp at hmem
    | succ answers => simp [List.replicate_succ, firstAnswer, firstAnswer_replicate]

end Verlet.Provider
