import Verlet.Kernel.MandateLifecycle

/-!
# Kernel — The mandate lifecycle — What the folds find

The loops of the mandate lifecycle over a control stream, as facts about its events.  `Started` and
`Revocation` say what stands in the stream; the loops read every event of their kind, so one that
does not decode fails them all.

* `mandateStartEvent_some`, `mandateRevokedEvent_some`, `mandateRevokedEvent_none`: what revoking
  looks up.
-/

namespace Verlet.Kernel
open Support History

variable {codec : ControlCodec} {coordinates : ThreadCoordinates} {events : List EventRecord}

/-! ### Facts of the stream -/

structure Started (codec : ControlCodec) (coordinates : ThreadCoordinates) (events : List EventRecord)
    (mandate : ActiveMandate) : Prop where
  mem : mandate.event ∈ events
  kind : mandate.event.kind = .mandateStarted
  reads : codec.mandateStarted.fromValue mandate.event.payload = .ok mandate.payload
  targets : mandateTargetsThread mandate.payload coordinates = true

structure Revocation (codec : ControlCodec) (events : List EventRecord) (event : EventRecord)
    (payload : MandateRevokedPayload) : Prop where
  mem : event ∈ events
  kind : event.kind = .mandateRevoked
  reads : codec.mandateRevoked.fromValue event.payload = .ok payload

def RevokedFor (codec : ControlCodec) (coordinates : ThreadCoordinates) (events : List EventRecord)
    (mandate : ActiveMandate) : Prop :=
  ∃ event payload, Revocation codec events event payload ∧
    revokedTargetsThread payload coordinates = true ∧
    revokesMandate mandate.event.id mandate.payload payload = true

/-- The start or revocation of a mandate decodes. -/
structure Readable (codec : ControlCodec) (event : EventRecord) : Prop where
  started : event.kind = .mandateStarted →
    ∃ payload, codec.mandateStarted.fromValue event.payload = .ok payload
  revoked : event.kind = .mandateRevoked →
    ∃ payload, codec.mandateRevoked.fromValue event.payload = .ok payload

variable {mandate : ActiveMandate}

theorem Started.unique {mandate' : ActiveMandate} (h : Started codec coordinates events mandate)
    (hids : (events.map (·.id)).Nodup) (h' : Started codec coordinates events mandate')
    (hid : mandate.event.id = mandate'.event.id) : mandate = mandate' := by
  have hevent : mandate.event = mandate'.event :=
    List.inj_on_of_nodup_map hids h.mem h'.mem hid
  have hpayload := h.reads
  rw [hevent, h'.reads] at hpayload
  obtain ⟨event, payload⟩ := mandate
  obtain ⟨event', payload'⟩ := mandate'
  obtain rfl : event = event' := hevent
  obtain rfl : payload' = payload := Except.ok.inj hpayload
  rfl

/-! ### Listing -/

variable {fold : MandateFold} {event : EventRecord}

theorem take_ok {fold' : MandateFold} :
    fold.take codec coordinates event = .ok fold' ↔
      (event.kind = .mandateStarted ∧ ∃ payload,
        codec.mandateStarted.fromValue event.payload = .ok payload ∧
        fold' = if mandateTargetsThread payload coordinates then
          { fold with started := fold.started.insert event.id ⟨event, payload⟩ } else fold) ∨
      (event.kind = .mandateRevoked ∧ ∃ payload,
        codec.mandateRevoked.fromValue event.payload = .ok payload ∧
        fold' = if revokedTargetsThread payload coordinates then
          { fold with
            revokedEventIds := payload.mandateEventId.toList ++ fold.revokedEventIds
            revokedMandateIds := payload.mandateId :: fold.revokedMandateIds } else fold) ∨
      (event.kind ≠ .mandateStarted ∧ event.kind ≠ .mandateRevoked ∧ fold' = fold) := by
  unfold MandateFold.take
  split
  · rename_i hkind
    simp only [hkind, bind_ok, decodeStarted, decodeOr_ok, true_and, reduceCtorEq, false_and,
      ne_eq, not_true_eq_false, or_false]
    refine exists_congr fun payload => and_congr_right fun _ => ?_
    split <;> exact pure_ok.trans eq_comm
  · rename_i hkind
    simp only [hkind, bind_ok, decodeRevoked, decodeOr_ok, true_and, reduceCtorEq, false_and,
      ne_eq, not_true_eq_false, and_false, or_false, false_or]
    refine exists_congr fun payload => and_congr_right fun _ => ?_
    split <;> exact pure_ok.trans eq_comm
  · rename_i hstarted hrevoked
    have hs : event.kind ≠ .mandateStarted := hstarted
    have hr : event.kind ≠ .mandateRevoked := hrevoked
    simp only [hs, hr, false_and, false_or, ne_eq, not_false_eq_true, true_and]
    exact pure_ok.trans eq_comm

theorem exists_take_ok :
    (∃ fold', fold.take codec coordinates event = .ok fold') ↔ Readable codec event := by
  constructor
  · rintro ⟨fold', h⟩
    rcases take_ok.mp h with ⟨hkind, payload, hreads, -⟩ | ⟨hkind, payload, hreads, -⟩ | ⟨hs, hr, -⟩
    · exact ⟨fun _ => ⟨payload, hreads⟩, fun h' => by rw [hkind] at h'; cases h'⟩
    · exact ⟨fun h' => by (rw [hkind] at h'; cases h'), fun _ => ⟨payload, hreads⟩⟩
    · exact ⟨fun h' => absurd h' hs, fun h' => absurd h' hr⟩
  · intro h
    by_cases hs : event.kind = .mandateStarted
    · obtain ⟨payload, hreads⟩ := h.started hs
      exact ⟨_, take_ok.mpr (.inl ⟨hs, payload, hreads, rfl⟩)⟩
    · by_cases hr : event.kind = .mandateRevoked
      · obtain ⟨payload, hreads⟩ := h.revoked hr
        exact ⟨_, take_ok.mpr (.inr (.inl ⟨hr, payload, hreads, rfl⟩))⟩
      · exact ⟨fold, take_ok.mpr (.inr (.inr ⟨hs, hr, rfl⟩))⟩

theorem exists_foldlM_take_ok (coordinates : ThreadCoordinates) (fold : MandateFold) :
    (∃ fold', events.foldlM (MandateFold.take codec coordinates) fold = .ok fold') ↔
      ∀ event ∈ events, Readable codec event := by
  induction events generalizing fold with
  | nil => exact ⟨fun _ event he => by simp at he, fun _ => ⟨fold, rfl⟩⟩
  | cons event events ih =>
    simp only [List.foldlM_cons, bind_ok, List.forall_mem_cons]
    constructor
    · rintro ⟨fold', fold₁, hfirst, hrest⟩
      exact ⟨exists_take_ok.mp ⟨fold₁, hfirst⟩, (ih fold₁).mp ⟨fold', hrest⟩⟩
    · rintro ⟨hfirst, hrest⟩
      obtain ⟨fold₁, h₁⟩ : ∃ fold₁, fold.take codec coordinates event = .ok fold₁ :=
        exists_take_ok.mpr hfirst
      obtain ⟨fold', h'⟩ := (ih fold₁).mpr hrest
      exact ⟨fold', fold₁, h₁, h'⟩

/-- **The active mandates can be listed when every event of a mandate reads.** -/
theorem exists_activeMandates_ok :
    (∃ active, activeMandatesFromEvents codec coordinates events = .ok active) ↔
      ∀ event ∈ events, Readable codec event := by
  rw [← exists_foldlM_take_ok coordinates .empty]
  simp only [activeMandatesFromEvents, bind_ok]
  constructor
  · rintro ⟨active, fold, hfold, -⟩
    exact ⟨fold, hfold⟩
  · rintro ⟨fold, hfold⟩
    exact ⟨_, fold, hfold, rfl⟩

/-- The fold is that of the events: it has the starts for the thread, by id, and what the
revocations for the thread name. -/
structure FoldOf (codec : ControlCodec) (coordinates : ThreadCoordinates) (events : List EventRecord)
    (fold : MandateFold) : Prop where
  started : ∀ id mandate, fold.started.lookup id = some mandate ↔
    mandate.event.id = id ∧ Started codec coordinates events mandate
  eventIds : ∀ id, id ∈ fold.revokedEventIds ↔ ∃ event payload,
    Revocation codec events event payload ∧ revokedTargetsThread payload coordinates = true ∧
    payload.mandateEventId = some id
  mandateIds : ∀ id, id ∈ fold.revokedMandateIds ↔ ∃ event payload,
    Revocation codec events event payload ∧ revokedTargetsThread payload coordinates = true ∧
    payload.mandateId = id

theorem FoldOf.nil : FoldOf codec coordinates [] .empty where
  started id mandate := by
    refine ⟨fun h => ?_, fun ⟨_, h⟩ => ?_⟩
    · cases h
    · cases h.mem
  eventIds id := by
    refine ⟨fun h => ?_, fun ⟨_, _, h, _⟩ => ?_⟩
    · cases h
    · cases h.mem
  mandateIds id := by
    refine ⟨fun h => ?_, fun ⟨_, _, h, _⟩ => ?_⟩
    · cases h
    · cases h.mem

theorem started_concat :
    Started codec coordinates (events ++ [event]) mandate ↔
      Started codec coordinates events mandate ∨ Started codec coordinates [event] mandate := by
  constructor
  · rintro ⟨hmem, hkind, hreads, htargets⟩
    rcases List.mem_append.mp hmem with hold | hnew
    · exact .inl ⟨hold, hkind, hreads, htargets⟩
    · exact .inr ⟨hnew, hkind, hreads, htargets⟩
  · rintro (⟨hmem, hkind, hreads, htargets⟩ | ⟨hmem, hkind, hreads, htargets⟩)
    · exact ⟨List.mem_append_left _ hmem, hkind, hreads, htargets⟩
    · exact ⟨List.mem_append_right _ hmem, hkind, hreads, htargets⟩

variable {payload : MandateRevokedPayload}

theorem revocation_append {later : List EventRecord} :
    Revocation codec (events ++ later) event payload ↔
      Revocation codec events event payload ∨ Revocation codec later event payload := by
  constructor
  · rintro ⟨hmem, hkind, hreads⟩
    rcases List.mem_append.mp hmem with hold | hnew
    · exact .inl ⟨hold, hkind, hreads⟩
    · exact .inr ⟨hnew, hkind, hreads⟩
  · rintro (⟨hmem, hkind, hreads⟩ | ⟨hmem, hkind, hreads⟩)
    · exact ⟨List.mem_append_left _ hmem, hkind, hreads⟩
    · exact ⟨List.mem_append_right _ hmem, hkind, hreads⟩

theorem not_started_singleton (hkind : event.kind ≠ .mandateStarted) :
    ¬ Started codec coordinates [event] mandate := by
  rintro ⟨hmem, h, -, -⟩
  rw [List.mem_singleton.mp hmem] at h
  exact hkind h

theorem not_revocation_singleton {event' : EventRecord} (hkind : event.kind ≠ .mandateRevoked) :
    ¬ Revocation codec [event] event' payload := by
  rintro ⟨hmem, h, -⟩
  rw [List.mem_singleton.mp hmem] at h
  exact hkind h

theorem started_singleton {payload : MandateStartedPayload} (hkind : event.kind = .mandateStarted)
    (hreads : codec.mandateStarted.fromValue event.payload = .ok payload) :
    Started codec coordinates [event] mandate ↔
      mandate = ⟨event, payload⟩ ∧ mandateTargetsThread payload coordinates = true := by
  constructor
  · rintro ⟨hmem, -, hreads', htargets⟩
    obtain ⟨event', payload'⟩ := mandate
    obtain rfl : event' = event := List.mem_singleton.mp hmem
    obtain rfl : payload = payload' := Except.ok.inj (hreads.symm.trans hreads')
    exact ⟨rfl, htargets⟩
  · rintro ⟨rfl, htargets⟩
    exact ⟨List.mem_cons_self, hkind, hreads, htargets⟩

theorem revocation_singleton {event' : EventRecord} {payload' : MandateRevokedPayload}
    (hkind : event.kind = .mandateRevoked)
    (hreads : codec.mandateRevoked.fromValue event.payload = .ok payload) :
    Revocation codec [event] event' payload' ↔ event' = event ∧ payload' = payload := by
  constructor
  · rintro ⟨hmem, -, hreads'⟩
    obtain rfl : event' = event := List.mem_singleton.mp hmem
    exact ⟨rfl, Except.ok.inj (hreads'.symm.trans hreads)⟩
  · rintro ⟨rfl, rfl⟩
    exact ⟨List.mem_cons_self, hkind, hreads⟩

theorem FoldOf.take {fold' : MandateFold} (h : FoldOf codec coordinates events fold)
    (hfresh : ∀ e ∈ events, e.id ≠ event.id) (ht : fold.take codec coordinates event = .ok fold') :
    FoldOf codec coordinates (events ++ [event]) fold' := by
  rcases take_ok.mp ht with ⟨hkind, payload, hreads, rfl⟩ | ⟨hkind, payload, hreads, rfl⟩ |
    ⟨hs, hr, rfl⟩
  · have hnone : ∀ e p, ¬ Revocation codec [event] e p := fun e p =>
    not_revocation_singleton (by rw [hkind]; decide)
    split
    · rename_i htargets
      refine ⟨fun id mandate => ?_, ?_, ?_⟩
      · -- the new start stands under an id that no start had
        simp only [Map.lookup_insert, started_concat, started_singleton hkind hreads, htargets,
          and_true]
        split
        · rename_i hid
          constructor
          · intro heq
            obtain rfl := Option.some.inj heq
            exact ⟨hid.symm, .inr rfl⟩
          · rintro ⟨rfl, hold | rfl⟩
            · exact absurd hid (hfresh _ hold.mem)
            · rfl
        · rename_i hid
          rw [h.started]
          refine and_congr_right fun hmandate => ⟨.inl, fun hor => hor.resolve_right ?_⟩
          rintro rfl
          exact hid hmandate.symm
      · simpa only [revocation_append, hnone, or_false] using h.eventIds
      · simpa only [revocation_append, hnone, or_false] using h.mandateIds
    · rename_i htargets
      refine ⟨?_, ?_, ?_⟩
      · simpa only [started_concat, started_singleton hkind hreads, htargets, and_false, or_false,
          Bool.false_eq_true] using h.started
      · simpa only [revocation_append, hnone, or_false] using h.eventIds
      · simpa only [revocation_append, hnone, or_false] using h.mandateIds
  · have hnone : ∀ m, ¬ Started codec coordinates [event] m := fun m =>
    not_started_singleton (by rw [hkind]; decide)
    split
    · rename_i htargets
      refine ⟨?_, fun id => ?_, fun id => ?_⟩
      · simpa only [started_concat, hnone, or_false] using h.started
      · simp only [List.mem_append, Option.mem_toList, h.eventIds, revocation_append,
          revocation_singleton hkind hreads]
        constructor
        · rintro (hnew | ⟨e, p, hold, rest⟩)
          · exact ⟨event, payload, .inr ⟨rfl, rfl⟩, htargets, hnew⟩
          · exact ⟨e, p, .inl hold, rest⟩
        · rintro ⟨e, p, hold | ⟨rfl, rfl⟩, rest⟩
          · exact .inr ⟨e, p, hold, rest⟩
          · exact .inl rest.2
      · simp only [List.mem_cons, h.mandateIds, revocation_append, revocation_singleton hkind hreads]
        constructor
        · rintro (rfl | ⟨e, p, hold, rest⟩)
          · exact ⟨event, payload, .inr ⟨rfl, rfl⟩, htargets, rfl⟩
          · exact ⟨e, p, .inl hold, rest⟩
        · rintro ⟨e, p, hold | ⟨rfl, rfl⟩, rest⟩
          · exact .inr ⟨e, p, hold, rest⟩
          · exact .inl rest.2.symm
    · rename_i htargets
      have hskip : ∀ (q : MandateRevokedPayload → Prop) e p,
          (Revocation codec events e p ∨ e = event ∧ p = payload) ∧
            revokedTargetsThread p coordinates = true ∧ q p ↔
          Revocation codec events e p ∧ revokedTargetsThread p coordinates = true ∧ q p := by
        intro q e p
        constructor
        · rintro ⟨hold | ⟨-, rfl⟩, hthread, hq⟩
          · exact ⟨hold, hthread, hq⟩
          · exact absurd hthread htargets
        · rintro ⟨hold, hrest⟩
          exact ⟨.inl hold, hrest⟩
      refine ⟨?_, fun id => ?_, fun id => ?_⟩
      · simpa only [started_concat, hnone, or_false] using h.started
      · simp only [revocation_append, revocation_singleton hkind hreads,
          hskip (·.mandateEventId = some id)]
        exact h.eventIds id
      · simp only [revocation_append, revocation_singleton hkind hreads, hskip (·.mandateId = id)]
        exact h.mandateIds id
  · refine ⟨?_, ?_, ?_⟩
    · simpa only [started_concat, not_started_singleton hs, or_false] using h.started
    · simpa only [revocation_append, not_revocation_singleton hr, or_false] using h.eventIds
    · simpa only [revocation_append, not_revocation_singleton hr, or_false] using h.mandateIds

theorem foldOf_foldlM (hids : (events.map (·.id)).Nodup)
    (h : events.foldlM (MandateFold.take codec coordinates) .empty = .ok fold) :
    FoldOf codec coordinates events fold := by
  induction events using List.reverseRecOn generalizing fold with
  | nil =>
    obtain rfl := Except.ok.inj h
    exact .nil
  | append_singleton events event ih =>
    rw [List.foldlM_append, bind_ok] at h
    obtain ⟨fold₁, hfold₁, hlast⟩ := h
    rw [List.map_append, List.nodup_append] at hids
    refine (ih hids.1 hfold₁).take (fun e he => ?_) ?_
    · exact hids.2.2 _ (List.mem_map_of_mem he) _ (by simp)
    · rw [List.foldlM_cons, bind_ok] at hlast
      obtain ⟨fold₂, htake, hend⟩ := hlast
      obtain rfl := Except.ok.inj hend
      exact htake

/-- **A mandate is active** when it was started for the thread and no revocation for the thread is
of it. -/
theorem mem_activeMandates (hids : (events.map (·.id)).Nodup) {active : List ActiveMandate}
    (h : activeMandatesFromEvents codec coordinates events = .ok active) (mandate : ActiveMandate) :
    mandate ∈ active ↔ Started codec coordinates events mandate ∧
      ¬ RevokedFor codec coordinates events mandate := by
  obtain ⟨fold, hfold, hactive⟩ := bind_ok.mp h
  obtain rfl := Except.ok.inj hactive
  have hof := foldOf_foldlM hids hfold
  have hvalues : mandate ∈ fold.started.entries.map (·.2) ↔
      Started codec coordinates events mandate := by
    change mandate ∈ Map.values fold.started ↔ _
    simp only [Map.mem_values, hof.started, exists_eq_left']
  have hrevoked : (mandate.event.id.uuid.text ∈ fold.revokedEventIds ∨
      mandate.payload.mandateId ∈ fold.revokedMandateIds) ↔
      RevokedFor codec coordinates events mandate := by
    simp only [hof.eventIds, hof.mandateIds, RevokedFor, revokesMandate, decide_eq_true_eq]
    constructor
    · rintro (⟨e, p, hrev, ht, hid⟩ | ⟨e, p, hrev, ht, hid⟩)
      · exact ⟨e, p, hrev, ht, .inl hid⟩
      · exact ⟨e, p, hrev, ht, .inr hid⟩
    · rintro ⟨e, p, hrev, ht, hid | hid⟩
      · exact .inl ⟨e, p, hrev, ht, hid⟩
      · exact .inr ⟨e, p, hrev, ht, hid⟩
  rw [List.mem_insertionSort, MandateFold.active, List.mem_filter, hvalues, decide_eq_true_eq,
    hrevoked]

/-! ### Revoking -/

theorem mandateStartEvent_some {mandateEventId : EventRecordId} {start : ActiveMandate}
    (h : mandateStartEvent codec coordinates mandateEventId events = .ok (some start)) :
    Started codec coordinates events start ∧ start.event.id = mandateEventId := by
  induction events with
  | nil => cases Except.ok.inj h
  | cons event events ih =>
    have hlater : mandateStartEvent codec coordinates mandateEventId events = .ok (some start) →
        Started codec coordinates (event :: events) start ∧ start.event.id = mandateEventId := by
      intro hrest
      obtain ⟨⟨hmem, hkind, hreads, htargets⟩, hid⟩ := ih hrest
      exact ⟨⟨.tail _ hmem, hkind, hreads, htargets⟩, hid⟩
    rw [mandateStartEvent] at h
    split at h
    · exact hlater h
    · rename_i hthis
      rw [not_or, not_not, not_not] at hthis
      obtain ⟨payload, hdecode, hrest⟩ := bind_ok.mp h
      split at hrest
      · rename_i htargets
        obtain rfl := Option.some.inj (Except.ok.inj hrest)
        exact ⟨⟨List.mem_cons_self, hthis.2, decodeOr_ok.mp hdecode, htargets⟩, hthis.1⟩
      · exact hlater hrest

section
variable {mandateEventId : EventRecordId} {started : MandateStartedPayload}

theorem mandateRevokedEvent_some
    (h : mandateRevokedEvent codec mandateEventId started events = .ok (some (event, payload))) :
    Revocation codec events event payload ∧ revokesMandate mandateEventId started payload = true := by
  induction events with
  | nil => cases Except.ok.inj h
  | cons first events ih =>
    have hlater : mandateRevokedEvent codec mandateEventId started events =
        .ok (some (event, payload)) → Revocation codec (first :: events) event payload ∧
          revokesMandate mandateEventId started payload = true := by
      intro hrest
      obtain ⟨⟨hmem, hkind, hreads⟩, hrevokes⟩ := ih hrest
      exact ⟨⟨.tail _ hmem, hkind, hreads⟩, hrevokes⟩
    rw [mandateRevokedEvent] at h
    split at h
    · exact hlater h
    · rename_i hkind
      obtain ⟨payload', hdecode, hrest⟩ := bind_ok.mp h
      split at hrest
      · rename_i hrevokes
        cases Except.ok.inj hrest
        exact ⟨⟨List.mem_cons_self, not_not.mp hkind, decodeOr_ok.mp hdecode⟩, hrevokes⟩
      · exact hlater hrest

theorem mandateRevokedEvent_none
    (h : mandateRevokedEvent codec mandateEventId started events = .ok none) (hmem : event ∈ events)
    (hkind : event.kind = .mandateRevoked) :
    ∃ payload, codec.mandateRevoked.fromValue event.payload = .ok payload ∧
      revokesMandate mandateEventId started payload = false := by
  induction events with
  | nil => cases hmem
  | cons first events ih =>
    rw [mandateRevokedEvent] at h
    split at h
    · rename_i hfirst
      rcases List.mem_cons.mp hmem with rfl | hlater
      · exact absurd hkind hfirst
      · exact ih h hlater
    · obtain ⟨payload, hdecode, hrest⟩ := bind_ok.mp h
      split at hrest
      · cases Except.ok.inj hrest
      · rename_i hrevokes
        rcases List.mem_cons.mp hmem with rfl | hlater
        · exact ⟨payload, decodeOr_ok.mp hdecode, Bool.eq_false_iff.mpr hrevokes⟩
        · exact ih hrest hlater

end

end Verlet.Kernel
