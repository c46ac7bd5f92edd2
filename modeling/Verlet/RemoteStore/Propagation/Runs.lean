import Verlet.RemoteStore.Lease.Writer
import Verlet.RemoteStore.Propagation.Safety

/-!
# Remote store — Propagation — Runs

Runs of a child and its daemon in which nobody else pushes the stream: any interleaving of the
child's appends, attempts, lost requests and answers, renewals, crashes and restarts with anything
else at the daemon.
-/

namespace Verlet.RemoteStore
open Support History History.Sqlite

variable {Text : Type} {endpoint : SyncEndpoint Text} {streamId : EventStreamId}
  {log : List EventRecord} {strict : Prop} {w : World Text} {v : View log}

/-! ### Runs keep the world safe -/

theorem stores_step (endpoint : SyncEndpoint Text) (streamId : EventStreamId) (step : WorldStep)
    (w : World Text) :
    HistoryMoves endpoint.codec w.stores.child (w.step endpoint streamId step).2.stores.child ∧
      HistoryMoves endpoint.codec w.stores.parent.authority.history
        (w.step endpoint streamId step).2.stores.parent.authority.history := by
  have hstay : HistoryMoves endpoint.codec w.stores.child w.stores.child ∧
      HistoryMoves endpoint.codec w.stores.parent.authority.history
        w.stores.parent.authority.history := ⟨.inl rfl, .inl rfl⟩
  have hserve : ∀ {α : Type} (handler : EndpointM α) (nowMs : Int) (leaseEpoch : Nat),
      HistoryMoves endpoint.codec w.stores.child
        (serveNext endpoint nowMs leaseEpoch w.stores handler).2.child ∧
      HistoryMoves endpoint.codec w.stores.parent.authority.history
        (serveNext endpoint nowMs leaseEpoch w.stores handler).2.parent.authority.history := by
    intro α handler nowMs leaseEpoch
    cases handler with
    | done a => exact hstay
    | call call k => exact ⟨.inl rfl, serve_history call nowMs leaseEpoch w.stores.parent⟩
  cases step with
  | «local» call => exact ⟨.inr ⟨call, rfl⟩, .inl rfl⟩
  | parent op => exact ⟨.inl rfl, apply_history op w.stores.parent⟩
  | boot | begin | reply | giveUp =>
    simp only [World.step]
    split <;> exact hstay
  | crash =>
    simp only [World.step, World.stop]
    split <;> exact hstay
  | proceed nowMs fault =>
    simp only [World.step]
    split
    · rename_i token attempt _
      cases attempt with
      | done attempt => exact hstay
      | call call k => cases call <;> exact hstay
    · exact hstay
  | serve nowMs leaseEpoch =>
    simp only [World.step]
    split
    · exact hserve _ nowMs leaseEpoch
    · exact hstay
  | serveAbandoned index nowMs leaseEpoch =>
    simp only [World.step]
    split
    · exact hstay
    · exact hserve _ nowMs leaseEpoch

theorem journals_of_moves {codec : Codec Text} {db db' : Db Text}
    {events : EventStreamId → List EventRecord} (h : Journals codec db events)
    (hm : HistoryMoves codec db db') :
    ∃ events', Journals codec db' events' ∧ ∀ stream, events stream <+: events' stream := by
  rcases hm with rfl | ⟨call, rfl⟩
  · exact ⟨events, h, fun _ => List.prefix_rfl⟩
  · exact h.step call

theorem journals_child (streamId : EventStreamId) {events : EventStreamId → List EventRecord}
    (h : Journals endpoint.codec w.stores.child events) (steps : List WorldStep) :
    ∃ events', Journals endpoint.codec
      (run (World.step endpoint streamId) steps w).stores.child events' ∧
        ∀ stream, events stream <+: events' stream := by
  induction steps generalizing w events with
  | nil => exact ⟨events, h, fun _ => List.prefix_rfl⟩
  | cons step steps ih =>
    obtain ⟨events₁, h₁, hle₁⟩ := journals_of_moves h (stores_step endpoint streamId step w).1
    obtain ⟨events₂, h₂, hle₂⟩ := ih h₁
    exact ⟨events₂, h₂, fun stream => (hle₁ stream).trans (hle₂ stream)⟩

theorem stream_of_journals {codec : Codec Text} {db db' : Db Text}
    {events events' : EventStreamId → List EventRecord} (h : Journals codec db events)
    (h' : Journals codec db' events') (hle : ∀ stream, events stream <+: events' stream)
    (stream : EventStreamId) : db.stream stream <+: db'.stream stream := by
  rw [h.rows, h'.rows]
  exact (hle stream).map _

/-- **Every run keeps the world safe**, and moves it forward. -/
theorem Safe.run (hlog : Readable endpoint.codec streamId log)
    (hqueue : strict → ¬ syncIngressQueueStreamPrefix.toList <+: streamId.text.toList)
    {events : EventStreamId → List EventRecord} {steps : List WorldStep}
    (h : Safe endpoint streamId strict w v) (hj : Journals endpoint.codec w.stores.child events)
    (halong : Along (World.step endpoint streamId) (fun w step =>
      SinglePusher endpoint streamId w step ∧ (strict → ¬ SplitsPush streamId w step)) steps w)
    (hfinal : (run (World.step endpoint streamId) steps w).stores.child.stream streamId <+:
      log.map (.of endpoint.codec)) :
    (∃ v' : View log, Safe endpoint streamId strict
      (run (World.step endpoint streamId) steps w) v' ∧ v.Progress v') ∧
    (strict → ∀ report ∈ replies (World.step endpoint streamId) steps w,
      ∀ actual, report ≠ some (.ok (.streamDiverged actual))) := by
  induction steps generalizing w v events with
  | nil =>
    refine ⟨⟨v, h, (View.Awaits.refl v).progress⟩, fun _ report hr => ?_⟩
    cases hr
  | cons step steps ih =>
    obtain ⟨⟨hsingle, hsplits⟩, hrest⟩ := halong
    obtain ⟨events₁, hj₁, hle₁⟩ := journals_of_moves hj (stores_step endpoint streamId step w).1
    obtain ⟨events₂, hj₂, hle₂⟩ := journals_child streamId hj₁ steps
    have hgrows := stream_of_journals hj hj₁ hle₁ streamId
    have hchild := (stream_of_journals hj₁ hj₂ hle₂ streamId).trans hfinal
    obtain ⟨⟨v₁, h₁, hv₁⟩, hreport⟩ := h.step hlog hqueue hsingle hsplits hgrows hchild
    obtain ⟨⟨v₂, h₂, hv₂⟩, hreports⟩ := ih h₁ hj₁ hrest hfinal
    refine ⟨⟨v₂, h₂, hv₁.trans hv₂⟩, fun hs report hr => ?_⟩
    rcases List.mem_cons.mp hr with rfl | hr
    · exact hreport hs
    · exact hreports hs report hr

/-! ### Safety -/

/-- The states of the stream's propagator that the child knows: persisted, or in memory. -/
def World.Knows (w : World Text) (streamId : EventStreamId) (state : StreamPropagationState) : Prop :=
  w.stores.saved.lookup streamId = some state ∨ w.activity = .idle state

def tailSequence (events : List EventRecord) : EventSequence :=
  (events.getLast?.map (·.sequence)).getD 0

theorem tailSequence_eq {events : List EventRecord} (h : Placed streamId events) :
    tailSequence events = events.length := by
  unfold tailSequence
  rw [List.getLast?_eq_getElem?]
  cases hn : events.length with
  | zero =>
    rw [List.length_eq_zero_iff.mp hn]
    rfl
  | succ n =>
    have hget := List.getElem?_eq_getElem (l := events) (i := n) (by omega)
    rw [Nat.add_sub_cancel, hget, Option.map_some, Option.getD_some, (h n _ hget).2]
    push_cast
    rfl

theorem Safe.reads (hlog : Readable endpoint.codec streamId log)
    (h : Safe endpoint streamId strict w v) :
    readEvents endpoint.codec w.stores.parent.authority.history streamId none =
        .ok (log.take v.parent) ∧
      readEvents endpoint.codec w.stores.child streamId none = .ok (log.take v.child) :=
  ⟨(h.shows.holds_parent hlog).readEvents_none (hlog.reads_take _),
    (h.shows.holds_child hlog).readEvents_none (hlog.reads_take _)⟩

theorem Safe.saved_of_knows (h : Safe endpoint streamId strict w v) {state : StreamPropagationState}
    (hk : w.Knows streamId state) : v.saved = some state := by
  rcases hk with hsaved | hidle
  · exact h.shows.saved.symm.trans hsaved
  · have hgoing := h.going
    rw [hidle] at hgoing
    exact hgoing

theorem safe_empty (endpoint : SyncEndpoint Text) (streamId : EventStreamId) (strict : Prop)
    (log : List EventRecord) :
    Safe endpoint streamId strict .empty ⟨0, 0, none, le_rfl, Nat.zero_le log.length⟩ where
  shows := ⟨rfl, rfl, rfl, Sqlite.counted_empty⟩
  confirmed := by
    rintro _ ⟨⟩
  going := trivial
  abandoned := by
    rintro _ ⟨⟩

/-- **Propagation is safe.**  In every run in which the child alone pushes the stream, the parent's
stream is a prefix of the child's, record for record and without repetition; it only grows; and the
`pushed_through` of every state the child knows is no more than the parent's tail, and never less
than before. -/
theorem propagation_safe (endpoint : SyncEndpoint Text) (streamId : EventStreamId)
    (steps later : List WorldStep)
    (hsingle : Along (World.step endpoint streamId) (SinglePusher endpoint streamId)
      (steps ++ later) .empty)
    (hreads : ReadsBack endpoint.codec
      (run (World.step endpoint streamId) (steps ++ later) .empty).stores.child)
    (w w' : World Text) (hw : w = run (World.step endpoint streamId) steps .empty)
    (hw' : w' = run (World.step endpoint streamId) later w) :
    ∃ remote locals remote' : List EventRecord,
      readEvents endpoint.codec w.stores.parent.authority.history streamId none = .ok remote ∧
      readEvents endpoint.codec w.stores.child streamId none = .ok locals ∧
      readEvents endpoint.codec w'.stores.parent.authority.history streamId none = .ok remote' ∧
      remote <+: locals ∧ remote <+: remote' ∧ (remote.map (·.id)).Nodup ∧
      (∀ state, w.Knows streamId state → ∀ sequence, state.pushedThrough = some sequence →
        sequence ≤ tailSequence remote) ∧
      ∀ state state', w.Knows streamId state → w'.Knows streamId state' → state.Behind state' := by
  subst hw
  rw [← run_append] at hw'
  subst hw'
  rw [along_append] at hsingle
  -- the child's stream at the end is what every earlier one is the beginning of
  obtain ⟨events, hj, -⟩ := @journals_child _ endpoint .empty streamId _ journals_empty (steps ++ later)
  obtain ⟨events₁, hj₁, -⟩ := @journals_child _ endpoint .empty streamId _ journals_empty steps
  obtain ⟨events₂, hj₂, hle₂⟩ := journals_child streamId hj₁ later
  have hlog : Readable endpoint.codec streamId (events streamId) :=
    ⟨(hj.holds streamId).placed, fun event he => hj.reads hreads he⟩
  have hweaken : ∀ (w : World Text) (step : WorldStep), SinglePusher endpoint streamId w step →
      SinglePusher endpoint streamId w step ∧ (False → ¬ SplitsPush streamId w step) :=
    fun _ _ h => ⟨h, False.elim⟩
  have hend := hj.rows streamId
  have hmid := stream_of_journals hj₁ hj₂ hle₂ streamId
  rw [← run_append, hend] at hmid
  obtain ⟨⟨v, hsafe, -⟩, -⟩ := (safe_empty endpoint streamId False (events streamId)).run hlog
    False.elim journals_empty (hsingle.1.mono hweaken) hmid
  obtain ⟨⟨v', hsafe', hprogress⟩, -⟩ := hsafe.run hlog False.elim hj₁ (hsingle.2.mono hweaken) (by
    rw [← run_append, hend])
  rw [← run_append] at hsafe'
  obtain ⟨hremote, hlocals⟩ := hsafe.reads hlog
  refine ⟨_, _, _, hremote, hlocals, (hsafe'.reads hlog).1, ?_, ?_, ?_, ?_, ?_⟩
  · exact List.take_prefix_take_left v.parent_le
  · exact List.take_prefix_take_left hprogress.parent
  · exact (hj.journal.nodup streamId).sublist ((List.take_sublist _ _).map _)
  · intro state hk sequence hs
    rw [tailSequence_eq (hlog.placed.take v.parent), v.length_parent]
    exact (hsafe.confirmed state (hsafe.saved_of_knows hk)).pushed sequence hs
  · intro state state' hk hk'
    obtain ⟨state'', hs, hle⟩ := hprogress.behind state (hsafe.saved_of_knows hk)
    rw [hsafe'.saved_of_knows hk'] at hs
    obtain rfl := Option.some.inj hs
    exact hle

/-! ### Convergence -/

theorem journals_parent (streamId : EventStreamId) {events : EventStreamId → List EventRecord}
    (h : Journals endpoint.codec w.stores.parent.authority.history events) (steps : List WorldStep) :
    ∃ events', Journals endpoint.codec
      (run (World.step endpoint streamId) steps w).stores.parent.authority.history events' := by
  induction steps generalizing w events with
  | nil => exact ⟨events, h⟩
  | cons step steps ih =>
    obtain ⟨events₁, h₁, -⟩ := journals_of_moves h (stores_step endpoint streamId step w).2
    exact ih h₁

/-- Every state is persisted under its own stream. -/
def Filed (w : World Text) : Prop :=
  ∀ stream state, w.stores.saved.lookup stream = some state → state.streamId = stream

theorem filed_insert {saved : Map EventStreamId StreamPropagationState}
    (h : ∀ stream state, saved.lookup stream = some state → state.streamId = stream)
    (state : StreamPropagationState) (stream : EventStreamId) (state' : StreamPropagationState)
    (hs : (saved.insert state.streamId state).lookup stream = some state') :
    state'.streamId = stream := by
  rw [Map.lookup_insert] at hs
  split at hs
  · rename_i heq
    cases hs
    exact heq.symm
  · exact h stream state' hs

theorem Filed.step (h : Filed w) (step : WorldStep) : Filed (w.step endpoint streamId step).2 := by
  cases step with
  | «local» | parent => exact h
  | begin | reply | giveUp =>
    simp only [World.step]
    split <;> exact h
  | boot lease =>
    simp only [World.step]
    split
    · exact h
    · exact filed_insert h ⟨streamId, lease, none⟩
    · exact h
  | crash =>
    simp only [World.step, World.stop]
    split <;> exact h
  | proceed nowMs fault =>
    simp only [World.step]
    split
    · rename_i token attempt _
      cases attempt with
      | done attempt => exact h
      | call call k =>
        cases call with
        | now | readEvents | sync => exact h
        | persist state =>
          cases fault with
          | none | unconfirmed => exact filed_insert h state
          | failed error => exact h
    · exact h
  | serve nowMs leaseEpoch =>
    simp only [World.step]
    split
    · rename_i handler _ _
      cases handler <;> exact h
    · exact h
  | serveAbandoned index nowMs leaseEpoch =>
    simp only [World.step]
    split
    · exact h
    · rename_i handler _
      cases handler <;> exact h

/-- **No attempt diverges** from a parent whose stream begins the child's and reaches what is
pushed, in a run in which the child alone pushes the stream and no push it awaits finds the parent's
tail inside its batch. -/
theorem propagation_converges (endpoint : SyncEndpoint Text) (streamId : EventStreamId)
    (hstream : ¬ syncIngressQueueStreamPrefix.toList <+: streamId.text.toList)
    (before steps : List WorldStep) (w : World Text)
    (hw : w = run (World.step endpoint streamId) before .empty)
    (hactivity : w.activity = .stopped) (habandoned : ∀ handler ∈ w.abandoned, handler = .done ())
    (remote locals : List EventRecord)
    (hremote : readEvents endpoint.codec w.stores.parent.authority.history streamId none = .ok remote)
    (hlocals : readEvents endpoint.codec w.stores.child streamId none = .ok locals)
    (hbegins : remote <+: locals)
    (hpushed : ∀ state sequence, w.stores.saved.lookup streamId = some state →
      state.pushedThrough = some sequence → sequence ≤ tailSequence remote ∧ sequence < 2 ^ 63)
    (hsteps : Along (World.step endpoint streamId) (fun w step =>
      SinglePusher endpoint streamId w step ∧ ¬ SplitsPush streamId w step) steps w)
    (hparent : ReadsBack endpoint.codec w.stores.parent.authority.history)
    (hchild : ReadsBack endpoint.codec
      (run (World.step endpoint streamId) steps w).stores.child) :
    ∀ report ∈ replies (World.step endpoint streamId) steps w,
      ∀ actual, report ≠ some (.ok (.streamDiverged actual)) := by
  obtain ⟨events₁, hj₁, -⟩ := @journals_child _ endpoint .empty streamId _ journals_empty before
  obtain ⟨held, hjp⟩ := @journals_parent _ endpoint .empty streamId _ journals_empty before
  rw [← hw] at hj₁ hjp
  obtain ⟨events, hj, hle⟩ := journals_child streamId hj₁ steps
  have hlog : Readable endpoint.codec streamId (events streamId) :=
    ⟨(hj.holds streamId).placed, fun event he => hj.reads hchild he⟩
  -- both streams are the first events of the child's stream at the end
  have hchildreads : ∀ event ∈ events₁ streamId, endpoint.codec.Reads event :=
    fun event he => hlog.reads event ((hle streamId).subset he)
  obtain rfl : events₁ streamId = locals := by
    rw [(hj₁.holds streamId).readEvents_none hchildreads] at hlocals
    exact Except.ok.inj hlocals
  obtain rfl : held streamId = remote := by
    rw [(hjp.holds streamId).readEvents_none fun event he => hjp.reads hparent he] at hremote
    exact Except.ok.inj hremote
  have hfiled : Filed w := by
    rw [hw]
    refine run_invariant (fun _ step h => h.step step) before ?_
    rintro _ _ ⟨⟩
  let v : View (events streamId) := ⟨(held streamId).length, (events₁ streamId).length,
    w.stores.saved.lookup streamId, hbegins.length_le, (hle streamId).length_le⟩
  have hsafe : Safe endpoint streamId True w v := by
    refine ⟨⟨?_, ?_, rfl, hjp.counted⟩, ?_, ?_, ?_⟩
    · rw [hjp.rows, ← List.prefix_iff_eq_take.mp (hbegins.trans (hle streamId))]
    · rw [hj₁.rows, ← List.prefix_iff_eq_take.mp (hle streamId)]
    · intro state hs
      refine ⟨hfiled streamId state hs, fun sequence hq => ?_, fun sequence hq => ?_⟩
      · have htail := (hpushed state sequence hs hq).1
        rwa [tailSequence_eq (hjp.holds streamId).placed] at htail
      · exact (hpushed state sequence hs hq).2
    · rw [hactivity]
      trivial
    · intro handler hh
      rw [habandoned handler hh]
      exact fun _ _ => trivial
  refine (hsafe.run hlog (fun _ => hstream) hj₁ (hsteps.mono fun _ _ h => ⟨h.1, fun _ => h.2⟩) ?_).2
    trivial
  rw [hj.rows]

/-! ### Sample runs -/

/-- A text of a sample run: one of the store, or an entry of the queue. -/
inductive EndpointText where
  | stored (text : Sqlite.Stored)
  | queued (entry : RemoteIngressQueueEntryV1)
deriving DecidableEq

def EndpointText.codec : Codec EndpointText where
  encodeEntry entry := .stored (.entry entry)
  decodeEntry
    | .stored (.entry entry) => some entry
    | _                      => none
  encodeValue value := .stored (.value value)
  decodeValue
    | .stored (.value value) => some value
    | _                      => none
  encodeProvenance provenance := .stored (.provenance provenance)
  decodeProvenance
    | .stored (.provenance provenance) => some provenance
    | _                                => none

/-- The queue's codec of a sample run, in which no queue is pulled. -/
def EndpointText.queueCodec : QueueCodec EndpointText where
  encodeEntry := .queued
  decodeEntry
    | .queued entry => some entry
    | .stored _     => none
  entryValue _ := .null

theorem EndpointText.readsBack (db : Db EndpointText) : ReadsBack codec db :=
  ⟨fun _ _ => rfl, fun _ _ => rfl, fun _ _ => rfl⟩

/-- An endpoint of a sample run; the fingerprints are those of its two conflicts. -/
def SyncEndpoint.sample : SyncEndpoint EndpointText where
  authority := .sample
  codec := EndpointText.codec
  queueCodec := EndpointText.queueCodec
  rejectionFingerprint request _ :=
    if request.records.length = 1 then
      "sha256:51d107c0f26dfe7182800fa49e405af9e1ba8342948403e9746b038fefed8d50"
    else "sha256:f8374f993557642af3e25408a4887a253bd56fd2f6ae16337bde528617f38145"

def sampleStream : EventStreamId := ⟨"thread:child"⟩

/-- The child appends the `n`th event of a sample run. -/
def sampleAppend (n : Nat) : WorldStep :=
  .local (.counted 0 0 (.appendEvents sampleStream
    [.witnessed (.counted n) (.counted "user" 1) .turnSubmitted (.obj [])]))

def samplePropagator (batchSize : Nat) (h : 0 < batchSize) : LocalFirstStreamPropagator :=
  ⟨sampleToken, batchSize, h⟩

/-- An attempt up to the answer of its push: the clock, the local records, the request, and the
endpoint's `calls` for it. -/
def samplePush (propagator : LocalFirstStreamPropagator) (calls : Nat) : List WorldStep :=
  [.begin propagator, .proceed 10 .none, .proceed 10 .none, .proceed 10 .none] ++
    List.replicate calls (.serve 10 0)

/-- The lease, the first event, the child's start and a push whose answer is lost. -/
def sampleLost : List WorldStep :=
  [.parent (.authority (.counted 0 1 (.grantLease ⟨"thread:child"⟩ ⟨"dispatch"⟩ ⟨none⟩))),
   .parent (.authority (.counted 10 2 (.mintCredential .sample))),
   sampleAppend 21, .boot .sample] ++
  samplePush (samplePropagator 2 (by decide)) 2 ++ [.giveUp "timed out", .proceed 10 .none]

/-- The end of an attempt whose push found another tail: it pulls, and decides. -/
def sampleReconcile : List WorldStep :=
  [.reply, .proceed 10 .none, .serve 10 0, .serve 10 0, .reply, .proceed 10 .none, .proceed 10 .none]

/-- The child appends once more, crashes, and its next attempt pushes one record at a time. -/
def sampleAdopt : List WorldStep :=
  [sampleAppend 22, .crash, .boot .sample] ++
    samplePush (samplePropagator 1 (by decide)) 4 ++ sampleReconcile

set_option maxRecDepth 100000 in
/-- A lost answer, a crash and an attempt that adopts what the parent holds: its record stays where
it was, and the position moves from nothing to it. -/
theorem propagation_safe_adopts :
    (∃ remote locals remote' : List EventRecord,
      readEvents EndpointText.codec (run (World.step .sample sampleStream) sampleLost
        .empty).stores.parent.authority.history sampleStream none = .ok remote ∧
      readEvents EndpointText.codec (run (World.step .sample sampleStream) sampleLost
        .empty).stores.child sampleStream none = .ok locals ∧
      readEvents EndpointText.codec (run (World.step .sample sampleStream) (sampleLost ++ sampleAdopt)
        .empty).stores.parent.authority.history sampleStream none = .ok remote' ∧
      remote <+: locals ∧ remote <+: remote') ∧
    (run (World.step .sample sampleStream) sampleLost .empty).stores.saved.lookup sampleStream =
      some ⟨sampleStream, .sample, none⟩ ∧
    (run (World.step .sample sampleStream) (sampleLost ++ sampleAdopt) .empty).stores.saved.lookup
      sampleStream = some ⟨sampleStream, .sample, some 1⟩ := by
  refine ⟨?_, by decide⟩
  obtain ⟨remote, locals, remote', hr, hl, hr', hle, hle', -, -, -⟩ :=
    propagation_safe .sample sampleStream sampleLost sampleAdopt (by decide)
      (EndpointText.readsBack _) _ _ rfl rfl
  rw [← run_append] at hr'
  exact ⟨remote, locals, remote', hr, hl, hr', hle, hle'⟩

/-- The sample's daemon and child, with payloads read as `serde_json` reads them. -/
def SyncEndpoint.rereading : SyncEndpoint EndpointText :=
  { SyncEndpoint.sample with codec := EndpointText.codec.rereading }

/-- The lease, an event whose payload is not read back, and its push. -/
def sampleMeasured : List WorldStep :=
  [.parent (.authority (.counted 0 1 (.grantLease ⟨"thread:child"⟩ ⟨"dispatch"⟩ ⟨none⟩))),
   .parent (.authority (.counted 10 2 (.mintCredential .sample))),
   .local (.counted 0 0 (measure sampleStream 21)), .boot .sample] ++
  samplePush (samplePropagator 2 (by decide)) 2

set_option maxRecDepth 100000 in
/-- **A payload that `serde_json` does not read back** is pushed as the child reads it, and the
parent reads another. -/
theorem measure_propagated_differently :
    Along (World.step .rereading sampleStream) (SinglePusher .rereading sampleStream) sampleMeasured
      .empty ∧
    payloads (readEvents SyncEndpoint.rereading.codec (run (World.step .rereading sampleStream)
      sampleMeasured .empty).stores.child sampleStream none) =
        some [reread sampleMeasure] ∧
    payloads (readEvents SyncEndpoint.rereading.codec (run (World.step .rereading sampleStream)
      sampleMeasured .empty).stores.parent.authority.history sampleStream none) =
        some [reread (reread sampleMeasure)] ∧
    reread (reread sampleMeasure) ≠ reread sampleMeasure := by
  decide

set_option maxRecDepth 100000 in
/-- In the same run an attempt advances past the first record, and none finds the parent diverged. -/
theorem propagation_converges_adopts :
    some (.ok (.advanced 1)) ∈
        replies (World.step .sample sampleStream) (sampleLost ++ sampleAdopt) .empty ∧
      ∀ report ∈ replies (World.step .sample sampleStream) (sampleLost ++ sampleAdopt) .empty,
        ∀ actual, report ≠ some (.ok (.streamDiverged actual)) := by
  refine ⟨by decide, ?_⟩
  refine propagation_converges .sample sampleStream (by decide) [] (sampleLost ++ sampleAdopt)
    .empty rfl rfl ?_ [] [] rfl rfl List.prefix_rfl ?_ (by decide)
    (EndpointText.readsBack _) (EndpointText.readsBack _)
  · rintro _ ⟨⟩
  · rintro _ _ ⟨⟩

/-- The child appends once more, and its next attempt pushes both records. -/
def sampleDiverge : List WorldStep :=
  [sampleAppend 22] ++ samplePush (samplePropagator 2 (by decide)) 4 ++
    [.reply, .proceed 10 .none, .serve 10 0, .serve 10 0, .reply]

/-- The `n`th event of a sample run, at its place in the stream. -/
def sampleRecord (n : Nat) (sequence : EventSequence) : EventRecord :=
  .fromNew sampleStream sequence
    (.witnessed (.counted n) (.counted "user" 1) .turnSubmitted (.obj []))

set_option maxRecDepth 100000 in
/-- A lost answer, one more event and a batch of two: the attempt finds the parent diverged, whose
one record is the child's first. -/
theorem lost_answer_diverges :
    Along (World.step .sample sampleStream) (SinglePusher .sample sampleStream)
        (sampleLost ++ sampleDiverge ++ [.proceed 10 .none]) .empty ∧
      readEvents EndpointText.codec (run (World.step .sample sampleStream)
        (sampleLost ++ sampleDiverge) .empty).stores.parent.authority.history sampleStream none =
          .ok [sampleRecord 21 1] ∧
      readEvents EndpointText.codec (run (World.step .sample sampleStream)
        (sampleLost ++ sampleDiverge) .empty).stores.child sampleStream none =
          .ok [sampleRecord 21 1, sampleRecord 22 2] ∧
      (run (World.step .sample sampleStream) (sampleLost ++ sampleDiverge) .empty).stores.saved.lookup
        sampleStream = some ⟨sampleStream, .sample, none⟩ ∧
      (World.step .sample sampleStream (.proceed 10 .none) (run (World.step .sample sampleStream)
        (sampleLost ++ sampleDiverge) .empty)).1 = some (.ok (.streamDiverged 2)) := by
  decide

end Verlet.RemoteStore
