import Verlet.Agent.AgentLoop.QuietCalls

/-!
# Agent — The agent loop — The verdict of a turn

What the marks on the streams say of a turn: that it was completed, that it failed, and how its thread
was joined since it began.  The verdict is one as long as no store operation and no coupling run fails
once `turn.completed` stands.
-/

namespace Verlet.Agent
open Support Kernel History LoopM

/-! ### What the streams say -/

/-- `turn.completed` of the turn stands on its thread's stream. -/
def Completed (turn : AgentTurn) (w : LoopWorld) : Prop :=
  ∃ event ∈ w.streams turn.stream, isTurnRecord .turnCompleted turn.turnId event

/-- `turn.failed` of the turn stands on its thread's stream. -/
def Failed (turn : AgentTurn) (w : LoopWorld) : Prop :=
  ∃ event ∈ w.streams turn.stream, isTurnRecord .turnFailed turn.turnId event

instance (turn : AgentTurn) (w : LoopWorld) : Decidable (Completed turn w) :=
  inferInstanceAs (Decidable (∃ event ∈ w.streams turn.stream, _))

instance (turn : AgentTurn) (w : LoopWorld) : Decidable (Failed turn w) :=
  inferInstanceAs (Decidable (∃ event ∈ w.streams turn.stream, _))

def LoopWorld.since (start w : LoopWorld) (streamId : EventStreamId) : List EventRecord :=
  (w.streams streamId).drop (start.streams streamId).length

/-- The joins of the thread that came to its parent's control stream since the start. -/
def joinsSince (turn : AgentTurn) (start w : LoopWorld) : List EventRecord :=
  turn.parentStream.toList.flatMap fun streamId =>
    (start.since w streamId).filter (isChildRecord .threadJoined turn.coordinates.threadId)

def joinState (event : EventRecord) : Option ThreadTerminalState :=
  (Wire.joined.fromValue event.payload).toOption.map (·.terminalState)

/-- **A turn ends with one verdict**: it is not both completed and failed, and where its thread was
joined since it began, the join says `completed` exactly where the turn was, and `failed` only where it
was not. -/
structure OneVerdict (turn : AgentTurn) (start w : LoopWorld) : Prop where
  verdict : ¬ (Completed turn w ∧ Failed turn w)
  completedJoin : ∀ event ∈ joinsSince turn start w,
    joinState event = some .completed ↔ Completed turn w
  failedJoin : ∀ event ∈ joinsSince turn start w,
    joinState event = some .failed → ¬ Completed turn w

/-- The streams are those of the start, and what came since. -/
def Grown (start w : LoopWorld) : Prop :=
  ∀ streamId, ∃ more, w.streams streamId = start.streams streamId ++ more

variable {turn : AgentTurn} {start w w' : LoopWorld} {streamId : EventStreamId}
  {record : NewEventRecord}

theorem Grown.refl (w : LoopWorld) : Grown w w := fun _ => ⟨[], (List.append_nil _).symm⟩

theorem Grown.quiet (h : Grown start w) (hquiet : Quiet turn w w') : Grown start w' := by
  intro streamId
  obtain ⟨more, hmore⟩ := h streamId
  obtain ⟨later, hlater, -⟩ := hquiet.streams streamId
  exact ⟨more ++ later, by rw [hlater, hmore, List.append_assoc]⟩

theorem Grown.appended (h : Grown start w) {records : List NewEventRecord} :
    Grown start (w.appended streamId records) := by
  intro streamId'
  obtain ⟨more, hmore⟩ := h streamId'
  exact ⟨_, by rw [streams_appended, hmore, List.append_assoc]⟩

theorem Grown.since_append (h : Grown start w) {later : List EventRecord}
    (hlater : w'.streams streamId = w.streams streamId ++ later) :
    start.since w' streamId = start.since w streamId ++ later := by
  obtain ⟨more, hmore⟩ := h streamId
  rw [LoopWorld.since, LoopWorld.since, hlater, hmore, List.append_assoc, List.drop_left,
    List.drop_left]

/-! ### What is quiet leaves it -/

theorem Completed.quiet (h : Completed turn w) (hquiet : Quiet turn w w') : Completed turn w' := by
  obtain ⟨event, hevent, hrecord⟩ := h
  obtain ⟨more, hmore, -⟩ := hquiet.streams turn.stream
  exact ⟨event, hmore ▸ List.mem_append_left _ hevent, hrecord⟩

theorem Completed.of_quiet (hquiet : Quiet turn w w') (h : Completed turn w') : Completed turn w := by
  obtain ⟨event, hevent, hrecord⟩ := h
  obtain ⟨more, hmore, hmarks⟩ := hquiet.streams turn.stream
  rcases List.mem_append.mp (hmore ▸ hevent) with hevent | hevent
  · exact ⟨event, hevent, hrecord⟩
  · exact absurd (.inl ⟨rfl, .inl hrecord⟩) (hmarks event hevent)

theorem Failed.of_quiet (hquiet : Quiet turn w w') (h : Failed turn w') : Failed turn w := by
  obtain ⟨event, hevent, hrecord⟩ := h
  obtain ⟨more, hmore, hmarks⟩ := hquiet.streams turn.stream
  rcases List.mem_append.mp (hmore ▸ hevent) with hevent | hevent
  · exact ⟨event, hevent, hrecord⟩
  · exact absurd (.inl ⟨rfl, .inr hrecord⟩) (hmarks event hevent)

theorem joinsSince_quiet (hgrown : Grown start w) (hquiet : Quiet turn w w') :
    joinsSince turn start w' = joinsSince turn start w := by
  rw [joinsSince, joinsSince]
  cases hparent : turn.parentStream with
  | none => rfl
  | some streamId =>
    obtain ⟨more, hmore, hmarks⟩ := hquiet.streams streamId
    have hnone : more.filter (isChildRecord .threadJoined turn.coordinates.threadId) = [] := by
      refine List.filter_eq_nil_iff.mpr fun event hevent hjoined => ?_
      exact hmarks event hevent (.inr ⟨hparent, .inl hjoined⟩)
    simp [hgrown.since_append hmore, hnone]

theorem OneVerdict.quiet (h : OneVerdict turn start w) (hgrown : Grown start w)
    (hquiet : Quiet turn w w') : OneVerdict turn start w' where
  verdict hboth := h.verdict ⟨.of_quiet hquiet hboth.1, .of_quiet hquiet hboth.2⟩
  completedJoin event hevent := by
    rw [joinsSince_quiet hgrown hquiet] at hevent
    exact (h.completedJoin event hevent).trans ⟨(·.quiet hquiet), .of_quiet hquiet⟩
  failedJoin event hevent hstate hcompleted := by
    rw [joinsSince_quiet hgrown hquiet] at hevent
    exact h.failedJoin event hevent hstate (.of_quiet hquiet hcompleted)

/-! ### One mark -/

/-- The record as an event, wherever it comes to stand. -/
def recordEvent (record : NewEventRecord) : EventRecord := .fromNew ⟨""⟩ 0 record

/-- What has to hold where a mark is appended. -/
structure Admits (turn : AgentTurn) (start : LoopWorld) (record : NewEventRecord) (w : LoopWorld) :
    Prop where
  completed : isTurnRecord .turnCompleted turn.turnId (recordEvent record) →
    ¬ Failed turn w ∧ joinsSince turn start w = []
  failed : isTurnRecord .turnFailed turn.turnId (recordEvent record) → ¬ Completed turn w
  joined : isChildRecord .threadJoined turn.coordinates.threadId (recordEvent record) →
    (joinState (recordEvent record) = some .completed ↔ Completed turn w)

theorem streams_appended_one (w : LoopWorld) (streamId streamId' : EventStreamId)
    (record : NewEventRecord) :
    (w.appended streamId [record]).streams streamId' = w.streams streamId' ++
      if streamId' = streamId then
        [.fromNew streamId ((w.streams streamId).length + 1) record] else [] :=
  streams_appended w streamId [record] streamId'

theorem mem_appended {p : EventRecord → Prop}
    (hp : ∀ sequence, p (.fromNew streamId sequence record) → p (recordEvent record))
    {streamId' : EventStreamId} (h : ∃ event ∈ (w.appended streamId [record]).streams streamId', p event) :
    (∃ event ∈ w.streams streamId', p event) ∨ p (recordEvent record) := by
  obtain ⟨event, hevent, hrecord⟩ := h
  rw [streams_appended_one] at hevent
  rcases List.mem_append.mp hevent with hevent | hevent
  · exact .inl ⟨event, hevent, hrecord⟩
  · split at hevent
    · obtain rfl := List.mem_singleton.mp hevent
      exact .inr (hp _ hrecord)
    · cases hevent

theorem Completed.appended (h : Completed turn w) : Completed turn (w.appended streamId [record]) := by
  obtain ⟨event, hevent, hrecord⟩ := h
  exact ⟨event, by rw [streams_appended_one]; exact List.mem_append_left _ hevent, hrecord⟩

theorem Completed.of_appended (h : Completed turn (w.appended streamId [record])) :
    Completed turn w ∨ isTurnRecord .turnCompleted turn.turnId (recordEvent record) :=
  mem_appended (p := (isTurnRecord .turnCompleted turn.turnId ·)) (fun _ h => h) h

theorem Failed.of_appended (h : Failed turn (w.appended streamId [record])) :
    Failed turn w ∨ isTurnRecord .turnFailed turn.turnId (recordEvent record) :=
  mem_appended (p := (isTurnRecord .turnFailed turn.turnId ·)) (fun _ h => h) h

variable {event : EventRecord}

theorem joinsSince_appended (hgrown : Grown start w)
    (h : event ∈ joinsSince turn start (w.appended streamId [record])) :
    event ∈ joinsSince turn start w ∨
      isChildRecord .threadJoined turn.coordinates.threadId (recordEvent record) ∧
        joinState event = joinState (recordEvent record) := by
  obtain ⟨parent, hparent, hevent⟩ := List.mem_flatMap.mp h
  rw [hgrown.since_append (streams_appended_one w streamId parent record), List.filter_append] at hevent
  rcases List.mem_append.mp hevent with hevent | hevent
  · exact .inl (List.mem_flatMap.mpr ⟨parent, hparent, hevent⟩)
  · obtain ⟨hevent, hjoined⟩ := List.mem_filter.mp hevent
    split at hevent
    · obtain rfl := List.mem_singleton.mp hevent
      exact .inr ⟨hjoined, rfl⟩
    · cases hevent

theorem kind_of_isTurnRecord {kind : EventKind} {turnId : String}
    (h : isTurnRecord kind turnId event) : event.kind = kind := by
  simp only [isTurnRecord, decide_eq_true_eq] at h
  exact h.1

theorem kind_of_isChildRecord {kind : EventKind} {child : ThreadId}
    (h : isChildRecord kind child event) : event.kind = kind := by
  simp only [isChildRecord, decide_eq_true_eq] at h
  exact h.1

/-- **A mark that may be appended leaves one verdict.** -/
theorem oneVerdict_appended (h : OneVerdict turn start w) (hgrown : Grown start w)
    (hadmits : Admits turn start record w) :
    OneVerdict turn start (w.appended streamId [record]) := by
  have hcompleted : ∀ event ∈ joinsSince turn start (w.appended streamId [record]),
      joinState event = some .completed ↔ Completed turn (w.appended streamId [record]) := by
    intro event hevent
    rcases joinsSince_appended hgrown hevent with hold | ⟨hjoined, hstate⟩
    · refine (h.completedJoin event hold).trans ⟨(·.appended), fun hafter => ?_⟩
      rcases hafter.of_appended with hbefore | hrecord
      · exact hbefore
      · rw [(hadmits.completed hrecord).2] at hold
        cases hold
    · rw [hstate]
      refine (hadmits.joined hjoined).trans ⟨(·.appended), fun hafter => ?_⟩
      rcases hafter.of_appended with hbefore | hrecord
      · exact hbefore
      · cases (kind_of_isTurnRecord hrecord).symm.trans (kind_of_isChildRecord hjoined)
  refine ⟨?_, hcompleted, fun event hevent hstate hafter => ?_⟩
  · rintro ⟨hafter, hafter'⟩
    rcases hafter.of_appended with hbefore | hrecord
    · rcases hafter'.of_appended with hbefore' | hrecord'
      · exact h.verdict ⟨hbefore, hbefore'⟩
      · exact hadmits.failed hrecord' hbefore
    · rcases hafter'.of_appended with hbefore' | hrecord'
      · exact (hadmits.completed hrecord).1 hbefore'
      · cases (kind_of_isTurnRecord hrecord).symm.trans (kind_of_isTurnRecord hrecord')
  · rw [(hcompleted event hevent).mpr hafter] at hstate
    cases hstate

end Verlet.Agent
