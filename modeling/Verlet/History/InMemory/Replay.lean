import Verlet.History.InMemory.Journal

/-!
# History — In-memory store — Cursor replay

A consumer that resumes each read at the cursor of the last event it received.
-/

namespace Verlet.History.InMemory
open Support

/-! ### One read -/

variable {s : Inner}

/-- **A read after a cursor** succeeds exactly where the cursor is that of a stored event of the
stream, and returns what follows it. -/
theorem readEventsAfterCursor_ok (h : Journal s.eventsOf (· ∈ s.eventIds))
    {streamId : EventStreamId} {cursor : StreamCursorV1} {batch : List EventRecord} :
    readEventsAfterCursor (readEvents s) streamId cursor = .ok batch ↔
      ∃ i event, (s.eventsOf streamId)[i]? = some event ∧ cursor = event.cursorV1 ∧
        batch = (s.eventsOf streamId).drop (i + 1) := by
  have hplaced : Placed streamId (s.eventsOf streamId) := h.placed streamId
  exact readEventsAfterCursor_placed hplaced fun sequence =>
    congrArg Except.ok (hplaced.filter_sequence sequence)

/-! ### A resuming consumer -/

/-- Where a consumer resumes, and what it has received. -/
structure Consumer where
  cursor : StreamCursorV1
  received : List EventRecord

/-- One poll: read after the cursor, keep the batch, move to the cursor of its last event. -/
def poll (streamId : EventStreamId) (s : Inner) (k : Consumer) : HistoryResult Consumer := do
  let batch ← readEventsAfterCursor (readEvents s) streamId k.cursor
  return ⟨(batch.getLast?.map (·.cursorV1)).getD k.cursor, k.received ++ batch⟩

/-- A call of some writer, or a poll of the consumer. -/
inductive Action where
  | call (call : Call)
  | poll

/-- The store and its consumer: a poll that fails changes nothing. -/
def act (streamId : EventStreamId) :
    Action → Inner × Consumer → HistoryResult Unit × (Inner × Consumer)
  | .call call, (s, k) => (.ok (), ((step call s).2, k))
  | .poll,      (s, k) =>
    match poll streamId s k with
    | .ok k'   => (.ok (), (s, k'))
    | .error e => (.error e, (s, k))

/-- The consumer that started after place `i` has received what follows it up to place `n`, and
stands there. -/
structure Following (streamId : EventStreamId) (i : Nat) (s : Inner) (k : Consumer) : Prop where
  journal : Journal s.eventsOf (· ∈ s.eventIds)
  standing : ∃ last, (s.eventsOf streamId)[i + k.received.length]? = some last ∧
    k.cursor = last.cursorV1
  received : k.received = ((s.eventsOf streamId).drop (i + 1)).take k.received.length

variable {k : Consumer}

section Consumer

variable {streamId : EventStreamId} {i : Nat}

theorem Following.poll_ok (h : Following streamId i s k) :
    ∃ k', poll streamId s k = .ok k' ∧ k'.received = (s.eventsOf streamId).drop (i + 1) ∧
      Following streamId i s k' := by
  obtain ⟨last, hlast, hcursor⟩ := h.standing
  let batch := (s.eventsOf streamId).drop (i + k.received.length + 1)
  have hread : readEventsAfterCursor (readEvents s) streamId k.cursor = .ok batch :=
    (readEventsAfterCursor_ok h.journal).mpr ⟨_, last, hlast, hcursor, rfl⟩
  let k' : Consumer := ⟨(batch.getLast?.map (·.cursorV1)).getD k.cursor, k.received ++ batch⟩
  have hpoll : poll streamId s k = .ok k' := by
    rw [poll, hread]
    rfl
  have hall : k'.received = (s.eventsOf streamId).drop (i + 1) := by
    calc k.received ++ batch
        = ((s.eventsOf streamId).drop (i + 1)).take k.received.length ++
          ((s.eventsOf streamId).drop (i + 1)).drop k.received.length := by
            rw [List.drop_drop, ← h.received, Nat.add_right_comm]
      _ = (s.eventsOf streamId).drop (i + 1) := List.take_append_drop _ _
  refine ⟨k', hpoll, hall, h.journal, ?_, by rw [hall, List.take_length]⟩
  have hlt := (List.getElem?_eq_some_iff.mp hlast).1
  have hend : i + k'.received.length = (s.eventsOf streamId).length - 1 := by
    rw [hall, List.length_drop]
    omega
  rw [hend, ← List.getLast?_eq_getElem?]
  by_cases hb : (s.eventsOf streamId).length ≤ i + k.received.length + 1
  · -- an empty batch: the consumer stood at the last event already
    refine ⟨last, ?_, ?_⟩
    · rw [List.getLast?_eq_getElem?, ← hlast]
      congr 1
      omega
    · change (batch.getLast?.map (·.cursorV1)).getD k.cursor = _
      rw [show batch = [] from List.drop_eq_nil_of_le hb]
      exact hcursor
  · obtain ⟨event, hevent⟩ := Option.isSome_iff_exists.mp
      (List.getLast?_isSome.mpr (List.ne_nil_of_length_pos (Nat.zero_lt_of_lt hlt)))
    refine ⟨event, hevent, ?_⟩
    change (batch.getLast?.map (·.cursorV1)).getD k.cursor = _
    rw [List.getLast?_drop, if_neg hb, hevent]
    rfl

theorem Following.call (h : Following streamId i s k) (call : Call) :
    Following streamId i (step call s).2 k := by
  obtain ⟨last, hlast, hcursor⟩ := h.standing
  obtain ⟨more, hmore⟩ := prefix_step s call streamId
  have hlt := (List.getElem?_eq_some_iff.mp hlast).1
  refine ⟨journal_step h.journal call, ⟨last, ?_, hcursor⟩, ?_⟩
  · rw [← hmore, List.getElem?_append_left hlt]
    exact hlast
  · have hdrop : i + 1 ≤ (s.eventsOf streamId).length := by omega
    rw [← hmore, List.drop_append_of_le_length hdrop, List.take_append_of_le_length]
    · exact h.received
    · rw [List.length_drop]
      omega

theorem Following.act (h : Following streamId i s k) (action : Action) :
    (InMemory.act streamId action (s, k)).1 = .ok () ∧
      Following streamId i (InMemory.act streamId action (s, k)).2.1
        (InMemory.act streamId action (s, k)).2.2 := by
  cases action with
  | call call => exact ⟨rfl, h.call call⟩
  | poll =>
    obtain ⟨k', hpoll, -, h'⟩ := h.poll_ok
    simp only [InMemory.act, hpoll]
    exact ⟨trivial, h'⟩

theorem Following.run {w : Inner × Consumer} (h : Following streamId i w.1 w.2)
    (actions : List Action) :
    (∀ reply ∈ replies (InMemory.act streamId) actions w, reply = .ok ()) ∧
      Following streamId i (Support.run (InMemory.act streamId) actions w).1
        (Support.run (InMemory.act streamId) actions w).2 := by
  induction actions generalizing w with
  | nil => exact ⟨by simp [replies], h⟩
  | cons action actions ih =>
    obtain ⟨hreply, hnext⟩ := h.act action
    obtain ⟨hreplies, hend⟩ := ih hnext
    refine ⟨fun reply hr => ?_, hend⟩
    rcases List.mem_cons.mp hr with rfl | hr
    · exact hreply
    · exact hreplies reply hr

end Consumer

/-- **Cursor replay.**  From any event of any reachable store, a consumer whose polls interleave
with any calls: no poll fails, what it has received is the run of events right after its starting
event, a further poll gives it the rest; and a cursor whose sequence and event id are not those of
one stored event of the stream is rejected. -/
theorem cursor_replay (calls : List Call) (streamId : EventStreamId) (i : Nat) (start : EventRecord)
    (hstart : ((run step calls .empty).eventsOf streamId)[i]? = some start)
    (actions : List Action) :
    let w₀ : Inner × Consumer := (run step calls .empty, ⟨start.cursorV1, []⟩)
    let w := run (act streamId) actions w₀
    (∀ reply ∈ replies (act streamId) actions w₀, reply = .ok ()) ∧
    w.2.received = ((w.1.eventsOf streamId).drop (i + 1)).take w.2.received.length ∧
    (∃ k, poll streamId w.1 w.2 = .ok k ∧ k.received = (w.1.eventsOf streamId).drop (i + 1)) ∧
    ∀ cursor, (∀ event ∈ w.1.eventsOf streamId,
        ¬ (event.sequence = cursor.sequence ∧ event.id = cursor.eventId)) →
      ∃ e, readEventsAfterCursor (readEvents w.1) streamId cursor = .error e := by
  intro w₀ w
  have hjournal : Journal w₀.1.eventsOf (· ∈ w₀.1.eventIds) :=
    run_invariant (P := fun s : Inner => Journal s.eventsOf (· ∈ s.eventIds))
      (fun s call hs => journal_step hs call) calls sound_empty.journal
  have hfollow : Following streamId i w₀.1 w₀.2 := ⟨hjournal, ⟨start, hstart, rfl⟩, by simp [w₀]⟩
  obtain ⟨hreplies, hend⟩ := hfollow.run actions
  obtain ⟨k, hpoll, hall, -⟩ := hend.poll_ok
  refine ⟨hreplies, hend.received, ⟨k, hpoll, hall⟩, fun cursor hcursor => ?_⟩
  cases hread : readEventsAfterCursor (readEvents w.1) streamId cursor with
  | error e => exact ⟨e, rfl⟩
  | ok batch =>
    obtain ⟨j, event, hget, rfl, -⟩ := (readEventsAfterCursor_ok hend.journal).mp hread
    exact absurd ⟨rfl, rfl⟩ (hcursor event (List.mem_of_getElem? hget))

/-- A writer's event in a sample run. -/
def sampleEvent (n : Nat) : NewEventRecord :=
  .witnessed (.counted n) (.counted "user" 1) .turnSubmitted (.obj [])

def sampleLog : List Call := [.counted 0 0 (.appendEvents ⟨"log"⟩ [sampleEvent 1])]

def samplePolls : List Action :=
  [.poll, .call (.counted 0 0 (.appendEventsFenced ⟨"log"⟩ 2 [sampleEvent 2, sampleEvent 3])), .poll]

/-- The store and its consumer after the polls, the consumer having started at the first event. -/
def sampleWatch : Inner × Consumer :=
  run (act ⟨"log"⟩) samplePolls (run step sampleLog .empty,
    ⟨(EventRecord.fromNew ⟨"log"⟩ 1 (sampleEvent 1)).cursorV1, []⟩)

set_option maxRecDepth 100000 in
/-- Both events of the batch are received, once. -/
theorem cursor_replay_batch :
    sampleWatch.2.received =
      ((sampleWatch.1.eventsOf ⟨"log"⟩).drop 1).take sampleWatch.2.received.length ∧
    sampleWatch.2.received.map (·.sequence) = [2, 3] :=
  ⟨(cursor_replay sampleLog ⟨"log"⟩ 0 (.fromNew ⟨"log"⟩ 1 (sampleEvent 1)) (by decide)
    samplePolls).2.1, by decide⟩

end Verlet.History.InMemory
