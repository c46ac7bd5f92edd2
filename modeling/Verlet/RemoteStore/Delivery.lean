import Mathlib.Data.List.Sort
import Verlet.Support.Runs
import Verlet.RemoteStore.Queue

/-!
# Remote store — Delivery through the ingress queue

The queue between a daemon that enqueues and children that read, acknowledge and go on from a
position they persisted, in any order and with restarts on both sides.  A child may persist a
position once it has acknowledged what the page it read holds up to there, so everything before a
persisted position is acknowledged, and a new row always sorts after it.

* `Sound.step`: the table stays numbered and keyed, one row for each dispatch of a target.
* `Covered.step`: nothing unacknowledged lies at or before a persisted position.
-/

namespace Verlet.RemoteStore
open Support History

variable {Text : Type}

/-! ### Children and their queue -/

/-- Where a child may go on from: a sequence for `tail_pending`, a cursor for `pull_after`. -/
inductive Mark where
  | position (sequence : EventSequence)
  | cursor (cursor : StreamCursorV1)
deriving DecidableEq

def Mark.sequence : Mark → EventSequence
  | .position sequence => sequence
  | .cursor c          => c.sequence

/-- A mark that a child has read up to, and what it has yet to acknowledge before it persists it. -/
structure Held where
  target : ThreadId
  mark : Mark
  unacknowledged : List DispatchId
deriving DecidableEq

/-- The table, the marks that children hold in memory, and those they have persisted. -/
structure QueueWorld (Text : Type) where
  queue : Queue Text
  held : List Held
  persisted : List (ThreadId × Mark)

def QueueWorld.empty : QueueWorld Text := ⟨[], [], []⟩

inductive QueueStep where
  | enqueue (eventId : EventRecordId) (entry : RemoteIngressQueueEntryV1)
  | acknowledge (nowMs : Int) (target : ThreadId) (dispatchId : DispatchId)
  | tail (target : ThreadId) (after : Option EventSequence)
  | pull (target : ThreadId) (cursor : Option StreamCursorV1)
  /-- A child persists the `index`th mark held. -/
  | persist (index : Nat)
  /-- A child loses what it holds in memory; the table stays. -/
  | restart (target : ThreadId)
deriving DecidableEq

/-- `serde_json` at the queue: the daemon's columns, and the payload that a child reads. -/
structure DeliveryCodec (Text : Type) extends QueueCodec Text where
  readEntry : Json → Option RemoteIngressQueueEntryV1

def cursorOfRecord (record : StreamRecordEnvelopeV1) : StreamCursorV1 :=
  ⟨streamCursorSchemaIdV1, record.streamId, record.sequence, record.eventId⟩

/-- The marks that pulled records give: that of each, with the entries up to it to acknowledge.  The
child stops at a record that it cannot read. -/
def heldOfRecords (codec : DeliveryCodec Text) (target : ThreadId) :
    List DispatchId → List StreamRecordEnvelopeV1 → List Held
  | _,       []                => []
  | earlier, record :: records =>
    match codec.readEntry record.payload with
    | none => []
    | some entry =>
      ⟨target, .cursor (cursorOfRecord record), earlier ++ [entry.dispatchId]⟩ ::
        heldOfRecords codec target (earlier ++ [entry.dispatchId]) records

/-- The mark that a page gives, with its entries to acknowledge. -/
def heldOfPage (target : ThreadId) (page : RemoteIngressQueuePage) : List Held :=
  match page.next with
  | none          => []
  | some sequence => [⟨target, .position sequence, page.entries.map (·.dispatchId)⟩]

/-- The held mark, once an entry is acknowledged. -/
def Held.acknowledged (target : ThreadId) (dispatchId : DispatchId) (held : Held) : Held :=
  if held.target = target then
    { held with unacknowledged := held.unacknowledged.filter (· ≠ dispatchId) }
  else held

/-- One step; what an enqueue answers, and the world it leaves. -/
def QueueWorld.step (codec : DeliveryCodec Text) (step : QueueStep) (w : QueueWorld Text) :
    Option (VerletResult RemoteEnqueueReceipt) × QueueWorld Text :=
  match step with
  | .enqueue eventId entry =>
    let served := exec (enqueue codec.toQueueCodec eventId entry) w.queue
    (some served.1, { w with queue := served.2 })
  | .acknowledge nowMs target dispatchId =>
    (none, { w with
      queue := (exec (acknowledge nowMs target dispatchId) w.queue).2
      held := w.held.map (·.acknowledged target dispatchId) })
  | .tail target after =>
    match tailPending codec.toQueueCodec w.queue target after with
    | .ok page => (none, { w with held := w.held ++ heldOfPage target page })
    | .error _ => (none, w)
  | .pull target cursor =>
    match queuePullAfter codec.toQueueCodec w.queue (remoteIngressQueueStreamId target) cursor with
    | .ok records => (none, { w with held := w.held ++ heldOfRecords codec target [] records })
    | .error _ => (none, w)
  | .persist index =>
    match w.held[index]? with
    | some held => (none, { w with persisted := w.persisted ++ [(held.target, held.mark)] })
    | none => (none, w)
  | .restart target => (none, { w with held := w.held.filter (·.target ≠ target) })

/-- A position to read a target's entries after: the start, or one that was persisted. -/
def Starts (w : QueueWorld Text) (target : ThreadId) (after : Option EventSequence) : Prop :=
  ∀ sequence, after = some sequence → ∃ mark, (target, mark) ∈ w.persisted ∧ mark.sequence = sequence

/-- A cursor to read a target's entries after: none, or one that was persisted. -/
def StartsAt (w : QueueWorld Text) (target : ThreadId) (cursor : Option StreamCursorV1) : Prop :=
  ∀ c, cursor = some c → (target, Mark.cursor c) ∈ w.persisted

/-- What the children keep to: they read from the start or from a mark they persisted, and persist a
mark once the entries up to it are acknowledged. -/
def Follows (w : QueueWorld Text) (step : QueueStep) : Prop :=
  match step with
  | .tail target after => Starts w target after
  | .pull target cursor => StartsAt w target cursor
  | .persist index => ∀ held, w.held[index]? = some held → held.unacknowledged = []
  | _ => True

/-! ### The table -/

/-- The first `n` sequences. -/
def firstSequences (n : Nat) : List EventSequence := (List.range n).map fun i : Nat => (i : Int) + 1

theorem mem_firstSequences {n : Nat} {sequence : Int} :
    sequence ∈ firstSequences n ↔ 1 ≤ sequence ∧ sequence ≤ n := by
  simp only [firstSequences, List.mem_map, List.mem_range]
  constructor
  · rintro ⟨i, hi, rfl⟩
    omega
  · rintro ⟨h₁, h₂⟩
    exact ⟨(sequence - 1).toNat, by omega, by omega⟩

theorem firstSequences_succ (n : Nat) :
    firstSequences (n + 1) = firstSequences n ++ [(n : Int) + 1] := by
  simp [firstSequences, List.range_succ]

theorem sorted_firstSequences (n : Nat) : (firstSequences n).Pairwise (· < ·) := by
  refine List.pairwise_map.mpr (List.Pairwise.imp ?_ List.pairwise_lt_range)
  intro i j hij
  have hle : (i : Int) < j := by omega
  exact Int.add_lt_add_right hle 1

/-- The row holds the entry, which reads back. -/
structure Writes (codec : DeliveryCodec Text) (row : QueueRow Text)
    (entry : RemoteIngressQueueEntryV1) : Prop where
  json : row.entryJson = codec.encodeEntry entry
  target : entry.targetThreadId = row.targetThreadId
  dispatch : entry.dispatchId = row.dispatchId
  valid : validateEntry entry = .ok ()
  reads : codec.decodeEntry (codec.encodeEntry entry) = some entry
  readsValue : codec.readEntry (codec.entryValue entry) = some entry

/-- The rows of a target, in rowid order. -/
def partition (queue : Queue Text) (target : ThreadId) : Queue Text :=
  queue.filter fun row => row.targetThreadId = target

/-- What identifies a row to the daemon and the children. -/
def QueueRow.key (row : QueueRow Text) : ThreadId × DispatchId := (row.targetThreadId, row.dispatchId)

/-- Each target's rows are numbered from 1, no two rows have one target and dispatch, and every row
holds its entry. -/
structure QueueSound (codec : DeliveryCodec Text) (queue : Queue Text) : Prop where
  numbered : ∀ target, ∃ n, (partition queue target).map (·.sequence) = firstSequences n
  keyed : (queue.map QueueRow.key).Nodup
  written : ∀ row ∈ queue, ∃ entry, Writes codec row entry

variable {codec : DeliveryCodec Text} {queue : Queue Text}

theorem queueSound_empty : QueueSound codec ([] : Queue Text) :=
  ⟨fun _ => ⟨0, rfl⟩, .nil, by simp⟩

variable {target : ThreadId} {row : QueueRow Text}

theorem mem_partition :
    row ∈ partition queue target ↔ row ∈ queue ∧ row.targetThreadId = target := by
  simp [partition]

theorem partition_append (queue later : Queue Text) (target : ThreadId) :
    partition (queue ++ later) target = partition queue target ++ partition later target :=
  List.filter_append ..

theorem nextQueueSequence_eq {n : Nat}
    (h : (partition queue target).map (·.sequence) = firstSequences n) :
    nextQueueSequence queue target = (n : Int) + 1 := by
  have hmax : (firstSequences n).max?.getD 0 = (n : Int) := by
    cases n with
    | zero => rfl
    | succ n =>
      have hlast : (firstSequences (n + 1)).max? = some ((n : Int) + 1) := by
        rw [List.max?_eq_some_iff]
        refine ⟨mem_firstSequences.mpr ⟨?_, ?_⟩, fun sequence hs => ?_⟩
        · omega
        · push_cast
          omega
        · have hle : (sequence : Int) ≤ _ := (mem_firstSequences.mp hs).2
          push_cast at hle
          exact hle
      rw [hlast]
      simp
  change (((partition queue target).map (·.sequence)).max?).getD 0 + 1 = _
  rw [h, hmax]

theorem QueueSound.row_eq (h : QueueSound codec queue) {row' : QueueRow Text} (hrow : row ∈ queue)
    (hrow' : row' ∈ queue) (hkey : row.key = row'.key) : row = row' :=
  List.inj_on_of_nodup_map h.keyed hrow hrow' hkey

theorem QueueSound.sorted (h : QueueSound codec queue) (target : ThreadId) :
    (partition queue target).Pairwise fun row row' => row.sequence < row'.sequence := by
  obtain ⟨n, hn⟩ := h.numbered target
  rw [← List.pairwise_map (f := fun row : QueueRow Text => row.sequence)
    (R := fun a b : EventSequence => a < b), hn]
  exact sorted_firstSequences n

theorem QueueSound.row_eq_of_sequence (h : QueueSound codec queue) {row' : QueueRow Text}
    (hrow : row ∈ queue) (hrow' : row' ∈ queue) (htarget : row.targetThreadId = row'.targetThreadId)
    (hsequence : row.sequence = row'.sequence) : row = row' := by
  obtain ⟨n, hn⟩ := h.numbered row'.targetThreadId
  have hnodup : ((partition queue row'.targetThreadId).map (·.sequence)).Nodup := by
    rw [hn]
    exact (sorted_firstSequences n).imp fun hlt => ne_of_lt hlt
  exact List.inj_on_of_nodup_map hnodup (mem_partition.mpr ⟨hrow, htarget⟩)
    (mem_partition.mpr ⟨hrow', rfl⟩) hsequence

/-! ### Reading -/

/-- The rows of a target after a position that wait to be acknowledged. -/
def pending (queue : Queue Text) (target : ThreadId) (after : Option EventSequence) : Queue Text :=
  queue.filter fun row => row.targetThreadId = target ∧ after.getD 0 < row.sequence ∧
    row.acknowledgedAtMs.isNone

variable {after : Option EventSequence}

theorem mem_pending :
    row ∈ pending queue target after ↔ row ∈ queue ∧ row.targetThreadId = target ∧
      after.getD 0 < row.sequence ∧ row.acknowledgedAtMs = none := by
  simp [pending, List.mem_filter]

theorem QueueSound.pending_sorted (h : QueueSound codec queue) (target : ThreadId)
    (after : Option EventSequence) :
    (pending queue target after).Pairwise fun row row' => row.sequence < row'.sequence := by
  have hpending : pending queue target after = (partition queue target).filter fun row =>
      after.getD 0 < row.sequence ∧ row.acknowledgedAtMs.isNone := by
    rw [pending, partition, List.filter_filter]
    refine List.filter_congr fun row _ => ?_
    simp [Bool.and_comm]
  rw [hpending]
  exact (h.sorted target).filter _

/-- A row as a reader gets it. -/
structure Shown (codec : DeliveryCodec Text) (row : QueueRow Text) (stored : StoredQueueRow) : Prop where
  sequence : stored.sequence = row.sequence
  eventId : stored.eventId = row.eventId
  writes : Writes codec row stored.entry

variable {entry : RemoteIngressQueueEntryV1}

theorem storedRow_ok (h : Writes codec row entry) :
    storedRow codec.toQueueCodec row.targetThreadId row = .ok ⟨row.sequence, row.eventId, entry⟩ := by
  have hdecode : decodeEntry codec.toQueueCodec row.entryJson = .ok entry := by
    rw [decodeEntry, h.json, h.reads]
    exact bind_ok.mpr ⟨(), h.valid, rfl⟩
  exact bind_ok.mpr ⟨entry, hdecode, bind_ok.mpr ⟨(), require_ok.mpr h.target, rfl⟩⟩

/-- **A reader gets the pending rows, in order.** -/
theorem QueueSound.pendingRows (h : QueueSound codec queue) (target : ThreadId)
    (after : Option EventSequence) :
    ∃ stored, pendingRows codec.toQueueCodec queue target after = .ok stored ∧
      List.Forall₂ (Shown codec) (pending queue target after) stored := by
  have hread : ∀ rows : Queue Text, (∀ row ∈ rows, row ∈ queue ∧ row.targetThreadId = target) →
      ∃ stored, rows.mapM (storedRow codec.toQueueCodec target) = .ok stored ∧
        List.Forall₂ (Shown codec) rows stored := by
    intro rows
    induction rows with
    | nil => exact fun _ => ⟨[], rfl, .nil⟩
    | cons row rows ih =>
      intro hrows
      obtain ⟨stored, hstored, hshown⟩ := ih fun r hr => hrows r (.tail _ hr)
      obtain ⟨hrow, rfl⟩ := hrows row List.mem_cons_self
      obtain ⟨entry, hwrites⟩ := h.written row hrow
      refine ⟨⟨row.sequence, row.eventId, entry⟩ :: stored, ?_, .cons ⟨rfl, rfl, hwrites⟩ hshown⟩
      rw [List.mapM_cons, storedRow_ok hwrites, hstored]
      rfl
  obtain ⟨stored, hstored, hshown⟩ := hread (pending queue target after) fun row hrow =>
    ⟨(mem_pending.mp hrow).1, (mem_pending.mp hrow).2.1⟩
  refine ⟨stored, ?_, hshown⟩
  change ((pending queue target after).insertionSort _).mapM _ = _
  rw [List.Pairwise.insertionSort_eq ((h.pending_sorted target after).imp fun hlt => le_of_lt hlt)]
  exact hstored

variable {rows : Queue Text} {stored : List StoredQueueRow}

theorem shown_of_mem (h : List.Forall₂ (Shown codec) rows stored) {s : StoredQueueRow}
    (hs : s ∈ stored) : ∃ row ∈ rows, Shown codec row s := by
  induction h with
  | nil => cases hs
  | cons hshown _ ih =>
    rcases List.mem_cons.mp hs with rfl | hs
    · exact ⟨_, List.mem_cons_self, hshown⟩
    · obtain ⟨row, hrow, hshown'⟩ := ih hs
      exact ⟨row, .tail _ hrow, hshown'⟩

theorem mem_of_shown (h : List.Forall₂ (Shown codec) rows stored) (hrow : row ∈ rows) :
    ∃ s ∈ stored, Shown codec row s := by
  induction h with
  | nil => cases hrow
  | cons hshown _ ih =>
    rcases List.mem_cons.mp hrow with rfl | hrow
    · exact ⟨_, List.mem_cons_self, hshown⟩
    · obtain ⟨s, hs, hshown'⟩ := ih hrow
      exact ⟨s, .tail _ hs, hshown'⟩

/-! ### Writing -/

def QueueRow.acknowledged (nowMs : Int) (target : ThreadId) (dispatchId : DispatchId)
    (row : QueueRow Text) : QueueRow Text :=
  if row.targetThreadId = target ∧ row.dispatchId = dispatchId then
    { row with acknowledgedAtMs := some (row.acknowledgedAtMs.getD nowMs) }
  else row

theorem acknowledged_same (nowMs : Int) (target : ThreadId) (dispatchId : DispatchId)
    (row : QueueRow Text) :
    ∃ at', row.acknowledged nowMs target dispatchId = { row with acknowledgedAtMs := at' } ∧
      (at' = none ↔ row.acknowledgedAtMs = none ∧ row.key ≠ (target, dispatchId)) := by
  unfold QueueRow.acknowledged QueueRow.key
  by_cases h : row.targetThreadId = target ∧ row.dispatchId = dispatchId
  · rw [if_pos h]
    exact ⟨_, rfl, by simp [h]⟩
  · rw [if_neg h]
    refine ⟨row.acknowledgedAtMs, rfl, ?_⟩
    simp only [ne_eq, Prod.mk.injEq, h, not_false_eq_true, and_true]

theorem enqueue_cases (h : QueueSound codec queue) (eventId : EventRecordId)
    (entry : RemoteIngressQueueEntryV1) :
    (∃ error, exec (enqueue codec.toQueueCodec eventId entry) queue = (.error error, queue)) ∨
    (exec (enqueue codec.toQueueCodec eventId entry) queue =
        (.ok ⟨entry, .foldedToExisting⟩, queue) ∧ ∃ row ∈ queue, Writes codec row entry) ∨
    (validateEntry entry = .ok () ∧ (∀ row ∈ queue, row.key ≠ (entry.targetThreadId, entry.dispatchId)) ∧
      exec (enqueue codec.toQueueCodec eventId entry) queue =
        (.ok ⟨entry, .enqueued⟩, queue ++ [⟨entry.targetThreadId,
          nextQueueSequence queue entry.targetThreadId, eventId, entry.dispatchId,
          codec.encodeEntry entry, none⟩])) := by
  rcases hx : exec (enqueue codec.toQueueCodec eventId entry) queue with ⟨e | receipt, queue'⟩
  · obtain rfl := atomic_transaction _ queue e queue' hx
    exact .inl ⟨e, rfl⟩
  · right
    have hok := transaction_ok.mp hx
    simp only [query_bind_ok, exists_unit_ok] at hok
    obtain ⟨hvalid, found, hfound, hok⟩ := hok
    cases hfind : queue.find? fun row =>
        row.targetThreadId = entry.targetThreadId ∧ row.dispatchId = entry.dispatchId with
    | some row =>
      rw [hfind] at hfound
      cases hfound
      simp only [query_bind_ok, exists_unit_ok, require_ok, tx_pure_ok] at hok
      obtain ⟨existing, hdecoded, rfl, rfl, rfl⟩ := hok
      have hrow := List.mem_of_find?_eq_some hfind
      obtain ⟨held, hwrites⟩ := h.written row hrow
      have hheld : existing = held := by
        have hdecode : decodeEntry codec.toQueueCodec row.entryJson = .ok held := by
          rw [decodeEntry, hwrites.json, hwrites.reads]
          exact bind_ok.mpr ⟨(), hwrites.valid, rfl⟩
        exact Except.ok.inj (hdecoded.symm.trans hdecode)
      exact .inl ⟨rfl, row, hrow, hheld ▸ hwrites⟩
    | none =>
      rw [hfind] at hfound
      cases hfound
      simp only [insertNewEntry, query_bind_ok, execute_bind_ok, tx_pure_ok] at hok
      obtain ⟨_, ⟨⟩, queue₁, hinsert, rfl, rfl⟩ := hok
      simp only [insertQueueRow, bind_ok, exists_unit_ok, require_ok, pure_ok] at hinsert
      obtain ⟨-, -, -, rfl⟩ := hinsert
      refine .inr ⟨hvalid, fun row hrow hkey => ?_, rfl⟩
      have hnone := List.find?_eq_none.mp hfind row hrow
      simp only [QueueRow.key, Prod.mk.injEq] at hkey
      simp [hkey] at hnone

def newRow (codec : DeliveryCodec Text) (queue : Queue Text) (eventId : EventRecordId)
    (entry : RemoteIngressQueueEntryV1) : QueueRow Text :=
  ⟨entry.targetThreadId, nextQueueSequence queue entry.targetThreadId, eventId, entry.dispatchId,
    codec.encodeEntry entry, none⟩

/-- `serde_json` reads back what it made of the entry. -/
structure ReadsEntry (codec : DeliveryCodec Text) (entry : RemoteIngressQueueEntryV1) : Prop where
  column : codec.decodeEntry (codec.encodeEntry entry) = some entry
  payload : codec.readEntry (codec.entryValue entry) = some entry

theorem QueueSound.enqueued (h : QueueSound codec queue) {eventId : EventRecordId}
    (hreads : ReadsEntry codec entry) (hvalid : validateEntry entry = .ok ())
    (hnew : ∀ row ∈ queue, row.key ≠ (entry.targetThreadId, entry.dispatchId)) :
    QueueSound codec (queue ++ [newRow codec queue eventId entry]) where
  numbered target := by
    obtain ⟨n, hn⟩ := h.numbered target
    by_cases htarget : entry.targetThreadId = target
    · refine ⟨n + 1, ?_⟩
      have hone : partition [newRow codec queue eventId entry] target =
          [newRow codec queue eventId entry] := by simp [partition, newRow, htarget]
      have hsequence : (newRow codec queue eventId entry).sequence = (n : Int) + 1 := by
        rw [newRow, htarget]
        exact nextQueueSequence_eq hn
      rw [partition_append, List.map_append, hone, List.map_singleton, hn, hsequence,
        firstSequences_succ]
    · refine ⟨n, ?_⟩
      have hnone : partition [newRow codec queue eventId entry] target = [] := by
        simp [partition, newRow, htarget]
      rw [partition_append, hnone, List.append_nil, hn]
  keyed := by
    rw [List.map_append, List.map_singleton, List.nodup_append]
    refine ⟨h.keyed, List.nodup_singleton _, fun key hkey key' hkey' => ?_⟩
    obtain ⟨row, hrow, rfl⟩ := List.mem_map.mp hkey
    obtain rfl := List.mem_singleton.mp hkey'
    exact hnew row hrow
  written row hrow := by
    rcases List.mem_append.mp hrow with hold | hadded
    · exact h.written row hold
    · obtain rfl := List.mem_singleton.mp hadded
      exact ⟨entry, rfl, rfl, rfl, hvalid, hreads.column, hreads.payload⟩

theorem QueueSound.acknowledge (h : QueueSound codec queue) (nowMs : Int) (target : ThreadId)
    (dispatchId : DispatchId) :
    QueueSound codec (queue.map (·.acknowledged nowMs target dispatchId)) := by
  have hsame : ∀ row : QueueRow Text, ∃ at',
      row.acknowledged nowMs target dispatchId = { row with acknowledgedAtMs := at' } := fun row =>
    (acknowledged_same nowMs target dispatchId row).imp fun _ h => h.1
  refine ⟨fun target' => ?_, ?_, fun row hrow => ?_⟩
  · obtain ⟨n, hn⟩ := h.numbered target'
    refine ⟨n, ?_⟩
    rw [← hn, partition, List.filter_map, List.map_map]
    have hfilter : queue.filter ((fun row : QueueRow Text => decide (row.targetThreadId = target')) ∘
        (·.acknowledged nowMs target dispatchId)) = partition queue target' := by
      refine List.filter_congr fun row _ => ?_
      obtain ⟨at', heq⟩ := hsame row
      simp only [Function.comp_apply, heq]
    rw [hfilter]
    refine List.map_congr_left fun row _ => ?_
    obtain ⟨at', heq⟩ := hsame row
    simp only [Function.comp_apply, heq]
  · have hkeys : (queue.map (·.acknowledged nowMs target dispatchId)).map QueueRow.key =
        queue.map QueueRow.key := by
      rw [List.map_map]
      refine List.map_congr_left fun row _ => ?_
      obtain ⟨at', heq⟩ := hsame row
      simp only [Function.comp_apply, heq, QueueRow.key]
    rw [hkeys]
    exact h.keyed
  · obtain ⟨old, hold, rfl⟩ := List.mem_map.mp hrow
    obtain ⟨at', heq⟩ := hsame old
    obtain ⟨entry, hwrites⟩ := h.written old hold
    rw [heq]
    exact ⟨entry, hwrites.json, hwrites.target, hwrites.dispatch, hwrites.valid, hwrites.reads,
      hwrites.readsValue⟩

/-! ### Marks -/

/-- A mark of a target is at one of its rows, and what lies before it is acknowledged or left to. -/
structure Reached (queue : Queue Text) (target : ThreadId) (mark : Mark)
    (left : List DispatchId) : Prop where
  row : ∃ row ∈ queue, row.targetThreadId = target ∧ row.sequence = mark.sequence ∧
    ∀ c, mark = .cursor c →
      c = ⟨streamCursorSchemaIdV1, remoteIngressQueueStreamId target, row.sequence, row.eventId⟩
  before : ∀ row ∈ queue, row.targetThreadId = target → row.sequence ≤ mark.sequence →
    row.acknowledgedAtMs = none → row.dispatchId ∈ left

theorem Reached.enqueued (hs : QueueSound codec queue) {mark : Mark} {left : List DispatchId}
    (h : Reached queue target mark left) (eventId : EventRecordId)
    (entry : RemoteIngressQueueEntryV1) :
    Reached (queue ++ [newRow codec queue eventId entry]) target mark left := by
  obtain ⟨row, hrow, htarget, hsequence, hcursor⟩ := h.row
  refine ⟨⟨row, List.mem_append_left _ hrow, htarget, hsequence, hcursor⟩, ?_⟩
  intro row' hrow' htarget' hle hnone
  rcases List.mem_append.mp hrow' with hold | hadded
  · exact h.before row' hold htarget' hle hnone
  · obtain rfl := List.mem_singleton.mp hadded
    -- the mark's row is one of the first `n`, and the new one comes next
    obtain ⟨n, hn⟩ := hs.numbered target
    have hmem : row.sequence ∈ firstSequences n := by
      rw [← hn]
      exact List.mem_map.mpr ⟨row, mem_partition.mpr ⟨hrow, htarget⟩, rfl⟩
    have hlast : (mark.sequence : Int) ≤ n := by
      rw [← hsequence]
      exact (mem_firstSequences.mp hmem).2
    have hnext : (newRow codec queue eventId entry).sequence = (n : Int) + 1 := by
      change nextQueueSequence queue entry.targetThreadId = _
      rw [show entry.targetThreadId = target from htarget']
      exact nextQueueSequence_eq hn
    rw [hnext] at hle
    exact absurd (Int.le_trans hle hlast) (by omega)

theorem Reached.acknowledged {mark : Mark} {left left' : List DispatchId}
    (h : Reached queue target mark left) (nowMs : Int) (target' : ThreadId)
    (dispatchId : DispatchId)
    (hleft : ∀ id ∈ left, (target, id) ≠ (target', dispatchId) → id ∈ left') :
    Reached (queue.map (·.acknowledged nowMs target' dispatchId)) target mark left' := by
  refine ⟨?_, ?_⟩
  · obtain ⟨row, hrow, htarget, hsequence, hcursor⟩ := h.row
    obtain ⟨at', heq, -⟩ := acknowledged_same nowMs target' dispatchId row
    refine ⟨_, List.mem_map.mpr ⟨row, hrow, rfl⟩, ?_⟩
    rw [heq]
    exact ⟨htarget, hsequence, hcursor⟩
  · intro row' hrow' htarget hle hnone
    obtain ⟨row, hrow, rfl⟩ := List.mem_map.mp hrow'
    obtain ⟨at', heq, hat⟩ := acknowledged_same nowMs target' dispatchId row
    rw [heq] at htarget hle hnone ⊢
    obtain ⟨hwaits, hkey⟩ := hat.mp hnone
    refine hleft _ (h.before row hrow htarget hle hwaits) ?_
    rw [← htarget]
    exact hkey

/-- No unacknowledged row lies before a persisted mark, and one before a held mark is left to
acknowledge there. -/
structure Covered (w : QueueWorld Text) : Prop where
  held : ∀ held ∈ w.held, Reached w.queue held.target held.mark held.unacknowledged
  persisted : ∀ target mark, (target, mark) ∈ w.persisted → Reached w.queue target mark []

variable {w : QueueWorld Text}

/-- **Everything that waits is read**, from the start and from every persisted mark. -/
theorem Covered.pending (h : Covered w) (hs : QueueSound codec w.queue)
    (hafter : Starts w target after) (hrow : row ∈ w.queue) (htarget : row.targetThreadId = target)
    (hwaits : row.acknowledgedAtMs = none) : row ∈ pending w.queue target after := by
  refine mem_pending.mpr ⟨hrow, htarget, ?_, hwaits⟩
  cases after with
  | none =>
    obtain ⟨n, hn⟩ := hs.numbered target
    have hmem : row.sequence ∈ firstSequences n := by
      rw [← hn]
      exact List.mem_map.mpr ⟨row, mem_partition.mpr ⟨hrow, htarget⟩, rfl⟩
    exact (mem_firstSequences.mp hmem).1
  | some sequence =>
    obtain ⟨mark, hmark, rfl⟩ := hafter sequence rfl
    by_contra hle
    have hleft := (h.persisted target mark hmark).before row hrow htarget
      (Int.not_lt.mp hle) hwaits
    cases hleft

theorem Covered.page (h : Covered w) (hs : QueueSound codec w.queue)
    (hafter : Starts w target after) {page : RemoteIngressQueuePage}
    (hpage : tailPending codec.toQueueCodec w.queue target after = .ok page) :
    ∀ held ∈ heldOfPage target page, Reached w.queue held.target held.mark held.unacknowledged := by
  obtain ⟨stored, hstored, hshown⟩ := hs.pendingRows target after
  simp only [tailPending, hstored, bind_ok, pure_ok] at hpage
  obtain ⟨_, ⟨⟩, rfl⟩ := hpage
  have hbefore : ∀ row ∈ w.queue, row.targetThreadId = target → row.acknowledgedAtMs = none →
      row.dispatchId ∈ (stored.map (·.entry)).map (·.dispatchId) := by
    intro row hrow htarget hwaits
    obtain ⟨s, hmem, hs'⟩ := mem_of_shown hshown (h.pending hs hafter hrow htarget hwaits)
    rw [← hs'.writes.dispatch]
    exact List.mem_map_of_mem (List.mem_map_of_mem hmem)
  intro held hheld
  unfold heldOfPage at hheld
  cases hlast : stored.getLast? with
  | some last =>
    simp only [hlast, Option.map_some, Option.some_or, List.mem_singleton] at hheld
    subst hheld
    obtain ⟨row, hrow, hs'⟩ := shown_of_mem hshown (List.mem_of_getLast? hlast)
    obtain ⟨hmem, htarget, -, -⟩ := mem_pending.mp hrow
    refine ⟨⟨row, hmem, htarget, hs'.sequence.symm, ?_⟩, fun row' hrow' htarget' _ hwaits =>
      hbefore row' hrow' htarget' hwaits⟩
    rintro _ ⟨⟩
  | none =>
    simp only [hlast, Option.map_none, Option.none_or] at hheld
    cases after with
    | none => cases hheld
    | some sequence =>
      obtain rfl := List.mem_singleton.mp hheld
      obtain ⟨mark, hmark, rfl⟩ := hafter sequence rfl
      obtain ⟨row, hrow, htarget, hsequence, -⟩ := (h.persisted target mark hmark).row
      refine ⟨⟨row, hrow, htarget, hsequence, ?_⟩, fun row' hrow' htarget' _ hwaits =>
        hbefore row' hrow' htarget' hwaits⟩
      rintro _ ⟨⟩

theorem reached_of_records (hshown : List.Forall₂ (Shown codec) rows stored)
    (hsorted : rows.Pairwise fun row row' => row.sequence < row'.sequence)
    (hrows : ∀ row ∈ rows, row ∈ queue ∧ row.targetThreadId = target) {earlier : List DispatchId}
    (hall : ∀ row ∈ queue, row.targetThreadId = target → row.acknowledgedAtMs = none →
      row ∈ rows ∨ row.dispatchId ∈ earlier) :
    ∀ held ∈ heldOfRecords codec target earlier
        (stored.map (StoredQueueRow.intoWire codec.toQueueCodec (remoteIngressQueueStreamId target))),
      Reached queue held.target held.mark held.unacknowledged := by
  induction hshown generalizing earlier with
  | nil => exact fun _ h => by cases h
  | @cons row s rows stored hshown _ ih =>
    obtain ⟨hfirst, hsorted⟩ := List.pairwise_cons.mp hsorted
    obtain ⟨hmem, htarget⟩ := hrows row List.mem_cons_self
    have hread : codec.readEntry (codec.entryValue s.entry) = some s.entry :=
      hshown.writes.readsValue
    have hdispatch := hshown.writes.dispatch
    intro held hheld
    simp only [List.map_cons, heldOfRecords, StoredQueueRow.intoWire, hread,
      List.mem_cons] at hheld
    rcases hheld with rfl | hheld
    · refine ⟨⟨row, hmem, htarget, hshown.sequence.symm, ?_⟩, ?_⟩
      · rintro _ ⟨⟩
        rw [← hshown.sequence, ← hshown.eventId]
        rfl
      · intro row' hrow' htarget' hle hwaits
        refine List.mem_append.mpr ?_
        rcases hall row' hrow' htarget' hwaits with hin | hin
        · rcases List.mem_cons.mp hin with rfl | hlater
          · exact .inr (List.mem_singleton.mpr hdispatch.symm)
          · -- a later record comes after the mark
            have hlt := hfirst row' hlater
            have hmark : row'.sequence ≤ row.sequence := hshown.sequence ▸ hle
            exact absurd hmark (Int.not_le.mpr hlt)
        · exact .inl hin
    · refine ih hsorted (fun r hr => hrows r (.tail _ hr)) (fun row' hrow' htarget' hwaits => ?_)
        held hheld
      rcases hall row' hrow' htarget' hwaits with hin | hin
      · rcases List.mem_cons.mp hin with rfl | hlater
        · exact .inr (List.mem_append_right _ (List.mem_singleton.mpr hdispatch.symm))
        · exact .inl hlater
      · exact .inr (List.mem_append_left _ hin)

theorem remoteIngressQueueTarget_streamId (target : ThreadId) :
    remoteIngressQueueTarget (remoteIngressQueueStreamId target) = some target := by
  have hdrop : (remoteIngressQueueStreamId target).text.toList.dropPrefix?
      syncIngressQueueStreamPrefix.toList = some target.uuid.text.toList := by
    rw [remoteIngressQueueStreamId, String.toList_append, List.dropPrefix?_eq_some_iff]
    exact ⟨_, rfl, by simp⟩
  have hnonempty : target.uuid.text.toList ≠ [] := by
    intro h
    have hparse := Uuid.parse_text target.uuid
    rw [← String.ofList_toList (s := target.uuid.text), h] at hparse
    cases hparse
  simp only [remoteIngressQueueTarget, hdrop, Option.bind_eq_bind, Option.bind_some,
    List.isEmpty_iff, hnonempty, Uuid.colon_notMem_text, or_self, if_false, String.ofList_toList,
    Uuid.parse_text, Option.map_some]

/-- **A pull gives the pending rows**, from the start and from every cursor at a row. -/
theorem QueueSound.pull (h : QueueSound codec queue) {cursor : Option StreamCursorV1}
    (hcursor : ∀ c, cursor = some c →
      ∃ row ∈ queue, row.targetThreadId = target ∧
        c = ⟨streamCursorSchemaIdV1, remoteIngressQueueStreamId target, row.sequence, row.eventId⟩) :
    ∃ stored, List.Forall₂ (Shown codec) (RemoteStore.pending queue target (cursor.map (·.sequence)))
        stored ∧
      queuePullAfter codec.toQueueCodec queue (remoteIngressQueueStreamId target) cursor =
        .ok (stored.map (StoredQueueRow.intoWire codec.toQueueCodec
          (remoteIngressQueueStreamId target))) := by
  obtain ⟨stored, hstored, hshown⟩ := h.pendingRows target (cursor.map (·.sequence))
  have hposition : cursorPosition queue (remoteIngressQueueStreamId target) target cursor =
      .ok (cursor.map (·.sequence)) := by
    cases cursor with
    | none => rfl
    | some c =>
      obtain ⟨row, hrow, htarget, rfl⟩ := hcursor c rfl
      obtain ⟨n, hn⟩ := h.numbered target
      have hmem : row.sequence ∈ firstSequences n := by
        rw [← hn]
        exact List.mem_map.mpr ⟨row, mem_partition.mpr ⟨hrow, htarget⟩, rfl⟩
      have hvalid : StreamCursorV1.validateStreamCursorV1 ⟨streamCursorSchemaIdV1,
          remoteIngressQueueStreamId target, row.sequence, row.eventId⟩ = .ok () :=
        validateStreamCursorV1_ok.mpr ⟨rfl, (mem_firstSequences.mp hmem).1⟩
      have hverified : verifyCursor queue target ⟨streamCursorSchemaIdV1,
          remoteIngressQueueStreamId target, row.sequence, row.eventId⟩ = .ok () := by
        unfold verifyCursor
        cases hfind : queue.find? fun row' =>
            row'.targetThreadId = target ∧ row'.sequence = row.sequence with
        | none =>
          have := List.find?_eq_none.mp hfind row hrow
          simp [htarget] at this
        | some found =>
          have hfound : found = row := by
            have hkey := List.find?_some hfind
            simp only [decide_eq_true_eq] at hkey
            exact h.row_eq_of_sequence (List.mem_of_find?_eq_some hfind) hrow
              (hkey.1.trans htarget.symm) hkey.2
          rw [hfound]
          exact require_ok.mpr rfl
      refine bind_ok.mpr ⟨(), ?_, bind_ok.mpr ⟨(), require_ok.mpr rfl,
        bind_ok.mpr ⟨(), hverified, rfl⟩⟩⟩
      rw [hvalid]
      rfl
  refine ⟨stored, hshown, ?_⟩
  simp only [queuePullAfter, remoteIngressQueueTarget_streamId, hposition, hstored, bind_ok,
    pure_ok, Except.ok.injEq, exists_eq_left']

theorem Covered.cursor (h : Covered w) {c : StreamCursorV1}
    (hc : (target, Mark.cursor c) ∈ w.persisted) :
    ∃ row ∈ w.queue, row.targetThreadId = target ∧
      c = ⟨streamCursorSchemaIdV1, remoteIngressQueueStreamId target, row.sequence, row.eventId⟩ := by
  obtain ⟨row, hrow, htarget, -, hcursor⟩ := (h.persisted target _ hc).row
  exact ⟨row, hrow, htarget, hcursor c rfl⟩

theorem StartsAt.starts {cursor : Option StreamCursorV1} (hcursor : StartsAt w target cursor) :
    Starts w target (cursor.map (·.sequence)) := by
  intro sequence hsequence
  obtain ⟨c, hc, rfl⟩ := Option.map_eq_some_iff.mp hsequence
  exact ⟨_, hcursor c hc, rfl⟩

/-! ### Steps and runs -/

/-- What a step enqueues, `serde_json` reads back. -/
def ReadsStep (codec : DeliveryCodec Text) : QueueStep → Prop
  | .enqueue _ entry => ReadsEntry codec entry
  | _                => True

/-- **A step keeps the table sound and the marks covered.** -/
theorem sound_step (hs : QueueSound codec w.queue) (hc : Covered w) {step : QueueStep}
    (hfollows : Follows w step) (hreads : ReadsStep codec step) :
    QueueSound codec (w.step codec step).2.queue ∧ Covered (w.step codec step).2 := by
  cases step with
  | enqueue eventId entry =>
    rcases enqueue_cases hs eventId entry with ⟨error, heq⟩ | ⟨heq, -⟩ | ⟨hvalid, hnew, heq⟩
    · simp only [QueueWorld.step, heq]
      exact ⟨hs, hc⟩
    · simp only [QueueWorld.step, heq]
      exact ⟨hs, hc⟩
    · simp only [QueueWorld.step, heq]
      exact ⟨hs.enqueued hreads hvalid hnew,
        fun held hheld => (hc.held held hheld).enqueued hs eventId entry,
        fun target mark hmark => (hc.persisted target mark hmark).enqueued hs eventId entry⟩
  | acknowledge nowMs target dispatchId =>
    refine ⟨hs.acknowledge nowMs target dispatchId, ?_, ?_⟩
    · intro held hheld
      obtain ⟨old, hold, rfl⟩ := List.mem_map.mp hheld
      have hreached := hc.held old hold
      unfold Held.acknowledged
      by_cases htarget : old.target = target
      · rw [if_pos htarget]
        refine hreached.acknowledged nowMs target dispatchId fun id hid hne => ?_
        refine List.mem_filter.mpr ⟨hid, decide_eq_true fun hd => hne ?_⟩
        rw [htarget, hd]
      · rw [if_neg htarget]
        exact hreached.acknowledged nowMs target dispatchId fun id hid _ => hid
    · intro target' mark hmark
      exact (hc.persisted target' mark hmark).acknowledged nowMs target dispatchId fun _ hid _ => hid
  | tail target after =>
    simp only [QueueWorld.step]
    cases hpage : tailPending codec.toQueueCodec w.queue target after with
    | error e => exact ⟨hs, hc⟩
    | ok page =>
      refine ⟨hs, fun held hheld => ?_, hc.persisted⟩
      rcases List.mem_append.mp hheld with hold | hnew
      · exact hc.held held hold
      · exact hc.page hs hfollows hpage held hnew
  | pull target cursor =>
    simp only [QueueWorld.step]
    obtain ⟨stored, hshown, hpull⟩ := hs.pull fun c hcursor => hc.cursor (hfollows c hcursor)
    rw [hpull]
    refine ⟨hs, fun held hheld => ?_, hc.persisted⟩
    rcases List.mem_append.mp hheld with hold | hnew
    · exact hc.held held hold
    · refine reached_of_records hshown (hs.pending_sorted _ _) (fun row hrow => ?_)
        (fun row hrow htarget hwaits => .inl ?_) held hnew
      · exact ⟨(mem_pending.mp hrow).1, (mem_pending.mp hrow).2.1⟩
      · exact hc.pending hs (StartsAt.starts hfollows) hrow htarget hwaits
  | persist index =>
    simp only [QueueWorld.step]
    cases hindex : w.held[index]? with
    | none => exact ⟨hs, hc⟩
    | some held =>
      refine ⟨hs, hc.held, fun target mark hmark => ?_⟩
      rcases List.mem_append.mp hmark with hold | hnew
      · exact hc.persisted target mark hold
      · obtain ⟨rfl, rfl⟩ := Prod.mk.inj (List.mem_singleton.mp hnew)
        have hreached := hc.held held (List.mem_of_getElem? hindex)
        rw [hfollows held hindex] at hreached
        exact hreached
  | restart target =>
    exact ⟨hs, fun held hheld => hc.held held (List.mem_filter.mp hheld).1, hc.persisted⟩

theorem sound_run {steps : List QueueStep} (hs : QueueSound codec w.queue) (hc : Covered w)
    (hfollows : Along (QueueWorld.step codec) Follows steps w)
    (hreads : ∀ step ∈ steps, ReadsStep codec step) :
    QueueSound codec (run (QueueWorld.step codec) steps w).queue ∧
      Covered (run (QueueWorld.step codec) steps w) := by
  induction steps generalizing w with
  | nil => exact ⟨hs, hc⟩
  | cons step steps ih =>
    obtain ⟨hs', hc'⟩ := sound_step hs hc hfollows.1 (hreads step List.mem_cons_self)
    exact ih hs' hc' hfollows.2 fun s hm => hreads s (.tail _ hm)

theorem row_step (hs : QueueSound codec w.queue) (hrow : row ∈ w.queue)
    (hwrites : Writes codec row entry) (step : QueueStep) :
    ∃ row' ∈ (w.step codec step).2.queue, Writes codec row' entry ∧
      (row'.acknowledgedAtMs = none ↔ row.acknowledgedAtMs = none ∧
        ∀ nowMs, step ≠ .acknowledge nowMs entry.targetThreadId entry.dispatchId) := by
  have hstays : ∀ step : QueueStep, (∀ nowMs target id, step ≠ .acknowledge nowMs target id) →
      row ∈ (w.step codec step).2.queue → ∃ row' ∈ (w.step codec step).2.queue,
        Writes codec row' entry ∧ (row'.acknowledgedAtMs = none ↔ row.acknowledgedAtMs = none ∧
          ∀ nowMs, step ≠ .acknowledge nowMs entry.targetThreadId entry.dispatchId) := by
    intro step hne hmem
    exact ⟨row, hmem, hwrites, ⟨fun h => ⟨h, fun nowMs => hne nowMs _ _⟩, fun h => h.1⟩⟩
  cases step with
  | enqueue eventId new =>
    refine hstays _ (fun _ _ _ => by simp) ?_
    rcases enqueue_cases hs eventId new with ⟨error, heq⟩ | ⟨heq, -⟩ | ⟨-, -, heq⟩
    · simpa only [QueueWorld.step, heq] using hrow
    · simpa only [QueueWorld.step, heq] using hrow
    · simp only [QueueWorld.step, heq]
      exact List.mem_append_left _ hrow
  | acknowledge nowMs target dispatchId =>
    obtain ⟨at', heq, hat⟩ := acknowledged_same nowMs target dispatchId row
    refine ⟨row.acknowledged nowMs target dispatchId, List.mem_map.mpr ⟨row, hrow, rfl⟩, ?_⟩
    rw [heq]
    refine ⟨⟨hwrites.json, hwrites.target, hwrites.dispatch, hwrites.valid, hwrites.reads,
      hwrites.readsValue⟩, hat.trans (and_congr_right fun _ => ?_)⟩
    rw [QueueRow.key, ← hwrites.target, ← hwrites.dispatch]
    constructor
    · rintro hne now ⟨⟩
      exact hne rfl
    · intro hne heq'
      obtain ⟨rfl, rfl⟩ := Prod.mk.inj heq'
      exact hne nowMs rfl
  | tail target after =>
    refine hstays _ (fun _ _ _ => by simp) ?_
    simp only [QueueWorld.step]
    split <;> exact hrow
  | pull target cursor =>
    refine hstays _ (fun _ _ _ => by simp) ?_
    simp only [QueueWorld.step]
    split <;> exact hrow
  | persist index =>
    refine hstays _ (fun _ _ _ => by simp) ?_
    simp only [QueueWorld.step]
    split <;> exact hrow
  | restart target => exact hstays _ (fun _ _ _ => by simp) hrow

theorem row_run {steps : List QueueStep} (hs : QueueSound codec w.queue) (hc : Covered w)
    (hfollows : Along (QueueWorld.step codec) Follows steps w)
    (hreads : ∀ step ∈ steps, ReadsStep codec step) (hrow : row ∈ w.queue)
    (hwrites : Writes codec row entry) :
    ∃ row' ∈ (run (QueueWorld.step codec) steps w).queue, Writes codec row' entry ∧
      (row'.acknowledgedAtMs = none ↔ row.acknowledgedAtMs = none ∧
        ∀ nowMs, .acknowledge nowMs entry.targetThreadId entry.dispatchId ∉ steps) := by
  induction steps generalizing w row with
  | nil => exact ⟨row, hrow, hwrites, by simp⟩
  | cons step steps ih =>
    obtain ⟨hs', hc'⟩ := sound_step hs hc hfollows.1 (hreads step List.mem_cons_self)
    obtain ⟨row₁, hrow₁, hwrites₁, hwaits₁⟩ := row_step hs hrow hwrites step
    obtain ⟨row₂, hrow₂, hwrites₂, hwaits₂⟩ := ih hs' hc' hfollows.2
      (fun s hm => hreads s (.tail _ hm)) hrow₁ hwrites₁
    refine ⟨row₂, hrow₂, hwrites₂, hwaits₂.trans ?_⟩
    rw [hwaits₁, and_assoc, ← forall_and]
    refine and_congr_right fun _ => forall_congr' fun nowMs => ?_
    rw [List.mem_cons, not_or]
    exact and_congr_left fun _ => ⟨Ne.symm, Ne.symm⟩

/-! ### Delivery -/

/-- The entry is in all that its child reads. -/
structure Tailed (codec : DeliveryCodec Text) (w : QueueWorld Text)
    (entry : RemoteIngressQueueEntryV1) : Prop where
  tail : ∀ after, Starts w entry.targetThreadId after → ∃ page,
    tailPending codec.toQueueCodec w.queue entry.targetThreadId after = .ok page ∧
      entry ∈ page.entries
  pull : ∀ cursor, StartsAt w entry.targetThreadId cursor → ∃ records,
    queuePullAfter codec.toQueueCodec w.queue (remoteIngressQueueStreamId entry.targetThreadId)
      cursor = .ok records ∧ ∃ record ∈ records, codec.readEntry record.payload = some entry

/-- The entry is in nothing that anyone reads. -/
structure Gone (codec : DeliveryCodec Text) (w : QueueWorld Text)
    (entry : RemoteIngressQueueEntryV1) : Prop where
  tail : ∀ target after page, tailPending codec.toQueueCodec w.queue target after = .ok page →
    entry ∉ page.entries
  pull : ∀ streamId cursor records, queuePullAfter codec.toQueueCodec w.queue streamId cursor =
    .ok records → ∀ record ∈ records, codec.readEntry record.payload ≠ some entry

theorem tailed_of_waiting (hs : QueueSound codec w.queue) (hc : Covered w) (hrow : row ∈ w.queue)
    (hwrites : Writes codec row entry) (hwaits : row.acknowledgedAtMs = none) :
    Tailed codec w entry := by
  have hentry : ∀ {stored : List StoredQueueRow} {after : Option EventSequence},
      Starts w entry.targetThreadId after →
      List.Forall₂ (Shown codec) (pending w.queue entry.targetThreadId after) stored →
      ∃ s ∈ stored, s.entry = entry := by
    intro stored after hstarts hshown
    obtain ⟨s, hs', hshow⟩ := mem_of_shown hshown
      (hc.pending hs hstarts hrow hwrites.target.symm hwaits)
    have hsame : codec.encodeEntry s.entry = codec.encodeEntry entry :=
      hshow.writes.json.symm.trans hwrites.json
    refine ⟨s, hs', Option.some.inj ?_⟩
    rw [← hshow.writes.reads, hsame, hwrites.reads]
  constructor
  · intro after hstarts
    obtain ⟨stored, hstored, hshown⟩ := hs.pendingRows entry.targetThreadId after
    obtain ⟨s, hs', rfl⟩ := hentry hstarts hshown
    refine ⟨_, bind_ok.mpr ⟨stored, hstored, rfl⟩, List.mem_map_of_mem hs'⟩
  · intro cursor hstarts
    obtain ⟨stored, hshown, hpull⟩ := hs.pull fun c hcursor => hc.cursor (hstarts c hcursor)
    obtain ⟨s, hs', rfl⟩ := hentry hstarts.starts hshown
    refine ⟨_, hpull, _, List.mem_map_of_mem hs', hwrites.readsValue⟩

theorem gone_of_acknowledged (hs : QueueSound codec w.queue) (hrow : row ∈ w.queue)
    (hwrites : Writes codec row entry) (hacknowledged : row.acknowledgedAtMs ≠ none) :
    Gone codec w entry := by
  have hpending : ∀ {target : ThreadId} {after : Option EventSequence}
      {stored : List StoredQueueRow}, pendingRows codec.toQueueCodec w.queue target after = .ok stored →
      ∀ s ∈ stored, Writes codec row s.entry → False := by
    intro target after stored hstored s hs' hentry
    obtain ⟨stored', hstored', hshown⟩ := hs.pendingRows target after
    obtain rfl := Except.ok.inj (hstored.symm.trans hstored')
    obtain ⟨row', hrow', hshow⟩ := shown_of_mem hshown hs'
    obtain ⟨hmem, -, -, hwaits⟩ := mem_pending.mp hrow'
    have hsame : row' = row := hs.row_eq hmem hrow (by
      rw [QueueRow.key, QueueRow.key, ← hshow.writes.target, ← hshow.writes.dispatch,
        ← hentry.target, ← hentry.dispatch])
    exact hacknowledged (hsame ▸ hwaits)
  constructor
  · intro target after page hpage hmem
    obtain ⟨stored, hstored, hpage⟩ := bind_ok.mp hpage
    cases hpage
    obtain ⟨s, hs', rfl⟩ := List.mem_map.mp hmem
    exact hpending hstored s hs' hwrites
  · intro streamId cursor records hpull record hrecord hread
    unfold queuePullAfter at hpull
    split at hpull
    · cases hpull
    · simp only [bind_ok, pure_ok] at hpull
      obtain ⟨after, -, stored, hstored, rfl⟩ := hpull
      obtain ⟨s, hs', rfl⟩ := List.mem_map.mp hrecord
      obtain ⟨stored', hstored', hshown⟩ := hs.pendingRows _ after
      obtain rfl := Except.ok.inj (hstored.symm.trans hstored')
      obtain ⟨row', -, hshow⟩ := shown_of_mem hshown hs'
      have hsame : s.entry = entry :=
        Option.some.inj (hshow.writes.readsValue.symm.trans hread)
      exact hpending hstored s hs' (hsame ▸ hwrites)

theorem enqueued_row (hs : QueueSound codec w.queue) {eventId : EventRecordId}
    (hreads : ReadsEntry codec entry) {receipt : RemoteEnqueueReceipt}
    (hok : (w.step codec (.enqueue eventId entry)).1 = some (.ok receipt)) :
    ∃ row ∈ (w.step codec (.enqueue eventId entry)).2.queue, Writes codec row entry ∧
      (receipt.disposition = .enqueued → row.acknowledgedAtMs = none) := by
  simp only [QueueWorld.step] at hok ⊢
  rcases enqueue_cases hs eventId entry with ⟨error, heq⟩ | ⟨heq, row, hrow, hwrites⟩ |
    ⟨hvalid, -, heq⟩
  · rw [heq] at hok
    cases hok
  · rw [heq] at hok ⊢
    obtain rfl := Except.ok.inj (Option.some.inj hok)
    refine ⟨row, hrow, hwrites, ?_⟩
    rintro ⟨⟩
  · rw [heq]
    exact ⟨_, List.mem_append_right _ (List.mem_singleton_self _),
      ⟨rfl, rfl, rfl, hvalid, hreads.column, hreads.payload⟩, fun _ => rfl⟩

/-- **A retry folds.** -/
theorem enqueue_folds (hs : QueueSound codec queue) (hrow : row ∈ queue)
    (hwrites : Writes codec row entry) (eventId : EventRecordId) :
    exec (enqueue codec.toQueueCodec eventId entry) queue =
      (.ok ⟨entry, .foldedToExisting⟩, queue) := by
  have hkey : row.key = (entry.targetThreadId, entry.dispatchId) := by
    rw [QueueRow.key, hwrites.target, hwrites.dispatch]
  have hfind : queue.find? (fun row => row.targetThreadId = entry.targetThreadId ∧
      row.dispatchId = entry.dispatchId) = some row := by
    cases hfound : queue.find? fun row => row.targetThreadId = entry.targetThreadId ∧
        row.dispatchId = entry.dispatchId with
    | none =>
      have hne := List.find?_eq_none.mp hfound row hrow
      simp [hwrites.target, hwrites.dispatch] at hne
    | some found =>
      have hat := List.find?_some hfound
      simp only [decide_eq_true_eq] at hat
      have hsame : found.key = row.key := by
        rw [hkey, QueueRow.key, hat.1, hat.2]
      rw [hs.row_eq (List.mem_of_find?_eq_some hfound) hrow hsame]
  have hdecode : decodeEntry codec.toQueueCodec row.entryJson = .ok entry := by
    rw [decodeEntry, hwrites.json, hwrites.reads]
    exact bind_ok.mpr ⟨(), hwrites.valid, rfl⟩
  refine transaction_ok.mpr ?_
  simp only [query_bind_ok, hwrites.valid, hfind, Except.ok.injEq, exists_eq_left']
  exact ⟨(), trivial, entry, hdecode, (), require_ok.mpr rfl, rfl⟩

/-- **Another entry for the dispatch is refused.** -/
theorem enqueue_refuses (hs : QueueSound codec queue) (hrow : row ∈ queue)
    {other : RemoteIngressQueueEntryV1} (hwrites : Writes codec row entry)
    (htarget : other.targetThreadId = entry.targetThreadId)
    (hdispatch : other.dispatchId = entry.dispatchId) (hne : other ≠ entry)
    (eventId : EventRecordId) :
    ∃ error, exec (enqueue codec.toQueueCodec eventId other) queue = (.error error, queue) := by
  have hkey : row.key = (other.targetThreadId, other.dispatchId) := by
    rw [QueueRow.key, htarget, hdispatch, hwrites.target, hwrites.dispatch]
  rcases enqueue_cases hs eventId other with hfails | ⟨-, row', hrow', hwrites'⟩ | ⟨-, hnew, -⟩
  · exact hfails
  · -- the row of the dispatch reads back as one entry only
    have hsame : row' = row := hs.row_eq hrow' hrow (by
      rw [hkey, QueueRow.key, hwrites'.target, hwrites'.dispatch])
    have hjson : codec.encodeEntry other = codec.encodeEntry entry :=
      hwrites'.json.symm.trans (hsame ▸ hwrites.json)
    refine absurd (Option.some.inj ?_) hne
    rw [← hwrites'.reads, hjson, hwrites.reads]
  · exact absurd hkey (hnew row hrow)

/-- **The queue delivers every dispatch once.**  In every run in which the children keep to their
protocol, each target's rows are numbered from 1 with one row for each dispatch; once an entry is
accepted it has a row, its retries fold and any other entry for its dispatch is refused with the
table unchanged; and from when it is enqueued it is in all that its child reads, from the start or
from any mark it persisted, until it is acknowledged, and from then on in nothing that is read. -/
theorem queue_delivers_once (codec : DeliveryCodec Text) (steps : List QueueStep)
    (w : QueueWorld Text) (hw : w = run (QueueWorld.step codec) steps .empty)
    (hfollows : Along (QueueWorld.step codec) Follows steps .empty)
    (hreads : ∀ step ∈ steps, ReadsStep codec step) :
    (w.queue.map QueueRow.key).Nodup ∧
    (∀ target, ∃ n, (partition w.queue target).map (·.sequence) = firstSequences n) ∧
    ∀ before eventId entry disposition later,
      steps = before ++ .enqueue eventId entry :: later →
      ((run (QueueWorld.step codec) before .empty).step codec (.enqueue eventId entry)).1 =
        some (.ok ⟨entry, disposition⟩) →
      (∃ row ∈ w.queue, row.key = (entry.targetThreadId, entry.dispatchId) ∧
        row.entryJson = codec.encodeEntry entry) ∧
      (∀ eventId', exec (enqueue codec.toQueueCodec eventId' entry) w.queue =
        (.ok ⟨entry, .foldedToExisting⟩, w.queue)) ∧
      (∀ eventId' other, other.targetThreadId = entry.targetThreadId →
        other.dispatchId = entry.dispatchId → other ≠ entry →
        ∃ error, exec (enqueue codec.toQueueCodec eventId' other) w.queue = (.error error, w.queue)) ∧
      (disposition = .enqueued →
        ((∀ nowMs, .acknowledge nowMs entry.targetThreadId entry.dispatchId ∉ later) →
          Tailed codec w entry) ∧
        ((∃ nowMs, .acknowledge nowMs entry.targetThreadId entry.dispatchId ∈ later) →
          Gone codec w entry)) := by
  have hempty : Covered (.empty : QueueWorld Text) :=
    ⟨fun _ h => (List.not_mem_nil h).elim, fun _ _ h => (List.not_mem_nil h).elim⟩
  obtain ⟨hsound, hcovered⟩ := sound_run queueSound_empty hempty hfollows hreads
  rw [← hw] at hsound hcovered
  refine ⟨hsound.keyed, hsound.numbered, ?_⟩
  intro before eventId entry disposition later hsteps hok
  subst hsteps
  -- the state at the enqueue, the one after it, and the rest of the run
  obtain ⟨hbefore, hat, hafter⟩ := along_append.mp hfollows
  have hreadsBefore : ∀ step ∈ before, ReadsStep codec step :=
    fun step hm => hreads step (List.mem_append_left _ hm)
  have hreadsEntry : ReadsEntry codec entry :=
    hreads (.enqueue eventId entry) (List.mem_append_right _ List.mem_cons_self)
  have hreadsLater : ∀ step ∈ later, ReadsStep codec step :=
    fun step hm => hreads step (List.mem_append_right _ (.tail _ hm))
  obtain ⟨hs₁, hc₁⟩ := sound_run queueSound_empty hempty hbefore hreadsBefore
  obtain ⟨row₁, hrow₁, hwrites₁, hnew₁⟩ := enqueued_row hs₁ hreadsEntry hok
  obtain ⟨hs₂, hc₂⟩ := sound_step hs₁ hc₁ hat hreadsEntry
  obtain ⟨row, hrow, hwrites, hwaits⟩ := row_run hs₂ hc₂ hafter hreadsLater hrow₁ hwrites₁
  rw [run_append] at hw
  change row ∈ (run (QueueWorld.step codec) (.enqueue eventId entry :: later) _).queue at hrow
  rw [← hw] at hrow
  refine ⟨⟨row, hrow, ?_, hwrites.json⟩, enqueue_folds hsound hrow hwrites,
    fun eventId' other ht hd hne => enqueue_refuses hsound hrow hwrites ht hd hne eventId', ?_⟩
  · rw [QueueRow.key, hwrites.target, hwrites.dispatch]
  · intro hdisposition
    refine ⟨fun hnone => ?_, fun ⟨nowMs, hack⟩ => ?_⟩
    · exact tailed_of_waiting hsound hcovered hrow hwrites (hwaits.mpr ⟨hnew₁ hdisposition, hnone⟩)
    · refine gone_of_acknowledged hsound hrow hwrites fun hnone => ?_
      exact (hwaits.mp hnone).2 nowMs hack

/-! ### A sample run -/

def RemoteIngressQueueEntryV1.sample (dispatch text : String) : RemoteIngressQueueEntryV1 :=
  ⟨syncIngressQueueEntrySchemaV1, ⟨dispatch⟩, (ThreadCoordinates.counted "user" 1).threadId,
    { id := dispatch, source := ⟨"remote", "parent", []⟩,
      conversation := ⟨"child", .direct, none, none, []⟩, actor := none, content := .text text,
      attachments := [], dedupeKey := some ⟨"remote", dispatch⟩, delivery := none, principal := none,
      receivedAtMs := 0, metadata := [] }, 0⟩

/-- What `serde_json` makes of such an entry. -/
def sampleEntryValue (entry : RemoteIngressQueueEntryV1) : Json :=
  let key := Json.str entry.dispatchId.text
  let text := match entry.envelope.content with
    | .text text => text
    | _          => ""
  .obj [("dispatch_id", key),
    ("enqueued_at_ms", .num (.int entry.enqueuedAtMs)),
    ("envelope", .obj [("content", .obj [("text", .str text), ("type", .str "text")]),
      ("conversation", .obj [("external_conversation_id", .str "child"), ("kind", .str "direct")]),
      ("dedupe_key", .obj [("key", key), ("scope", .str "remote")]), ("id", key),
      ("received_at_ms", .num (.int 0)),
      ("source", .obj [("instance_id", .str "parent"), ("protocol", .str "remote")])]),
    ("schema", .str entry.schema),
    ("target_thread_id", .str entry.targetThreadId.uuid.text)]

/-- The codec of the sample run: a column holds its entry, and two entries are read back. -/
def DeliveryCodec.sample : DeliveryCodec RemoteIngressQueueEntryV1 where
  encodeEntry := id
  decodeEntry := some
  entryValue := sampleEntryValue
  readEntry value := [RemoteIngressQueueEntryV1.sample "first" "hello",
    RemoteIngressQueueEntryV1.sample "second" "again"].find? fun entry =>
      sampleEntryValue entry = value

/-- Two entries, the first retried, read, acknowledged and passed before the child restarts. -/
def sampleDeliveries : List QueueStep :=
  let target := (ThreadCoordinates.counted "user" 1).threadId
  [.enqueue (Draw.counted 1).eventId (.sample "first" "hello"),
   .enqueue (Draw.counted 2).eventId (.sample "first" "hello"),
   .tail target none, .acknowledge 5 target ⟨"first"⟩, .persist 0, .restart target,
   .enqueue (Draw.counted 3).eventId (.sample "second" "again"),
   .tail target (some 1)]

set_option maxRecDepth 100000 in
/-- In the sample run the first entry is gone and the second waits. -/
theorem queue_delivers_once_restart :
    ∃ w, w = run (QueueWorld.step .sample) sampleDeliveries .empty ∧
      w.queue.map (fun row => (row.key, row.sequence)) =
        [(((ThreadCoordinates.counted "user" 1).threadId, ⟨"first"⟩), 1),
         (((ThreadCoordinates.counted "user" 1).threadId, ⟨"second"⟩), 2)] ∧
      Gone .sample w (.sample "first" "hello") ∧ Tailed .sample w (.sample "second" "again") := by
  have hfollows : Along (QueueWorld.step .sample) Follows sampleDeliveries .empty := by
    refine ⟨trivial, trivial, fun _ h => ?_, trivial, fun held hheld => ?_, trivial, trivial,
      fun sequence h => ?_, trivial⟩
    · cases h
    · obtain rfl := Option.some.inj ((show _ = some ⟨(ThreadCoordinates.counted "user" 1).threadId,
        .position 1, []⟩ by decide).symm.trans hheld)
      rfl
    · obtain rfl := Option.some.inj h
      exact ⟨.position 1, by decide, rfl⟩
  have hreads : ∀ step ∈ sampleDeliveries, ReadsStep DeliveryCodec.sample step := by
    have hfirst : ReadsEntry .sample (.sample "first" "hello") := ⟨rfl, by decide⟩
    have hsecond : ReadsEntry .sample (.sample "second" "again") := ⟨rfl, by decide⟩
    simp only [sampleDeliveries, List.forall_mem_cons, ReadsStep, hfirst, hsecond,
      List.not_mem_nil, false_imp_iff, implies_true, and_self]
  obtain ⟨-, -, hentries⟩ := queue_delivers_once .sample sampleDeliveries _ rfl hfollows hreads
  refine ⟨_, rfl, by decide, ?_, ?_⟩
  · obtain ⟨-, -, -, hnew⟩ := hentries [] _ _ .enqueued _ rfl (by decide)
    exact (hnew rfl).2 ⟨5, by decide⟩
  · obtain ⟨-, -, -, hnew⟩ := hentries (sampleDeliveries.take 6) _ _ .enqueued _ rfl
      (by decide)
    refine (hnew rfl).1 fun nowMs hmem => ?_
    rw [List.mem_singleton] at hmem
    cases hmem

/-- The sample's codec, with the payload of an event read as `serde_json` reads it. -/
def DeliveryCodec.rereading : DeliveryCodec RemoteIngressQueueEntryV1 :=
  { DeliveryCodec.sample with
    decodeEntry := fun entry => match entry.envelope.content with
      | .event kind payload => some { entry with
          envelope := { entry.envelope with content := .event kind (Sqlite.reread payload) } }
      | _ => some entry }

def sampleMeasuredEntry : RemoteIngressQueueEntryV1 :=
  let entry := RemoteIngressQueueEntryV1.sample "first" ""
  { entry with envelope :=
      { entry.envelope with content := .event "measure" Sqlite.sampleMeasure } }

/-- The entry, enqueued again. -/
def sampleRetries : List QueueStep :=
  [.enqueue (Draw.counted 1).eventId sampleMeasuredEntry,
   .enqueue (Draw.counted 2).eventId sampleMeasuredEntry]

set_option maxRecDepth 100000 in
/-- **An entry that `serde_json` does not read back** is accepted, and refused when it is retried. -/
theorem measure_retry_refused :
    Along (QueueWorld.step .rereading) Follows sampleRetries .empty ∧
    (replies (QueueWorld.step .rereading) sampleRetries .empty).map (·.map Except.isOk) =
      [some true, some false] := by
  exact ⟨⟨trivial, trivial, trivial⟩, by decide⟩

end Verlet.RemoteStore
