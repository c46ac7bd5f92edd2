import Verlet.History.Records

/-!
# History — Batches

What both stores ask of a batch of new events, said once: every record valid, every id new to the
store and to the batch, and every numbered event within the frozen schema.

`Placed` is what one stream then is, numbered from 1.  `Journal` is what all the streams of a store
are: placed, their ids unique across all of them, every discharged event with its provenance.

* `Placed.filter_sequence`: a read from a sequence on drops what comes before it.
-/

namespace Verlet.History

/-- The records of a batch as events, numbered after `len`. -/
def numbered (streamId : EventStreamId) : Nat → List NewEventRecord → List EventRecord
  | _,   []           => []
  | len, record :: rs => .fromNew streamId (len + 1) record :: numbered streamId (len + 1) rs

/-- A store that holds the ids `taken` and `len` events of the stream takes the batch. -/
structure Admissible (taken : EventRecordId → Prop) (streamId : EventStreamId) (len : Nat)
    (records : List NewEventRecord) : Prop where
  valid : ∀ record ∈ records, validateNewEvent record = .ok ()
  fresh : ∀ record ∈ records, ¬ taken record.id
  nodup : (records.map (·.id)).Nodup
  schema : ∀ event ∈ numbered streamId len records, event.validateStreamRecordV1 = .ok ()

variable {streamId : EventStreamId}

@[simp] theorem map_id_numbered (len : Nat) (records : List NewEventRecord) :
    (numbered streamId len records).map (·.id) = records.map (·.id) := by
  induction records generalizing len with
  | nil => rfl
  | cons record rs ih => simp only [numbered, List.map_cons, ih, EventRecord.fromNew]

@[simp] theorem length_numbered (len : Nat) (records : List NewEventRecord) :
    (numbered streamId len records).length = records.length := by
  induction records generalizing len with
  | nil => rfl
  | cons record rs ih => simp only [numbered, List.length_cons, ih]

theorem getElem?_numbered (len : Nat) (records : List NewEventRecord) (i : Nat) :
    (numbered streamId len records)[i]? =
      records[i]?.map (.fromNew streamId (len + i + 1)) := by
  induction records generalizing len i with
  | nil => simp [numbered]
  | cons record rs ih =>
    cases i with
    | zero => simp [numbered]
    | succ i =>
      simp only [numbered, List.getElem?_cons_succ, ih]
      congr 2
      push_cast
      ring

variable {event : EventRecord}

theorem mem_numbered {len : Nat} {records : List NewEventRecord}
    (h : event ∈ numbered streamId len records) :
    ∃ record ∈ records, ∃ sequence : EventSequence, event = .fromNew streamId sequence record := by
  obtain ⟨i, hi⟩ := List.mem_iff_getElem?.mp h
  rw [getElem?_numbered, Option.map_eq_some_iff] at hi
  obtain ⟨record, hr, rfl⟩ := hi
  exact ⟨record, List.mem_of_getElem? hr, _, rfl⟩

theorem provenance_of_valid {record : NewEventRecord} (h : validateNewEvent record = .ok ())
    (ho : record.origin = .discharged) : record.provenance.isEmpty = false := by
  unfold validateNewEvent at h
  split at h
  · cases h
  · rename_i hn
    simpa [ho] using hn

theorem admissible_nil (taken : EventRecordId → Prop) (len : Nat) :
    Admissible taken streamId len [] :=
  ⟨by simp, by simp, by simp, by simp [numbered]⟩

theorem admissible_cons {taken : EventRecordId → Prop} {len : Nat} {record : NewEventRecord}
    {rs : List NewEventRecord} :
    Admissible taken streamId len (record :: rs) ↔
      validateNewEvent record = .ok () ∧ ¬ taken record.id ∧
      (EventRecord.fromNew streamId (len + 1) record).validateStreamRecordV1 = .ok () ∧
      Admissible (fun id => taken id ∨ id = record.id) streamId (len + 1) rs := by
  constructor
  · rintro ⟨hv, hf, hn, hs⟩
    rw [List.map_cons, List.nodup_cons] at hn
    refine ⟨hv _ List.mem_cons_self, hf _ List.mem_cons_self, hs _ List.mem_cons_self,
      fun r hr => hv r (.tail _ hr), fun r hr => ?_, hn.2, fun e he => hs e (.tail _ he)⟩
    rintro (ht | hid)
    · exact hf r (.tail _ hr) ht
    · exact hn.1 (List.mem_map.mpr ⟨r, hr, hid⟩)
  · rintro ⟨hv, hf, hs, hr⟩
    refine ⟨?_, ?_, ?_, ?_⟩
    · exact List.forall_mem_cons.mpr ⟨hv, hr.valid⟩
    · exact List.forall_mem_cons.mpr ⟨hf, fun r hm ht => hr.fresh r hm (.inl ht)⟩
    · rw [List.map_cons, List.nodup_cons]
      refine ⟨fun hm => ?_, hr.nodup⟩
      obtain ⟨r, hm, hid⟩ := List.mem_map.mp hm
      exact hr.fresh r hm (.inr hid)
    · exact List.forall_mem_cons.mpr ⟨hs, hr.schema⟩

/-! ### Streams -/

/-- The events carry the stream's id and the sequences 1, 2, … in order. -/
def Placed (streamId : EventStreamId) (events : List EventRecord) : Prop :=
  ∀ (i : Nat) (event : EventRecord), events[i]? = some event →
    event.streamId = streamId ∧ event.sequence = i + 1

theorem Placed.take {events : List EventRecord} (h : Placed streamId events) (n : Nat) :
    Placed streamId (events.take n) := by
  intro i event he
  rw [List.getElem?_take] at he
  split at he
  · exact h i event he
  · cases he

theorem Placed.increasing {events : List EventRecord} (h : Placed streamId events) :
    events.Pairwise fun event event' => event.sequence < event'.sequence := by
  rw [List.pairwise_iff_getElem]
  intro i j hi hj hij
  have hi' := (h i _ (List.getElem?_eq_getElem hi)).2
  have hj' := (h j _ (List.getElem?_eq_getElem hj)).2
  have hlt : (i : Int) < j := by omega
  rw [hi', hj']
  exact Int.add_lt_add_right hlt 1

theorem Placed.sorted {events : List EventRecord} (h : Placed streamId events) :
    events.Pairwise fun event event' => event.sequence ≤ event'.sequence :=
  h.increasing.imp Int.le_of_lt

theorem Placed.filter_sequence {events : List EventRecord} (h : Placed streamId events)
    (sequence : Int) :
    events.filter (fun event => decide (sequence ≤ event.sequence)) =
      events.drop (sequence - 1).toNat := by
  have hgen : ∀ (l : List EventRecord) (k : Nat),
      (∀ (j : Nat) (event : EventRecord), l[j]? = some event → event.sequence = (k : Int) + j + 1) →
        l.filter (fun event => decide (sequence ≤ event.sequence)) =
          l.drop ((sequence - 1).toNat - k) := by
    intro l
    induction l with
    | nil => simp
    | cons event l ih =>
      intro k hseq
      have hhead : event.sequence = (k : Int) + 0 + 1 := hseq 0 event rfl
      have htail := ih (k + 1) fun j e he => by
        rw [hseq (j + 1) e he]
        push_cast
        ring
      by_cases hik : (sequence - 1).toNat ≤ k
      · rw [List.filter_cons_of_pos (by rw [decide_eq_true_eq, hhead]; omega), htail,
          Nat.sub_eq_zero_of_le hik, Nat.sub_eq_zero_of_le (by omega)]
        rfl
      · rw [List.filter_cons_of_neg (by rw [decide_eq_true_eq, hhead]; omega), htail,
          show (sequence - 1).toNat - k = ((sequence - 1).toNat - (k + 1)) + 1 by omega,
          List.drop_succ_cons]
  refine hgen events 0 fun j event he => ?_
  rw [(h j event he).2]
  push_cast
  ring

/-! ### Journals -/

/-- The streams of a store that holds the event ids `taken`. -/
structure Journal (events : EventStreamId → List EventRecord) (taken : EventRecordId → Prop) :
    Prop where
  /-- Each stream's events carry its id and the sequences 1, 2, … in order. -/
  placed : ∀ (streamId : EventStreamId) (i : Nat) (event : EventRecord),
    (events streamId)[i]? = some event → event.streamId = streamId ∧ event.sequence = i + 1
  /-- The ids of stored events are taken. -/
  known : ∀ streamId, ∀ event ∈ events streamId, taken event.id
  /-- An id stands at one place of one stream. -/
  unique : ∀ (streamId streamId' : EventStreamId) (i j : Nat) (event event' : EventRecord),
    (events streamId)[i]? = some event → (events streamId')[j]? = some event' →
      event.id = event'.id → streamId = streamId' ∧ i = j
  /-- A discharged event says where it came from. -/
  provenance : ∀ streamId, ∀ event ∈ events streamId, event.origin = .discharged →
    event.provenance.isEmpty = false

theorem Journal.nodup {events : EventStreamId → List EventRecord} {taken : EventRecordId → Prop}
    (h : Journal events taken) (streamId : EventStreamId) :
    ((events streamId).map (·.id)).Nodup := by
  rw [List.Nodup, List.pairwise_map, List.pairwise_iff_getElem]
  intro i j hi hj hij heq
  have hsame := (h.unique streamId streamId i j _ _ (List.getElem?_eq_getElem hi)
    (List.getElem?_eq_getElem hj) heq).2
  omega

def appendBatch (events : EventStreamId → List EventRecord) (streamId : EventStreamId)
    (records : List NewEventRecord) : EventStreamId → List EventRecord := fun streamId' =>
  if streamId' = streamId then
    events streamId ++ numbered streamId (events streamId).length records
  else events streamId'

theorem Journal.empty (taken : EventRecordId → Prop) : Journal (fun _ => []) taken where
  placed := by simp
  known := by simp
  unique := by simp
  provenance := by simp

section Append

variable {events : EventStreamId → List EventRecord} {taken : EventRecordId → Prop}
  {records : List NewEventRecord}

theorem getElem?_appendBatch {streamId' : EventStreamId} {i : Nat}
    (h : (appendBatch events streamId records streamId')[i]? = some event) :
    (events streamId')[i]? = some event ∨
      streamId' = streamId ∧ (events streamId).length ≤ i ∧
        ∃ record, records[i - (events streamId).length]? = some record ∧
          event = .fromNew streamId (i + 1) record := by
  unfold appendBatch at h
  split at h
  · rename_i hs
    subst hs
    by_cases hi : i < (events streamId').length
    · rw [List.getElem?_append_left hi] at h
      exact .inl h
    · rw [not_lt] at hi
      rw [List.getElem?_append_right hi, getElem?_numbered, Option.map_eq_some_iff] at h
      obtain ⟨record, hr, rfl⟩ := h
      have hcast : ((events streamId').length : Int) + ((i - (events streamId').length : Nat) : Int)
          = i := by omega
      exact .inr ⟨rfl, hi, record, hr, by rw [hcast]⟩
  · exact .inl h

theorem mem_appendBatch {streamId' : EventStreamId}
    (h : event ∈ appendBatch events streamId records streamId') :
    event ∈ events streamId' ∨
      ∃ record ∈ records, ∃ sequence : EventSequence, event = .fromNew streamId sequence record := by
  unfold appendBatch at h
  split at h
  · rename_i hs
    subst hs
    rcases List.mem_append.mp h with h | h
    · exact .inl h
    · exact .inr (mem_numbered h)
  · exact .inl h

/-- **An admissible batch keeps a journal.** -/
theorem Journal.append (h : Journal events taken)
    (ha : Admissible taken streamId (events streamId).length records) :
    Journal (appendBatch events streamId records)
      (fun id => taken id ∨ id ∈ records.map (·.id)) where
  placed streamId' i event he := by
    rcases getElem?_appendBatch he with he | ⟨rfl, -, record, -, rfl⟩
    · exact h.placed streamId' i event he
    · exact ⟨rfl, rfl⟩
  known streamId' event he := by
    rcases mem_appendBatch he with he | ⟨record, hr, sequence, rfl⟩
    · exact .inl (h.known streamId' event he)
    · exact .inr (List.mem_map.mpr ⟨record, hr, rfl⟩)
  unique s₁ s₂ i j e₁ e₂ h₁ h₂ hid := by
    rcases getElem?_appendBatch h₁ with g₁ | ⟨hs₁, hi, r₁, g₁, he₁⟩ <;>
      rcases getElem?_appendBatch h₂ with g₂ | ⟨hs₂, hj, r₂, g₂, he₂⟩
    · exact h.unique s₁ s₂ i j e₁ e₂ g₁ g₂ hid
    · have ht := h.known s₁ e₁ (List.mem_of_getElem? g₁)
      rw [hid, he₂] at ht
      exact absurd ht (ha.fresh r₂ (List.mem_of_getElem? g₂))
    · have ht := h.known s₂ e₂ (List.mem_of_getElem? g₂)
      rw [← hid, he₁] at ht
      exact absurd ht (ha.fresh r₁ (List.mem_of_getElem? g₁))
    · refine ⟨hs₁.trans hs₂.symm, ?_⟩
      -- both come from the batch: their places in it agree, since its ids are distinct
      have hids : (records.map (·.id))[i - (events streamId).length]? =
          (records.map (·.id))[j - (events streamId).length]? := by
        rw [he₁, he₂] at hid
        rw [List.getElem?_map, List.getElem?_map, g₁, g₂]
        exact congrArg some hid
      have hlt : i - (events streamId).length < (records.map (·.id)).length := by
        rw [List.length_map]
        exact (List.getElem?_eq_some_iff.mp g₁).1
      have := (List.getElem?_inj hlt ha.nodup).mp hids
      omega
  provenance streamId' event he ho := by
    rcases mem_appendBatch he with he | ⟨record, hr, sequence, rfl⟩
    · exact h.provenance streamId' event he ho
    · exact provenance_of_valid (ha.valid record hr) ho

theorem prefix_appendBatch (streamId' : EventStreamId) :
    events streamId' <+: appendBatch events streamId records streamId' := by
  unfold appendBatch
  split
  · rename_i hs
    subst hs
    exact List.prefix_append _ _
  · exact List.prefix_rfl

end Append

end Verlet.History
