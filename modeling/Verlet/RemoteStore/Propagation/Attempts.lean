import Verlet.RemoteStore.Propagation.Protocol

/-!
# Remote store — Propagation — Attempts

The child's side of the protocol: whatever happens between the calls of an attempt, it pushes only
what the child holds after what the parent holds, persists only what the parent holds, and never
persists less than before.
-/

namespace Verlet.RemoteStore
open Support History

variable {streamId : EventStreamId} {log : List EventRecord} {strict : Prop} {v : View log}

/-- The state is the one persisted, and the parent holds what it says is pushed. -/
structure Holding (streamId : EventStreamId) (state : StreamPropagationState) (v : View log) : Prop
    extends Confirmed streamId state v where
  saved : v.saved = some state

theorem Holding.mono {state : StreamPropagationState} {v' : View log}
    (h : Holding streamId state v) (hv : v.Awaits v') : Holding streamId state v' :=
  ⟨h.toConfirmed.mono hv.toGrows, hv.saved.trans h.saved⟩

/-- How an attempt ends: what it tells is persisted, and in a `strict` run it is no divergence. -/
structure Ends (strict : Prop) (attempt : Attempt) (v : View log) : Prop where
  saved : ∀ step, attempt.1 = .ok step → v.saved = some attempt.2
  converges : strict → ∀ actual, attempt.1 ≠ .ok (.streamDiverged actual)

/-- An attempt, and a part of one, keeps to the protocol and ends in `Q`. -/
abbrev Attempts {α : Type} (streamId : EventStreamId) (strict : Prop) (Q : α → View log → Prop)
    (p : PropagatorM α) (v : View log) : Prop :=
  p.Meets View.Awaits (PropagatorAsks log streamId) (PropagatorAnswers log strict) Q v

theorem Ends.of_error {error : VerletError} {state : StreamPropagationState} :
    Ends strict (.error error, state) v where
  saved := by
    rintro _ ⟨⟩
  converges := by
    rintro _ _ ⟨⟩

theorem Holding.ends {state : StreamPropagationState} (h : Holding streamId state v)
    {step : PropagationStep} (hstep : strict → ∀ actual, step ≠ .streamDiverged actual) :
    Attempts streamId strict (Ends strict) (.done (.ok step, state)) v := by
  intro v₁ hv₁
  refine ⟨fun _ _ => (h.mono hv₁).saved, fun hstrict actual heq => ?_⟩
  exact hstep hstrict actual (Except.ok.inj heq)

theorem attempts_error {error : VerletError} {state : StreamPropagationState} :
    Attempts streamId strict (Ends strict) (.done (.error error, state)) v :=
  fun _ _ => .of_error

/-! ### The position -/

theorem advance_meets {state : StreamPropagationState} {pushedThrough : EventSequence}
    (h : Holding streamId state v) (hle : pushedThrough ≤ v.parent) (hfits : pushedThrough < 2 ^ 63)
    (hbehind : ∀ sequence, state.pushedThrough = some sequence → sequence ≤ pushedThrough) :
    Attempts streamId strict (Ends strict) (advance state pushedThrough) v := by
  refine Proc.Meets.perform fun v₁ hv₁ => ⟨⟨⟨h.stream, ?_, ?_⟩, ?_⟩, fun answer v₂ hanswer => ?_⟩
  · rintro _ ⟨⟩
    exact hle.trans (by exact_mod_cast hv₁.parent)
  · rintro _ ⟨⟩
    exact hfits
  · intro prior hprior
    rw [(h.mono hv₁).saved] at hprior
    obtain rfl := Option.some.inj hprior
    exact fun sequence hs => ⟨pushedThrough, rfl, hbehind sequence hs⟩
  · cases answer with
    | error error => exact attempts_error
    | ok done =>
      intro v₃ hv₃
      refine ⟨fun _ _ => hv₃.saved.trans (hanswer.2 rfl), ?_⟩
      rintro _ _ ⟨⟩

/-- What a renewal leaves: another lease, and the position as it was. -/
structure Renewed (streamId : EventStreamId) (state : StreamPropagationState) (renewal : Renewal)
    (v : View log) : Prop where
  pushed : renewal.2.pushedThrough = state.pushedThrough
  confirmed : Confirmed streamId renewal.2 v
  saved : ∀ step, renewal.1 = .ok step → v.saved = some renewal.2
  converges : ∀ actual, renewal.1 ≠ .ok (some (.streamDiverged actual))

theorem renewState_meets {state : StreamPropagationState} (h : Holding streamId state v) :
    Attempts streamId strict (fun renewal v' => Renewed streamId state renewal v' ∧ v.Grows v')
      (renewState state) v := by
  have hkeep : ∀ (step : Option PropagationStep) (v₂ : View log), v.Awaits v₂ →
      (∀ actual, step ≠ some (.streamDiverged actual)) →
      Attempts streamId strict (fun renewal v' => Renewed streamId state renewal v' ∧ v.Grows v')
        (.done (.ok step, state)) v₂ := by
    intro step v₂ hv₂ hstep v₃ hv₃
    have hv : v.Awaits v₃ := .trans _ _ _ hv₂ hv₃
    have h₃ := h.mono hv
    exact ⟨⟨rfl, h₃.toConfirmed, fun _ _ => h₃.saved, fun actual heq =>
      hstep actual (Except.ok.inj heq)⟩, hv.toGrows⟩
  refine Proc.Meets.perform fun v₁ hv₁ => ⟨trivial, fun answer v₂ hanswer => ?_⟩
  have hv₂ : v.Awaits v₂ := .trans _ _ _ hv₁ hanswer.1
  rcases answer with error | grant | renewed
  · exact hkeep _ v₂ hv₂ (by rintro _ ⟨⟩)
  · exact hkeep _ v₂ hv₂ (by rintro _ ⟨⟩)
  · dsimp only
    split
    · exact hkeep _ v₂ hv₂ (by rintro _ ⟨⟩)
    · have hnew : ∀ v' : View log, v.Grows v' →
          Confirmed streamId { state with lease := renewed } v' := by
        intro v' hv'
        have hc := h.toConfirmed.mono hv'
        exact ⟨hc.stream, hc.pushed, hc.fits⟩
      refine Proc.Meets.perform fun v₃ hv₃ => ?_
      have hv₃' : v.Awaits v₃ := .trans _ _ _ hv₂ hv₃
      refine ⟨⟨hnew v₃ hv₃'.toGrows, ?_⟩, fun answer v₄ hanswer' => ?_⟩
      · intro prior hprior
        rw [(h.mono hv₃').saved] at hprior
        obtain rfl := Option.some.inj hprior
        exact behind_of_eq rfl
      · have hv₄ : v.Grows v₄ := .trans _ _ _ hv₃'.toGrows hanswer'.1
        cases answer with
        | error error =>
          intro v₅ hv₅
          have hv₅' : v.Grows v₅ := .trans _ _ _ hv₄ hv₅.toGrows
          refine ⟨⟨rfl, hnew v₅ hv₅', ?_, ?_⟩, hv₅'⟩
          · rintro _ ⟨⟩
          · rintro _ ⟨⟩
        | ok done =>
          intro v₅ hv₅
          have hv₅' : v.Grows v₅ := .trans _ _ _ hv₄ hv₅.toGrows
          refine ⟨⟨rfl, hnew v₅ hv₅', fun _ _ => hv₅.saved.trans (hanswer'.2 rfl), ?_⟩, hv₅'⟩
          rintro _ ⟨⟩

/-! ### Reconciliation -/

/-- A batch under way: the request's records follow the position, and what the parent holds. -/
structure Pushing (streamId : EventStreamId) (request : SyncPushRequestV1)
    (first : StreamRecordEnvelopeV1) (rest : List StreamRecordEnvelopeV1) (start : Nat)
    (state : StreamPropagationState) (v : View log) : Prop where
  holding : Holding streamId state v
  batch : IsBatch streamId log request start v
  records : request.records = first :: rest
  position : ∀ sequence, state.pushedThrough = some sequence → sequence ≤ (start : Int) + 1

section Pushing

variable {request : SyncPushRequestV1} {first : StreamRecordEnvelopeV1}
  {rest : List StreamRecordEnvelopeV1} {start : Nat} {state : StreamPropagationState}
  (h : Pushing streamId request first rest start state v)

include h

theorem Pushing.mono {v' : View log}
    (hv : v.Awaits v') : Pushing streamId request first rest start state v' :=
  ⟨h.holding.mono hv, h.batch.mono hv.toGrows, h.records, h.position⟩

theorem Pushing.length : request.records.length = rest.length + 1 := congrArg List.length h.records

theorem Pushing.bound : start + request.records.length ≤ log.length := h.batch.held.trans v.child_le

theorem Pushing.getElem {i : Nat}
    (hi : i ≤ rest.length) : (first :: rest)[i]? = log[start + i]?.map (·.toStreamRecordV1) := by
  have hlen := h.length
  rw [← h.records, h.batch.records, List.getElem?_map, batchAt, List.getElem?_take,
    if_pos (by omega), List.getElem?_drop]

variable (hp : Placed streamId log)

include hp

theorem Pushing.first_sequence : first.sequence = start + 1 := by
  have hfirst := h.getElem (Nat.zero_le _)
  rw [List.getElem?_cons_zero, eq_comm, Option.map_eq_some_iff] at hfirst
  obtain ⟨event, he, rfl⟩ := hfirst
  exact (hp _ event he).2

theorem Pushing.lastSequence_eq : lastSequence first rest = start + request.records.length := by
  have hlast := h.getElem le_rfl
  have hget : (first :: rest)[rest.length]? =
      some ((first :: rest).getLast (List.cons_ne_nil first rest)) := by
    rw [List.getLast_eq_getElem, List.getElem?_eq_getElem (by simp)]
    rfl
  rw [hget, eq_comm, Option.map_eq_some_iff] at hlast
  obtain ⟨event, he, hlast⟩ := hlast
  unfold lastSequence
  rw [← hlast, h.length]
  refine (hp _ event he).2.trans ?_
  push_cast
  ring

theorem Pushing.advance (hlanded : start + request.records.length ≤ v.parent)
    (hfits : start + request.records.length < 2 ^ 63) :
    Attempts streamId strict (Ends strict) (advance state (lastSequence first rest)) v := by
  have hlen := h.length
  rw [h.lastSequence_eq hp]
  refine advance_meets h.holding ?_ ?_ fun sequence hs => ?_
  · exact_mod_cast hlanded
  · exact_mod_cast hfits
  · have hpos := h.position sequence hs
    have : ((start : Int) + 1) ≤ start + request.records.length := by omega
    exact hpos.trans this

theorem reconciliationCursor_meets : Attempts streamId strict (fun answer v' => v.Awaits v' ∧
      ∀ cursor, answer = .ok cursor → cursor = cursorAt log start)
      (reconciliationCursor state first.sequence) v := by
  unfold reconciliationCursor
  rw [h.first_sequence hp]
  split
  · rename_i hone
    obtain rfl : start = 0 := by
      have : (start : Int) + 1 = 1 := hone
      omega
    exact fun v₁ hv₁ => ⟨hv₁, fun cursor hc => (Except.ok.inj hc).symm⟩
  · rename_i hne
    obtain ⟨previous, rfl⟩ : ∃ previous, start = previous + 1 := by
      have : ¬ (start : Int) + 1 = 1 := hne
      exact ⟨start - 1, by omega⟩
    refine Proc.Meets.perform fun v₁ hv₁ => ⟨h.holding.stream, fun answer v₂ hanswer => ?_⟩
    obtain ⟨rfl, hread⟩ := hanswer
    cases answer with
    | error error =>
      intro v₃ hv₃
      refine ⟨.trans _ _ _ hv₁ hv₃, ?_⟩
      rintro _ ⟨⟩
    | ok events =>
      have hevents := hread events rfl
      -- the record before the batch is one that both sides hold
      have hheld : previous + 1 ≤ v₂.child :=
        h.batch.known.trans (hv₁.parent.trans v₂.parent_le)
      have hstart : startOf (some (((previous + 1 : Nat) : Int) + 1 - 1)) = previous := by
        simp [startOf]
      rw [hstart] at hevents
      have hhead : events.head? = log[previous]? := by
        rw [hevents, List.head?_drop, List.getElem?_take, if_pos (by omega)]
      dsimp only
      rw [hhead]
      cases hrecord : log[previous]? with
      | none =>
        intro v₃ hv₃
        refine ⟨.trans _ _ _ hv₁ hv₃, ?_⟩
        rintro _ ⟨⟩
      | some record =>
        intro v₃ hv₃
        refine ⟨.trans _ _ _ hv₁ hv₃, ?_⟩
        rintro _ ⟨⟩
        rw [cursorAt, hrecord]
        rfl

/-- **A batch the parent holds is adopted**: what the parent holds past it is the child's too. -/
theorem adoptRemote_meets {tail : Nat} (htail : tail ≤ v.parent)
    (hlanded : start + request.records.length ≤ tail)
    (hfits : start + request.records.length < 2 ^ 63) (actual : EventSequence) :
    Attempts streamId strict (Ends strict)
      (adoptRemote state first rest (((log.take tail).drop start).map (·.toStreamRecordV1)) actual)
      v := by
  unfold adoptRemote
  split
  · refine Proc.Meets.perform fun v₁ hv₁ => ⟨h.holding.stream, fun answer v₂ hanswer => ?_⟩
    obtain ⟨rfl, hread⟩ := hanswer
    have h₂ := h.mono hv₁
    cases answer with
    | error error => exact attempts_error
    | ok events =>
      have hevents := hread events rfl
      have hstart : startOf (some first.sequence) = start := by
        rw [h.first_sequence hp, startOf]
        simp
      rw [hstart] at hevents
      have hle : tail ≤ v₂.child := htail.trans (hv₁.parent.trans v₂.parent_le)
      have hremote : ((log.take tail).drop start).map (·.toStreamRecordV1) =
          (events.map (·.toStreamRecordV1)).take (tail - start) := by
        rw [hevents, ← List.map_take, List.take_drop, List.take_take]
        congr 3
        omega
      have hlen : (((log.take tail).drop start).map (·.toStreamRecordV1)).length = tail - start := by
        have := v₂.child_le
        simp only [List.length_map, List.length_drop, List.length_take]
        omega
      dsimp only
      rw [if_neg]
      · exact h₂.advance hp (hlanded.trans (htail.trans hv₁.parent)) hfits
      · rintro (hgt | hne)
        · rw [hlen, hevents] at hgt
          simp only [List.length_map, List.length_drop, List.length_take] at hgt
          have := v₂.child_le
          omega
        · rw [hlen] at hne
          exact hne hremote
  · exact h.advance hp (hlanded.trans htail) hfits

theorem reconcile_meets (hlanded : strict → start + request.records.length ≤ v.parent)
    (hfits : start + request.records.length < 2 ^ 63) (actual : EventSequence) :
    Attempts streamId strict (Ends strict) (reconcileSequenceConflict state first rest actual) v := by
  have hdiverged : ∀ v' : View log, v.Awaits v' → ¬ strict →
      Attempts streamId strict (Ends strict) (.done (.ok (.streamDiverged actual), state)) v' := by
    intro v' hv' hlax
    exact (h.holding.mono hv').ends fun hstrict => absurd hstrict hlax
  have hlen := h.length
  refine (reconciliationCursor_meets h hp).bind .refl fun answer v₁ hcursor => ?_
  obtain ⟨hv₁, hcursor⟩ := hcursor
  cases answer with
  | error error => exact attempts_error
  | ok cursor =>
    obtain rfl := hcursor cursor rfl
    have hknown : start ≤ v.parent := h.batch.known
    refine Proc.Meets.perform fun v₂ hv₂ => ?_
    have hv₂' : v.Awaits v₂ := .trans _ _ _ hv₁ hv₂
    refine ⟨⟨h.holding.stream, start, rfl, hknown.trans hv₂'.parent⟩, fun pulled v₃ hpulled => ?_⟩
    obtain ⟨hv₃, hpulled, hfailed⟩ := hpulled
    have hv₃' : v.Awaits v₃ := .trans _ _ _ hv₂' hv₃
    cases pulled with
    | error error =>
      refine (h.holding.mono hv₃').ends fun hstrict actual' => ?_
      rcases hfailed hstrict error rfl with rfl | ⟨text, rfl⟩
      · rintro ⟨⟩
      · rintro ⟨⟩
    | ok remote =>
      dsimp only
      rcases hpulled remote rfl with ⟨tail, hasked, htail, hremote⟩ | ⟨hlax, hkinds⟩
      · have hremote := hremote start rfl (hknown.trans hv₂'.parent)
        have hbound := h.bound
        have hall : tail ≤ log.length := htail.trans (v₃.parent_le.trans v₃.child_le)
        have hremotelen : remote.length = tail - start := by
          rw [hremote, List.length_map, List.length_drop, List.length_take]
          omega
        split
        · rename_i hdiffers
          refine hdiverged v₃ hv₃' fun hstrict => ?_
          -- the parent held the whole batch before it was asked
          have hle : start + request.records.length ≤ tail :=
            (hlanded hstrict).trans (hv₂'.parent.trans hasked)
          rcases hdiffers with hshort | hne
          · rw [hremotelen, List.length_cons] at hshort
            omega
          · refine hne ?_
            rw [hremote, ← h.records, ← List.map_take]
            conv_rhs => rw [h.batch.records, batchAt]
            rw [List.take_drop, List.take_take, List.take_drop]
            congr 3
            omega
        · rename_i hsame
          rw [not_or, not_lt, hremotelen, List.length_cons] at hsame
          obtain ⟨hlong, -⟩ := hsame
          rw [hremote]
          exact adoptRemote_meets (h.mono hv₃') hp htail (by omega) hfits actual
      · -- no record of the queue is one of the batch
        rw [if_pos]
        · exact hdiverged v₃ hv₃' hlax
        · refine or_iff_not_imp_left.mpr fun hlong heq => ?_
          have hfirst : first ∈ remote := by
            refine List.mem_of_mem_take (i := (first :: rest).length) ?_
            rw [heq]
            exact List.mem_cons_self
          have hget := h.getElem (Nat.zero_le _)
          rw [List.getElem?_cons_zero, eq_comm, Option.map_eq_some_iff] at hget
          obtain ⟨event, -, rfl⟩ := hget
          exact hkinds _ hfirst event.kind rfl

/-! ### An attempt -/

theorem pushOnce_meets {again : Option (StreamPropagationState → PropagatorM Attempt)}
    (hagain : ∀ next ∈ again, ∀ (state' : StreamPropagationState) (v' : View log),
      Pushing streamId request first rest start state' v' →
        Attempts streamId strict (Ends strict) (next state') v') :
    Attempts streamId strict (Ends strict) (pushOnce request first rest again state) v := by
  refine Proc.Meets.perform fun v₁ hv₁ =>
    ⟨⟨start, h.batch.mono hv₁.toGrows⟩, fun answer v₂ hanswer => ?_⟩
  have hv₂ : v.Awaits v₂ := .trans _ _ _ hv₁ hanswer.1
  have h₂ := h.mono hv₂
  have hsays : PushAnswers log strict request start answer v₂ :=
    hanswer.2 start h.batch.expected
  have hends : ∀ step : PropagationStep, (∀ actual, step ≠ .streamDiverged actual) →
      Attempts streamId strict (Ends strict) (.done (.ok step, state)) v₂ := by
    intro step hstep
    exact h₂.holding.ends fun _ => hstep
  cases answer with
  | error error => exact hends _ (by rintro _ ⟨⟩)
  | ok outcome =>
    dsimp only
    split
    · exact hends _ (by rintro _ ⟨⟩)
    · cases outcome with
      | accepted ack =>
        obtain ⟨hlanded, hfits⟩ := hsays.accepted ⟨ack, rfl⟩
        exact h₂.advance hp hlanded hfits
      | rejected rejection =>
        dsimp only
        split
        · rename_i next _
          refine (renewState_meets h₂.holding).bind .refl fun renewal v₃ hrenewal => ?_
          obtain ⟨hrenewed, hv₃⟩ := hrenewal
          obtain ⟨result, renewed⟩ := renewal
          cases result with
          | error error => exact attempts_error
          | ok ending =>
            have hholding : Holding streamId renewed v₃ :=
              ⟨hrenewed.confirmed, hrenewed.saved ending rfl⟩
            cases ending with
            | some step =>
              refine hholding.ends fun _ actual heq => ?_
              exact hrenewed.converges actual (by rw [heq])
            | none =>
              refine hagain next rfl renewed v₃
                ⟨hholding, h₂.batch.mono hv₃, h.records, fun sequence hs => ?_⟩
              exact h.position sequence (hrenewed.pushed ▸ hs)
        · rename_i actual hreason
          obtain ⟨hlanded, hfits⟩ := hsays.conflict rejection actual rfl hreason
          exact reconcile_meets h₂ hp hlanded hfits actual
        · exact hends _ (by rintro _ ⟨⟩)

/-- **The loop of an attempt.** -/
theorem pushBatch_meets :
    Attempts streamId strict (Ends strict) (pushBatch request first rest state) v := by
  refine pushOnce_meets h hp fun next hnext state' v' h' => ?_
  obtain rfl := Option.some.inj hnext
  exact pushOnce_meets h' hp (by simp)

end Pushing

theorem saturate_start {n : Int} {parent : Nat} (hle : n ≤ parent) (hfits : n < 2 ^ 63) :
    (saturate (n + 1) - 1).toNat ≤ parent ∧ n ≤ ((saturate (n + 1) - 1).toNat : Int) + 1 := by
  unfold saturate
  omega

theorem startOf_position {state : StreamPropagationState} (h : Confirmed streamId state v) :
    startOf (state.pushedThrough.map fun sequence => saturate (sequence + 1)) ≤ v.parent ∧
      ∀ sequence, state.pushedThrough = some sequence → sequence ≤
        (startOf (state.pushedThrough.map fun sequence => saturate (sequence + 1)) : Int) + 1 := by
  cases hpushed : state.pushedThrough with
  | none =>
    refine ⟨Nat.zero_le _, ?_⟩
    rintro _ ⟨⟩
  | some sequence =>
    obtain ⟨hstart, hbefore⟩ :=
      saturate_start (h.pushed sequence hpushed) (h.fits sequence hpushed)
    refine ⟨hstart, ?_⟩
    rintro _ ⟨⟩
    exact hbefore

theorem propagateBatch_meets (hp : Placed streamId log) (propagator : LocalFirstStreamPropagator)
    {state : StreamPropagationState} (h : Holding streamId state v) :
    Attempts streamId strict (Ends strict) (propagateBatch propagator state) v := by
  refine Proc.Meets.perform fun v₁ hv₁ => ⟨h.stream, fun answer v₂ hanswer => ?_⟩
  obtain ⟨rfl, hread⟩ := hanswer
  have h₂ := h.mono hv₁
  cases answer with
  | error error => exact attempts_error
  | ok events =>
    have hevents := hread events rfl
    obtain ⟨hknown, hposition⟩ := startOf_position h₂.toConfirmed
    generalize startOf (state.pushedThrough.map fun sequence => saturate (sequence + 1)) = start
      at hevents hknown hposition
    dsimp only
    split
    · exact h₂.ends (by rintro _ _ ⟨⟩)
    · rename_i first rest hbatch
      have hlen : (first :: rest).length = min propagator.batchSize (v₂.child - start) := by
        have := v₂.child_le
        rw [← hbatch, hevents, List.length_map, List.length_take, List.length_drop,
          List.length_take]
        omega
      have hrecords : first :: rest =
          (batchAt log start (first :: rest).length).map (·.toStreamRecordV1) := by
        rw [hlen, ← hbatch, hevents, batchAt, List.take_drop, List.take_take, List.take_drop]
        congr 3
        have := v₂.child_le
        have hpos : 0 < (first :: rest).length := Nat.succ_pos _
        omega
      have hfirst : first.sequence = start + 1 := by
        have hhead : (first :: rest)[0]? = some first := rfl
        rw [hrecords, List.getElem?_map, Option.map_eq_some_iff] at hhead
        obtain ⟨event, he, rfl⟩ := hhead
        rw [batchAt, List.getElem?_take, if_pos (by simp), List.getElem?_drop] at he
        exact (hp _ event he).2
      refine pushBatch_meets ⟨h₂, ⟨h.stream, hfirst, hrecords, hknown, ?_⟩, rfl, hposition⟩ hp
      change start + (first :: rest).length ≤ v₂.child
      have := v₂.parent_le
      omega

/-- **Every attempt keeps to the protocol**, and in a `strict` run none finds the parent diverged. -/
theorem propagateOnce_meets (hp : Placed streamId log) (propagator : LocalFirstStreamPropagator)
    {state : StreamPropagationState} (h : Holding streamId state v) :
    Attempts streamId strict (Ends strict) (propagateOnce propagator state) v := by
  unfold propagateOnce
  split
  · exact attempts_error
  · have hrenew : Attempts streamId strict
        (fun renewal v' => Renewed streamId state renewal v' ∧ v.Grows v') (renewIfDue state) v := by
      refine Proc.Meets.perform fun v₁ hv₁ => ⟨trivial, fun nowMs v₂ hanswer => ?_⟩
      obtain rfl := hanswer
      split
      · refine (renewState_meets (h.mono hv₁)).imp fun renewal v₃ hr => ?_
        exact ⟨hr.1, .trans _ _ _ hv₁.toGrows hr.2⟩
      · intro v₃ hv₃
        have hv : v.Awaits v₃ := .trans _ _ _ hv₁ hv₃
        have h₃ := h.mono hv
        refine ⟨⟨rfl, h₃.toConfirmed, fun _ _ => h₃.saved, ?_⟩, hv.toGrows⟩
        rintro _ ⟨⟩
    refine hrenew.bind .refl fun renewal v₁ hrenewal => ?_
    obtain ⟨hrenewed, -⟩ := hrenewal
    obtain ⟨result, renewed⟩ := renewal
    cases result with
    | error error => exact attempts_error
    | ok next =>
      have hholding : Holding streamId renewed v₁ :=
        ⟨hrenewed.confirmed, hrenewed.saved next rfl⟩
      cases next with
      | some step =>
        refine hholding.ends fun _ actual heq => ?_
        exact hrenewed.converges actual (by rw [heq])
      | none => exact propagateBatch_meets hp propagator hholding

end Verlet.RemoteStore
