import Mathlib.Data.List.Count
import Mathlib.Data.List.Perm.Basic
import Verlet.Kernel.BindingProjector

/-!
# Kernel — The binding projector — What is wanted is had

The matching of active and wanted bindings is a difference of multisets, and a fold of the events that
the difference asks for is a difference applied, in whatever order the events stand.
-/

namespace Verlet.Kernel
open Support History
open ThreadBinding (attachEventId)

/-! ### Identities -/

/-- What one binding has in common with another that matches it. -/
structure BindingIdentity where
  name : String
  artifactHash : String
  operations : List String
  directTools : List BindingAttachedDirectToolBinding
  attachmentConfig : BindingAttachmentConfig
  effectClass : BindingEffectClass
deriving DecidableEq

def BindingAttachedPayload.identity (p : BindingAttachedPayload) : BindingIdentity :=
  ⟨p.name, p.artifactHash, p.operations, p.directTools, p.attachmentConfig, p.effectClass⟩

theorem identityMatches_iff {left right : BindingAttachedPayload} :
    bindingPayloadIdentityMatches left right = true ↔ left.identity = right.identity := by
  simp [bindingPayloadIdentityMatches, BindingAttachedPayload.identity, and_assoc]

def ThreadBinding.identity (binding : ThreadBinding) : BindingIdentity := binding.payload.identity

/-! ### The matching -/

variable {active : List ThreadBinding}

section Matching

def unmatchedOf (marks : List (ThreadBinding × Bool)) : List ThreadBinding :=
  (marks.filter (·.2)).map (·.1)

def matchedOf (marks : List (ThreadBinding × Bool)) : List ThreadBinding :=
  (marks.filter fun mark => !mark.2).map (·.1)

variable {marks marked : List (ThreadBinding × Bool)} {desired : BindingAttachedPayload}

theorem matchFirst_none (h : matchFirst desired marks = none) :
    ((unmatchedOf marks).map ThreadBinding.identity).count desired.identity = 0 := by
  induction marks with
  | nil => rfl
  | cons mark marks ih =>
    obtain ⟨binding, unmatched⟩ := mark
    rw [matchFirst] at h
    split at h
    · cases h
    · next hnot =>
      have hrest := ih (Option.map_eq_none_iff.mp h)
      cases unmatched with
      | false => exact hrest
      | true =>
        have hne : ¬ binding.identity = desired.identity := fun hsame =>
          hnot (by simpa using identityMatches_iff.mpr hsame)
        exact (List.count_cons_of_ne hne).trans hrest

theorem matchFirst_some (h : matchFirst desired marks = some marked) :
    marked.map (·.1) = marks.map (·.1) ∧
      ∀ identity, ((unmatchedOf marks).map ThreadBinding.identity).count identity =
        ((unmatchedOf marked).map ThreadBinding.identity).count identity +
          [desired.identity].count identity := by
  induction marks generalizing marked with
  | nil => cases h
  | cons mark marks ih =>
    obtain ⟨binding, unmatched⟩ := mark
    rw [matchFirst] at h
    split at h
    · next hfirst =>
      cases h
      obtain ⟨rfl, hmatches⟩ := Bool.and_eq_true_iff.mp hfirst
      refine ⟨rfl, fun identity => ?_⟩
      have hcons : (unmatchedOf ((binding, true) :: marks)).map ThreadBinding.identity =
          [desired.identity] ++ (unmatchedOf marks).map ThreadBinding.identity := by
        rw [← identityMatches_iff.mp hmatches]
        rfl
      rw [hcons, List.count_append, Nat.add_comm]
      rfl
    · obtain ⟨marked, hmarked, rfl⟩ := Option.map_eq_some_iff.mp h
      obtain ⟨hsame, hcount⟩ := ih hmarked
      refine ⟨congrArg (binding :: ·) hsame, fun identity => ?_⟩
      cases unmatched with
      | false => exact hcount identity
      | true =>
        have hcons (marks : List (ThreadBinding × Bool)) :
            ((unmatchedOf ((binding, true) :: marks)).map ThreadBinding.identity).count identity =
              ((unmatchedOf marks).map ThreadBinding.identity).count identity +
                [binding.identity].count identity := by
          rw [Nat.add_comm, ← List.count_append]
          rfl
        rw [hcons, hcons, hcount]
        ac_rfl

/-- After some of the wanted bindings: what is left of each identity is on one side only. -/
structure Matched (active : List ThreadBinding) (wanted : List BindingAttachedPayload)
    (s : List (ThreadBinding × Bool) × List BindingAttachedPayload) : Prop where
  same : s.1.map (·.1) = active
  balanced : ∀ identity,
    ((unmatchedOf s.1).map ThreadBinding.identity).count identity +
        (wanted.map BindingAttachedPayload.identity).count identity =
      (active.map ThreadBinding.identity).count identity +
        (s.2.map BindingAttachedPayload.identity).count identity
  oneSided : ∀ identity, ((unmatchedOf s.1).map ThreadBinding.identity).count identity = 0 ∨
    (s.2.map BindingAttachedPayload.identity).count identity = 0

theorem Matched.step {wanted : List BindingAttachedPayload}
    {s : List (ThreadBinding × Bool) × List BindingAttachedPayload} (h : Matched active wanted s)
    (desired : BindingAttachedPayload) :
    Matched active (wanted ++ [desired]) (reconcileBinding s desired) := by
  have happend (identity : BindingIdentity) (payloads : List BindingAttachedPayload) :
      ((payloads ++ [desired]).map BindingAttachedPayload.identity).count identity =
        (payloads.map BindingAttachedPayload.identity).count identity +
          [desired.identity].count identity := by
    rw [List.map_append, List.count_append]
    rfl
  rw [reconcileBinding]
  cases hmatch : matchFirst desired s.1 with
  | some marked =>
    obtain ⟨hsame, hcount⟩ := matchFirst_some hmatch
    refine ⟨hsame.trans h.same, fun identity => ?_, fun identity => ?_⟩
    · have hbalanced := h.balanced identity
      rw [hcount] at hbalanced
      simp only [happend]
      omega
    · have honeSided := h.oneSided identity
      rw [hcount] at honeSided
      exact honeSided.imp_left fun hzero => (Nat.add_eq_zero_iff.mp hzero).1
  | none =>
    refine ⟨h.same, fun identity => ?_, fun identity => ?_⟩
    · have hbalanced := h.balanced identity
      simp only [happend]
      omega
    · simp only [happend]
      by_cases hidentity : desired.identity = identity
      · subst hidentity
        exact .inl (matchFirst_none hmatch)
      · rw [List.count_cons_of_ne hidentity, List.count_nil, Nat.add_zero]
        exact h.oneSided identity

/-- **The matching is a difference of multisets.** -/
theorem matched_reconcile (active : List ThreadBinding) (desired : List BindingAttachedPayload) :
    Matched active desired (desired.foldl reconcileBinding (active.map (·, true), [])) := by
  have hgen : ∀ (rest wanted : List BindingAttachedPayload)
      (s : List (ThreadBinding × Bool) × List BindingAttachedPayload), Matched active wanted s →
        Matched active (wanted ++ rest) (rest.foldl reconcileBinding s) := by
    intro rest
    induction rest with
    | nil =>
      intro wanted s h
      rwa [List.append_nil]
    | cons payload rest ih =>
      intro wanted s h
      have hnext := ih _ _ (h.step payload)
      rwa [List.append_assoc] at hnext
  have hall : unmatchedOf (active.map (·, true)) = active := by
    simp [unmatchedOf, List.filter_map, Function.comp_def]
  refine hgen desired [] _ ⟨by simp [Function.comp_def], fun identity => ?_, fun identity => .inr rfl⟩
  rw [hall]

end Matching

/-! ### The fold -/

section Folding

structure Detaches (event : EventRecord) (attachEventId : EventRecordId) : Prop where
  kind : event.kind = .bindingDetached
  payload : ∃ payload : BindingDetachedPayload, payload.attachEventId = attachEventId ∧
    event.payload = Wire.bindingDetached.toValue payload

structure Attaches (event : EventRecord) (payload : BindingAttachedPayload) : Prop where
  kind : event.kind = .bindingAttached
  payload : event.payload = Wire.bindingAttached.toValue payload

/-- What one event does to the bindings: it detaches an attachment, or attaches a binding. -/
inductive Change where
  | detach (attachEventId : EventRecordId)
  | attach (binding : ThreadBinding)

def Change.Of (event : EventRecord) : Change → Prop
  | .detach attachEventId => Detaches event attachEventId
  | .attach binding       => event.id = binding.attachEventId ∧ Attaches event binding.payload

def detachedIds : List Change → List EventRecordId
  | [] => []
  | .detach attachEventId :: changes => attachEventId :: detachedIds changes
  | .attach _ :: changes             => detachedIds changes

def attachedBindings : List Change → List ThreadBinding
  | [] => []
  | .detach _ :: changes       => attachedBindings changes
  | .attach binding :: changes => binding :: attachedBindings changes

def remaining (active : List ThreadBinding) (detached : List EventRecordId) : List ThreadBinding :=
  active.filter fun binding => !decide (binding.attachEventId ∈ detached)

theorem remaining_nil (active : List ThreadBinding) : remaining active [] = active := by
  simp [remaining]

theorem remaining_cons (active : List ThreadBinding) (id : EventRecordId) (ids : List EventRecordId) :
    remaining active (id :: ids) =
      remaining (active.filter fun binding => binding.attachEventId ≠ id) ids := by
  simp [remaining, List.filter_filter, Bool.and_comm]

theorem remaining_append {binding : ThreadBinding} {ids : List EventRecordId}
    (h : binding.attachEventId ∉ ids) :
    remaining (active ++ [binding]) ids = remaining active ids ++ [binding] := by
  simp [remaining, h]

theorem foldThreadBinding_attach {event : EventRecord} {binding : ThreadBinding}
    (h : (Change.attach binding).Of event) (s : ThreadBindingsFold × List EventRecordId) :
    foldThreadBinding s event = ({ s.1 with active := s.1.active ++ [binding] }, s.2) := by
  obtain ⟨hid, hkind, hpayload⟩ := h
  simp only [foldThreadBinding, hkind, hpayload, Wire.roundTrips_bindingAttached _, hid]

theorem foldThreadBinding_detach {event : EventRecord} {attachEventId : EventRecordId}
    (h : (Change.detach attachEventId).Of event) {s : ThreadBindingsFold × List EventRecordId}
    (hactive : attachEventId ∈ s.1.active.map ThreadBinding.attachEventId) :
    foldThreadBinding s event = ({ s.1 with
      active := s.1.active.eraseP fun binding => binding.attachEventId = attachEventId },
        attachEventId :: s.2) := by
  obtain ⟨hkind, payload, rfl, hpayload⟩ := h
  have hany : (s.1.active.any fun binding => binding.attachEventId = payload.attachEventId) = true := by
    obtain ⟨binding, hbinding, hid⟩ := List.mem_map.mp hactive
    exact List.any_eq_true.mpr ⟨binding, hbinding, decide_eq_true hid⟩
  simp only [foldThreadBinding, hkind, hpayload, Wire.roundTrips_bindingDetached _, hany, if_true]

theorem eraseP_eq_filter {id : EventRecordId} (h : (active.map attachEventId).Nodup) :
    active.eraseP (fun binding => binding.attachEventId = id) =
      active.filter fun binding => binding.attachEventId ≠ id := by
  induction active with
  | nil => rfl
  | cons binding active ih =>
    obtain ⟨hnot, hnodup⟩ := List.nodup_cons.mp h
    by_cases hid : binding.attachEventId = id
    · rw [List.eraseP_cons_of_pos (by simpa using hid), List.filter_cons_of_neg (by simpa using hid)]
      refine (List.filter_eq_self.mpr fun other hother => ?_).symm
      have hne : other.attachEventId ≠ id := fun hsame =>
        hnot (hid ▸ hsame ▸ List.mem_map_of_mem hother)
      simpa using hne
    · rw [List.eraseP_cons_of_neg (by simpa using hid), List.filter_cons_of_pos (by simpa using hid),
        ih hnodup]

/-- **A fold of detachments and fresh attachments**, in whatever order they stand. -/
theorem foldl_changes {events : List EventRecord} {changes : List Change}
    (h : List.Forall₂ (fun event change => Change.Of event change) events changes)
    {s : ThreadBindingsFold × List EventRecordId}
    (hactive : ((s.1.active ++ attachedBindings changes).map
      attachEventId).Nodup)
    (hdetached : (detachedIds changes).Nodup)
    (hhere : ∀ id ∈ detachedIds changes,
      id ∈ s.1.active.map attachEventId) :
    (events.foldl foldThreadBinding s).1 = { s.1 with
      active := remaining s.1.active (detachedIds changes) ++ attachedBindings changes } := by
  induction h generalizing s with
  | nil => simp [detachedIds, attachedBindings, remaining_nil]
  | @cons event change events changes hof _ ih =>
    cases change with
    | attach binding =>
      rw [List.foldl_cons, foldThreadBinding_attach hof, ih]
      · -- the new binding is none of those that the rest detaches
        have hfresh : binding.attachEventId ∉ detachedIds changes := fun hin => by
          have hmem := hhere binding.attachEventId hin
          rw [List.map_append] at hactive
          exact (List.nodup_append.mp hactive).2.2 _ hmem binding.attachEventId
            List.mem_cons_self rfl
        simp [detachedIds, attachedBindings, remaining_append hfresh]
      · simpa [attachedBindings] using hactive
      · exact hdetached
      · intro id hid
        simpa using .inl (by simpa using hhere id hid)
    | detach id =>
      have hin : id ∈ s.1.active.map attachEventId := hhere id List.mem_cons_self
      have hids : (s.1.active.map attachEventId).Nodup := by
        rw [List.map_append] at hactive
        exact (List.nodup_append.mp hactive).1
      obtain ⟨hfirst, hrest⟩ := List.nodup_cons.mp hdetached
      rw [List.foldl_cons, foldThreadBinding_detach hof hin, eraseP_eq_filter hids, ih]
      · simp only [detachedIds, attachedBindings, remaining_cons]
      · refine List.Nodup.sublist (List.Sublist.map _ ?_) hactive
        exact List.filter_sublist.append (List.Sublist.refl _)
      · exact hrest
      · intro other hother
        obtain ⟨binding, hbinding, rfl⟩ := List.mem_map.mp (hhere other (List.mem_cons_of_mem id hother))
        refine List.mem_map_of_mem (List.mem_filter.mpr ⟨hbinding, ?_⟩)
        have hne : binding.attachEventId ≠ id := fun hsame => hfirst (hsame ▸ hother)
        simpa using hne

theorem active_sublist (history : List EventRecord) :
    ((foldThreadBindings history).active.map attachEventId).Sublist
      (history.map EventRecord.id) := by
  have hgen : ∀ (rest done : List EventRecord) (s : ThreadBindingsFold × List EventRecordId),
      (s.1.active.map attachEventId).Sublist (done.map EventRecord.id) →
        ((rest.foldl foldThreadBinding s).1.active.map attachEventId).Sublist
          ((done ++ rest).map EventRecord.id) := by
    intro rest
    induction rest with
    | nil =>
      intro done s h
      rwa [List.append_nil]
    | cons event rest ih =>
      intro done s h
      have hdone : (done.map EventRecord.id).Sublist ((done ++ [event]).map EventRecord.id) := by
        rw [List.map_append]
        exact List.sublist_append_left _ _
      have hstep : ((foldThreadBinding s event).1.active.map attachEventId).Sublist
          ((done ++ [event]).map EventRecord.id) := by
        unfold foldThreadBinding
        split
        · split
          · simpa using h.append (List.Sublist.refl [event.id])
          · exact h.trans hdone
        · split
          · exact h.trans hdone
          · split
            · exact ((List.eraseP_sublist.map _).trans h).trans hdone
            · split <;> exact h.trans hdone
        · exact h.trans hdone
      have hnext := ih (done ++ [event]) _ hstep
      rwa [List.append_assoc] at hnext
  exact hgen history [] _ (List.Sublist.refl _)

end Folding

/-! ### The delta applied -/

/-- One `binding.detached` for each attachment that the delta removes and one `binding.attached`, under an
id that nothing else has, for each binding that it adds, in any order. -/
def Applied (history : List EventRecord) (delta : ThreadBindingDelta) (appended : List EventRecord) :
    Prop :=
  ∃ changes : List Change, List.Forall₂ (fun event change => Change.Of event change) appended changes ∧
    (detachedIds changes).Perm delta.removedAttachEventIds ∧
    ((attachedBindings changes).map ThreadBinding.payload).Perm delta.addedBindings ∧
    ((history.map EventRecord.id) ++
      (attachedBindings changes).map attachEventId).Nodup

/-- The bindings are those wanted, as far as can be those that there were. -/
structure Reconciled (active : List ThreadBinding) (desired : List BindingAttachedPayload)
    (folded : ThreadBindingsFold) : Prop where
  clean : folded.anomalies = []
  wanted : (folded.active.map ThreadBinding.identity).Perm
    (desired.map BindingAttachedPayload.identity)
  stays : ∀ binding ∈ active, binding.attachEventId ∉
    (reconcileThreadBindings active desired).removedAttachEventIds → binding ∈ folded.active
  kept : ∀ identity, ((folded.active.filter (· ∈ active)).map ThreadBinding.identity).count identity =
    min ((active.map ThreadBinding.identity).count identity)
      ((desired.map BindingAttachedPayload.identity).count identity)
  settled : reconcileThreadBindings folded.active desired = ⟨[], []⟩

theorem removed_reconcile (active : List ThreadBinding) (desired : List BindingAttachedPayload) :
    (reconcileThreadBindings active desired).removedAttachEventIds =
      (unmatchedOf (desired.foldl reconcileBinding (active.map (·, true), [])).1).map
        attachEventId := by
  simp [reconcileThreadBindings, unmatchedOf]

theorem remaining_eq_matched {marks : List (ThreadBinding × Bool)}
    (h : ((marks.map (·.1)).map attachEventId).Nodup) :
    remaining (marks.map (·.1)) ((unmatchedOf marks).map attachEventId) =
      matchedOf marks := by
  rw [List.map_map] at h
  rw [remaining, List.filter_map, matchedOf]
  congr 1
  refine List.filter_congr fun mark hmark => ?_
  have hunmatched : mark.1.attachEventId ∈ (unmatchedOf marks).map attachEventId ↔
      mark.2 = true := by
    simp only [unmatchedOf, List.map_map, List.mem_map, List.mem_filter]
    constructor
    · rintro ⟨other, ⟨hother, htrue⟩, hid⟩
      exact List.inj_on_of_nodup_map h hother hmark hid ▸ htrue
    · exact fun htrue => ⟨mark, ⟨hmark, htrue⟩, rfl⟩
  have hdecide : decide (mark.1.attachEventId ∈ (unmatchedOf marks).map attachEventId) =
      mark.2 := Bool.eq_iff_iff.mpr (decide_eq_true_iff.trans hunmatched)
  exact congrArg (! ·) hdecide

theorem perm_matched (marks : List (ThreadBinding × Bool)) :
    (unmatchedOf marks ++ matchedOf marks).Perm (marks.map (·.1)) := by
  rw [unmatchedOf, matchedOf, ← List.map_append]
  exact (List.filter_append_perm _ _).map _

theorem reconcile_settled {desired : List BindingAttachedPayload}
    (h : (active.map ThreadBinding.identity).Perm (desired.map BindingAttachedPayload.identity)) :
    reconcileThreadBindings active desired = ⟨[], []⟩ := by
  have hmatched := matched_reconcile active desired
  have hnone (identity : BindingIdentity) :
      ((unmatchedOf (desired.foldl reconcileBinding (active.map (·, true), [])).1).map
        ThreadBinding.identity).count identity = 0 ∧
      ((desired.foldl reconcileBinding (active.map (·, true), [])).2.map
        BindingAttachedPayload.identity).count identity = 0 := by
    have hbalanced := hmatched.balanced identity
    have honeSided := hmatched.oneSided identity
    rw [h.count_eq identity] at hbalanced
    omega
  have hempty {α : Type} {f : α → BindingIdentity} {l : List α}
      (hzero : ∀ identity, (l.map f).count identity = 0) : l = [] := by
    cases l with
    | nil => rfl
    | cons a l => exact absurd (hzero (f a)) (by simp)
  have hadded : (reconcileThreadBindings active desired).addedBindings = [] :=
    hempty fun identity => (hnone identity).2
  have hremoved : (reconcileThreadBindings active desired).removedAttachEventIds = [] := by
    rw [removed_reconcile, hempty fun identity => (hnone identity).1]
    rfl
  exact congrArg₂ ThreadBindingDelta.mk hremoved hadded

/-- **What is wanted is had.**  A history whose event ids are distinct and whose fold has no anomaly, with
the delta applied in any order. -/
theorem reconcile_roundTrips {history appended : List EventRecord} {desired : List BindingAttachedPayload}
    (hids : (history.map EventRecord.id).Nodup)
    (hclean : (foldThreadBindings history).anomalies = [])
    (happlied : Applied history (reconcileThreadBindings (foldThreadBindings history).active desired)
      appended) :
    Reconciled (foldThreadBindings history).active desired (foldThreadBindings (history ++ appended)) := by
  obtain ⟨changes, hchanges, hdetached, hattached, hfresh⟩ := happlied
  obtain ⟨_, hattachedIds, hapart⟩ := List.nodup_append.mp hfresh
  have hsub := active_sublist history
  generalize hactive : (foldThreadBindings history).active = active at hdetached hattached hsub
  have hnodup : (active.map attachEventId).Nodup := hids.sublist hsub
  -- what the matching leaves on each side
  have hmatched := matched_reconcile active desired
  rw [removed_reconcile] at hdetached
  have hremoved := removed_reconcile active desired
  have hadded : (reconcileThreadBindings active desired).addedBindings =
    (desired.foldl reconcileBinding (active.map (·, true), [])).2 := rfl
  rw [hadded] at hattached
  generalize desired.foldl reconcileBinding (active.map (·, true), []) = s at *
  have hmarks : (s.1.map (·.1)).map attachEventId =
      active.map attachEventId := by rw [hmatched.same]
  have hremaining : remaining active (detachedIds changes) = matchedOf s.1 := by
    have hsame : remaining active (detachedIds changes) =
        remaining active ((unmatchedOf s.1).map attachEventId) := by
      simp only [remaining, hdetached.mem_iff]
    rw [hsame, ← remaining_eq_matched (hmarks ▸ hnodup), hmatched.same]
  have hperm : (unmatchedOf s.1 ++ matchedOf s.1).Perm active :=
    hmatched.same ▸ perm_matched s.1
  have hunmatched : ∀ id ∈ detachedIds changes, id ∈ active.map attachEventId := by
    intro id hid
    have hin := hdetached.mem_iff.mp hid
    obtain ⟨binding, hbinding, rfl⟩ := List.mem_map.mp hin
    exact List.mem_map_of_mem (hperm.mem_iff.mp (List.mem_append_left _ hbinding))
  -- the fold of the history goes on over what is appended
  have hfold : foldThreadBindings (history ++ appended) =
      ⟨matchedOf s.1 ++ attachedBindings changes, []⟩ := by
    rw [foldThreadBindings, List.foldl_append, foldl_changes hchanges]
    · change (ThreadBindingsFold.mk (remaining (foldThreadBindings history).active _ ++ _)
        (foldThreadBindings history).anomalies) = _
      rw [hclean, hactive, hremaining]
    · change ((((foldThreadBindings history).active) ++ _).map _).Nodup
      rw [hactive, List.map_append]
      exact List.nodup_append.mpr ⟨hnodup, hattachedIds, fun id hid other hother =>
        hapart id (hsub.subset hid) other hother⟩
    · refine hdetached.nodup_iff.mpr ((hperm.map attachEventId).nodup_iff.mpr hnodup
        |>.sublist ?_)
      rw [List.map_append]
      exact List.sublist_append_left _ _
    · change ∀ id ∈ _, id ∈ (foldThreadBindings history).active.map _
      rwa [hactive]
  have hcount (identity : BindingIdentity) :
      ((unmatchedOf s.1).map ThreadBinding.identity).count identity +
        ((matchedOf s.1).map ThreadBinding.identity).count identity =
          (active.map ThreadBinding.identity).count identity := by
    rw [← List.count_append, ← List.map_append]
    exact (hperm.map _).count_eq identity
  have hattachedCount (identity : BindingIdentity) :
      ((attachedBindings changes).map ThreadBinding.identity).count identity =
        (s.2.map BindingAttachedPayload.identity).count identity := by
    have hsame := (hattached.map BindingAttachedPayload.identity).count_eq identity
    rwa [List.map_map] at hsame
  have hwanted : ((matchedOf s.1 ++ attachedBindings changes).map ThreadBinding.identity).Perm
      (desired.map BindingAttachedPayload.identity) := by
    refine List.perm_iff_count.mpr fun identity => ?_
    have hbalanced := hmatched.balanced identity
    have hactiveCount := hcount identity
    rw [List.map_append, List.count_append, hattachedCount]
    omega
  rw [hfold]
  refine ⟨rfl, hwanted, fun binding hbinding hstays => ?_, fun identity => ?_, reconcile_settled hwanted⟩
  · rw [hremoved] at hstays
    refine List.mem_append_left _ (hremaining ▸ List.mem_filter.mpr ⟨hbinding, ?_⟩)
    simpa [hdetached.mem_iff] using hstays
  · -- of the bindings there are now, those that there were are the matched
    have hfilter : (matchedOf s.1 ++ attachedBindings changes).filter (· ∈ active) = matchedOf s.1 := by
      rw [List.filter_append, List.filter_eq_self.mpr, List.filter_eq_nil_iff.mpr, List.append_nil]
      · intro binding hbinding hin
        exact hapart _ (hsub.subset (List.mem_map_of_mem (of_decide_eq_true hin))) _
          (List.mem_map_of_mem hbinding) rfl
      · exact fun binding hbinding =>
        decide_eq_true (hperm.mem_iff.mp (List.mem_append_right _ hbinding))
    have hbalanced := hmatched.balanced identity
    have honeSided := hmatched.oneSided identity
    have hactiveCount := hcount identity
    rw [hfilter]
    omega

/-! ### One binding in another's stead -/

def namedBinding (name : String) : BindingAttachedPayload :=
  ⟨name, "sha256:" ++ name, [], [], .empty, .atMostOnce, "principal:operator", "principal:operator", none⟩

/-- The event of a thread's stream that the draws number. -/
def bindingEvent (n : Nat) (kind : EventKind) (payload : Json) : EventRecord :=
  .fromNew (.forThread (.counted "user" 1)) n (.witnessed (.counted n) (.counted "user" 1) kind payload)

theorem reconcile_roundTrips_swap :
    Reconciled
      (foldThreadBindings [bindingEvent 1 .bindingAttached
        (Wire.bindingAttached.toValue (namedBinding "search"))]).active
      [namedBinding "shell"]
      (foldThreadBindings ([bindingEvent 1 .bindingAttached
          (Wire.bindingAttached.toValue (namedBinding "search"))] ++
        [bindingEvent 2 .bindingAttached (Wire.bindingAttached.toValue (namedBinding "shell")),
          bindingEvent 3 .bindingDetached (Wire.bindingDetached.toValue
            ⟨(History.Draw.counted 1).eventId, "principal:operator", "principal:operator", none⟩)])) := by
  have hof : (Change.attach ⟨(History.Draw.counted 1).eventId, namedBinding "search"⟩).Of
      (bindingEvent 1 .bindingAttached (Wire.bindingAttached.toValue (namedBinding "search"))) :=
    ⟨rfl, rfl, rfl⟩
  have hfold : foldThreadBindings [bindingEvent 1 .bindingAttached
      (Wire.bindingAttached.toValue (namedBinding "search"))] =
        ⟨[⟨(History.Draw.counted 1).eventId, namedBinding "search"⟩], []⟩ := by
    rw [foldThreadBindings, List.foldl_cons, foldThreadBinding_attach hof]
    rfl
  refine reconcile_roundTrips (by decide) (congrArg ThreadBindingsFold.anomalies hfold) ?_
  rw [hfold]
  refine ⟨[.attach ⟨(History.Draw.counted 2).eventId, namedBinding "shell"⟩,
    .detach (History.Draw.counted 1).eventId], ?_, .refl _, .refl _, by decide⟩
  exact .cons ⟨rfl, rfl, rfl⟩ (.cons ⟨rfl, _, rfl, rfl⟩ .nil)

end Verlet.Kernel
