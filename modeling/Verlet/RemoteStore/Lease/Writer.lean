import Verlet.Support.Runs
import Verlet.RemoteStore.Lease.Steps

/-!
# Remote store — Leases — One live writer

`Orderly` is the invariant of the lease table: ids and generations are unique, and live scopes do
not overlap.  Over it the fence says what it means: a lease is current for a stream exactly when it
is the live lease that authorizes it, before its deadline (`fenceDecision_current_iff`).

A lease is `Retired` once it was released or outranked; it stays so, since rows are never deleted,
generations only grow and nothing unreleases.
-/

namespace Verlet.RemoteStore
open Support
open History (EventStreamId)

variable {Text : Type} {leases : List DurableLease}

/-- The invariant of the lease table. -/
structure Orderly (leases : List DurableLease) : Prop where
  /-- An id names one row. -/
  ids : (leases.map (·.leaseId)).Nodup
  /-- A scope grants each generation once. -/
  generations : ∀ lease ∈ leases, ∀ lease' ∈ leases, lease.scope = lease'.scope →
    lease.scopeGeneration = lease'.scopeGeneration → lease = lease'
  /-- Live scopes do not overlap. -/
  disjoint : ∀ lease ∈ leases, ∀ lease' ∈ leases, liveIn leases lease = true →
    liveIn leases lease' = true → lease.scope ≠ lease'.scope →
      scopesOverlap lease.scope lease'.scope = false

theorem orderly_nil : Orderly [] := ⟨List.nodup_nil, by simp, by simp⟩

variable {lease : DurableLease}

theorem Orderly.eq_of_leaseId (h : Orderly leases) {lease' : DurableLease} (hl : lease ∈ leases)
    (hl' : lease' ∈ leases) (hid : lease.leaseId = lease'.leaseId) :
    lease = lease' := List.inj_on_of_nodup_map h.ids hl hl' hid

theorem Orderly.eq_of_overlap (h : Orderly leases) {lease' : DurableLease} (hl : lease ∈ leases)
    (hl' : lease' ∈ leases) (hlive : liveIn leases lease = true)
    (hlive' : liveIn leases lease' = true) (hover : scopesOverlap lease.scope lease'.scope = true) :
    lease = lease' := by
  by_cases hs : lease.scope = lease'.scope
  · have hle := ((liveIn_iff hl').mp hlive').2 lease hl hs
    have hge := ((liveIn_iff hl).mp hlive).2 lease' hl' hs.symm
    exact h.generations lease hl lease' hl' hs (le_antisymm hle hge)
  · rw [h.disjoint lease hl lease' hl' hlive hlive' hs] at hover
    cases hover

/-! ### Every call keeps the table orderly -/

theorem Orderly.map (h : Orderly leases) {f : DurableLease → DurableLease} (hf : KeepsLease f) :
    Orderly (leases.map f) := by
  have hlive : ∀ lease ∈ leases, liveIn (leases.map f) (f lease) = true →
      liveIn leases lease = true := by
    intro lease hl hlive
    obtain ⟨hr, hmax⟩ := (liveIn_iff (List.mem_map_of_mem hl)).mp hlive
    refine (liveIn_iff hl).mpr ⟨?_, ?_⟩
    · by_contra hne
      exact hf.released lease hne hr
    · intro other ho hs
      have := hmax (f other) (List.mem_map_of_mem ho) (by rw [hf.scope, hf.scope, hs])
      rwa [hf.generation, hf.generation] at this
  refine ⟨?_, ?_, ?_⟩
  · have hids : (leases.map f).map (·.leaseId) = leases.map (·.leaseId) := by
      rw [List.map_map]
      exact List.map_congr_left fun lease _ => hf.leaseId lease
    rw [hids]
    exact h.ids
  · intro _ hin _ hin' hs hg
    obtain ⟨lease, hl, rfl⟩ := List.mem_map.mp hin
    obtain ⟨lease', hl', rfl⟩ := List.mem_map.mp hin'
    rw [hf.scope, hf.scope] at hs
    rw [hf.generation, hf.generation] at hg
    rw [h.generations lease hl lease' hl' hs hg]
  · intro _ hin _ hin' hv hv' hs
    obtain ⟨lease, hl, rfl⟩ := List.mem_map.mp hin
    obtain ⟨lease', hl', rfl⟩ := List.mem_map.mp hin'
    rw [hf.scope, hf.scope] at hs ⊢
    exact h.disjoint lease hl lease' hl' (hlive lease hl hv) (hlive lease' hl' hv') hs

theorem Orderly.grant (h : Orderly leases) (hid : ∀ other ∈ leases, other.leaseId ≠ lease.leaseId)
    (hrank : ∀ other ∈ leases, other.scope = lease.scope →
      other.scopeGeneration < lease.scopeGeneration)
    (hover : ∀ other ∈ leases, liveIn leases other = true → other.scope ≠ lease.scope →
      scopesOverlap other.scope lease.scope = false) : Orderly (leases ++ [lease]) := by
  have hmem : ∀ {l : DurableLease}, l ∈ leases ++ [lease] → l ∈ leases ∨ l = lease := by
    intro l hl
    rwa [List.mem_append, List.mem_singleton] at hl
  have hlast : lease ∈ leases ++ [lease] := List.mem_append_right _ (List.mem_singleton_self _)
  -- what was granted before and is live now was live then, and of another scope
  have hlive : ∀ other ∈ leases, liveIn (leases ++ [lease]) other = true →
      liveIn leases other = true ∧ other.scope ≠ lease.scope := by
    intro other ho hlive
    obtain ⟨hr, hmax⟩ := (liveIn_iff (List.mem_append_left _ ho)).mp hlive
    refine ⟨(liveIn_iff ho).mpr ⟨hr, fun l hl hs => hmax l (List.mem_append_left _ hl) hs⟩, ?_⟩
    intro hs
    exact absurd (hrank other ho hs) (not_lt.mpr (hmax lease hlast hs.symm))
  refine ⟨?_, ?_, ?_⟩
  · rw [List.map_append, List.map_singleton, List.nodup_append]
    refine ⟨h.ids, List.nodup_singleton _, ?_⟩
    intro id hin id' hin' heq
    obtain ⟨other, ho, rfl⟩ := List.mem_map.mp hin
    rw [List.mem_singleton] at hin'
    exact hid other ho (heq.trans hin')
  · intro l hin l' hin' hs hg
    rcases hmem hin with hl | rfl <;> rcases hmem hin' with hl' | rfl
    · exact h.generations l hl l' hl' hs hg
    · exact absurd hg (hrank l hl hs).ne
    · exact absurd hg.symm (hrank l' hl' hs.symm).ne
    · rfl
  · intro l hin l' hin' hv hv' hs
    rcases hmem hin with hl | rfl <;> rcases hmem hin' with hl' | rfl
    · exact h.disjoint l hl l' hl' (hlive l hl hv).1 (hlive l' hl' hv').1 hs
    · exact hover l hl (hlive l hl hv).1 hs
    · rw [scopesOverlap_comm]
      exact hover l' hl' (hlive l' hl' hv').1 hs.symm
    · exact absurd rfl hs

variable {db db' : AuthorityDb Text}

/-- **Every call keeps the table orderly.** -/
theorem Orderly.moves (h : Orderly db.leases) (hm : Moves db db') : Orderly db'.leases := by
  cases hm with
  | stays hl | mints _ hl => rwa [hl]
  | grants hid hrank hover _ hl =>
    rw [hl]
    exact h.grant hid hrank hover
  | updates hf _ hl =>
    rw [hl]
    exact h.map hf

/-! ### The fence -/

theorem Orderly.latest_iff (h : Orderly leases) (hl : lease ∈ leases) :
    isLatestUnreleased leases lease = true ↔ liveIn leases lease = true := by
  rw [liveIn_iff hl, isLatestUnreleased, decide_eq_true_eq, Option.isNone_iff_eq_none]
  refine and_congr_right fun _ => ?_
  cases hlatest : latestLeaseForScope leases lease.scope with
  | none => exact absurd rfl (latestLeaseForScope_eq_none.mp hlatest lease hl)
  | some latest =>
    obtain ⟨hmem, hs, hmax⟩ := latestLeaseForScope_eq_some hlatest
    rw [Option.map_some, Option.some.injEq]
    constructor
    · intro hid other ho hso
      rw [← h.eq_of_leaseId hmem hl hid]
      exact hmax other ho hso
    · intro hrank
      rw [h.generations latest hmem lease hl hs
        (le_antisymm (hrank latest hmem hs) (hmax lease hl rfl))]

/-- The live leases that authorize a stream are one at most: live scopes that share a stream
overlap. -/
theorem Orderly.covering_eq (h : Orderly leases) {streamId : EventStreamId} (hl : lease ∈ leases)
    (hlive : liveIn leases lease = true) (hauth : lease.scope.authorizes streamId = true) :
    (latestUnreleasedLeases leases).filter (fun candidate =>
      candidate.scope.authorizes streamId) = [lease] := by
  have hmem : ∀ candidate, candidate ∈ (latestUnreleasedLeases leases).filter
      (fun candidate => candidate.scope.authorizes streamId) ↔ candidate = lease := by
    intro candidate
    rw [List.mem_filter, latestUnreleasedLeases, List.mem_insertionSort, List.mem_filter, and_assoc]
    constructor
    · intro hc
      obtain ⟨hin, hlive', hauth'⟩ := hc
      exact h.eq_of_overlap hin hl hlive' hlive (scopesOverlap_of_authorizes hauth' hauth)
    · intro hc
      subst hc
      exact ⟨hl, hlive, hauth⟩
  have hnodup : ((latestUnreleasedLeases leases).filter
      (fun candidate => candidate.scope.authorizes streamId)).Nodup := by
    refine List.Nodup.filter _ ?_
    rw [latestUnreleasedLeases, (List.perm_insertionSort _ _).nodup_iff]
    exact (List.Nodup.of_map _ h.ids).filter _
  generalize (latestUnreleasedLeases leases).filter
    (fun candidate => candidate.scope.authorizes streamId) = covering at hmem hnodup
  cases covering with
  | nil => exact absurd ((hmem lease).mpr rfl) List.not_mem_nil
  | cons first rest =>
    obtain rfl := (hmem first).mp List.mem_cons_self
    cases rest with
    | nil => rfl
    | cons second rest =>
      obtain rfl := (hmem second).mp (.tail _ List.mem_cons_self)
      simp at hnodup

/-- **The fence lets exactly the live lease of the stream through**, before its deadline. -/
theorem fenceDecision_current_iff (h : Orderly leases) {streamId : EventStreamId}
    {presented : StreamLeaseId} {nowMs : Int} :
    fenceDecision leases streamId presented nowMs = .current ↔
      ∃ lease ∈ leases, lease.leaseId = presented ∧ liveIn leases lease = true ∧
        lease.scope.authorizes streamId = true ∧ nowMs < lease.expiresAtMs := by
  unfold fenceDecision
  cases hfound : leaseById leases presented with
  | none =>
    simp only [reduceCtorEq, false_iff, not_exists, not_and]
    intro lease hl hid
    have := List.find?_eq_none.mp hfound lease hl
    simp [hid] at this
  | some lease =>
    obtain ⟨hl, rfl⟩ := leaseById_eq_some hfound
    have hone : (∃ other ∈ leases, other.leaseId = lease.leaseId ∧ liveIn leases other = true ∧
        other.scope.authorizes streamId = true ∧ nowMs < other.expiresAtMs) ↔
        liveIn leases lease = true ∧ lease.scope.authorizes streamId = true ∧
          nowMs < lease.expiresAtMs := by
      refine ⟨?_, fun hlease => ⟨lease, hl, rfl, hlease⟩⟩
      intro hother
      obtain ⟨other, ho, hid, hrest⟩ := hother
      rwa [h.eq_of_leaseId ho hl hid] at hrest
    rw [hone]
    dsimp only
    by_cases hauth : lease.scope.authorizes streamId = true
    · have hlatest : (lease.releasedAtMs.isSome ∨
          (latestLeaseForScope leases lease.scope).map (·.leaseId) ≠ some lease.leaseId) ↔
          ¬ liveIn leases lease = true := by
        rw [← h.latest_iff hl, isLatestUnreleased, decide_eq_true_eq, not_and_or,
          Option.isNone_iff_eq_none, Option.isSome_iff_ne_none]
      by_cases hlive : liveIn leases lease = true
      · rw [if_neg (not_not.mpr hauth), if_neg (mt hlatest.mp (not_not.mpr hlive)),
          h.covering_eq hl hlive hauth]
        by_cases hexp : lease.expiresAtMs ≤ nowMs
        · simp [hexp, not_lt.mpr hexp]
        · simp [hexp, not_le.mp hexp, hlive, hauth]
      · rw [if_neg (not_not.mpr hauth), if_pos (hlatest.mpr hlive)]
        simp [hlive]
    · rw [if_pos hauth]
      simp [hauth]

/-! ### Retired leases -/

/-- The lease was released, or a later grant of its scope outranks it. -/
def Retired (leases : List DurableLease) (leaseId : StreamLeaseId) : Prop :=
  ∃ lease ∈ leases, lease.leaseId = leaseId ∧ (lease.releasedAtMs ≠ none ∨
    ∃ later ∈ leases, later.scope = lease.scope ∧ lease.scopeGeneration < later.scopeGeneration)

variable {leaseId : StreamLeaseId}

theorem Retired.not_live (h : Orderly leases) (hr : Retired leases leaseId) (hl : lease ∈ leases)
    (hid : lease.leaseId = leaseId) : liveIn leases lease = false := by
  obtain ⟨retired, hin, hid', hwhy⟩ := hr
  obtain rfl := h.eq_of_leaseId hl hin (hid.trans hid'.symm)
  rw [Bool.eq_false_iff]
  intro hlive
  obtain ⟨hunreleased, hmax⟩ := (liveIn_iff hl).mp hlive
  rcases hwhy with hreleased | ⟨later, hlater, hs, hlt⟩
  · exact hreleased hunreleased
  · exact absurd (hmax later hlater hs) (not_le.mpr hlt)

theorem Retired.moves (hr : Retired db.leases leaseId) (hm : Moves db db') :
    Retired db'.leases leaseId := by
  obtain ⟨lease, hl, hid, hwhy⟩ := hr
  cases hm with
  | stays hleases | mints _ hleases =>
    rw [hleases]
    exact ⟨lease, hl, hid, hwhy⟩
  | @grants new g _ _ _ _ hleases =>
    rw [hleases]
    refine ⟨lease, List.mem_append_left _ hl, hid, hwhy.imp_right ?_⟩
    intro hlater
    obtain ⟨later, hin, hlater⟩ := hlater
    exact ⟨later, List.mem_append_left _ hin, hlater⟩
  | @updates f g hf _ hleases =>
    rw [hleases]
    refine ⟨f lease, List.mem_map_of_mem hl, (hf.leaseId lease).trans hid, ?_⟩
    rcases hwhy with hreleased | ⟨later, hin, hs, hlt⟩
    · exact .inl (hf.released lease hreleased)
    · refine .inr ⟨f later, List.mem_map_of_mem hin, ?_, ?_⟩
      · rw [hf.scope, hf.scope, hs]
      · rwa [hf.generation, hf.generation]

theorem Retired.fenceDecision_ne (h : Orderly leases) (hr : Retired leases leaseId)
    (streamId : EventStreamId) (nowMs : Int) :
    fenceDecision leases streamId leaseId nowMs ≠ .current := by
  intro hcurrent
  obtain ⟨lease, hl, hid, hlive, -⟩ := (fenceDecision_current_iff h).mp hcurrent
  rw [hr.not_live h hl hid] at hlive
  cases hlive

/-! ### Credentials -/

def MintedFor (credentials : List CredentialRow) (digest : String) (leaseId : StreamLeaseId) : Prop :=
  (∃ credential ∈ credentials, credential.tokenDigest = digest) ∧
    ∀ credential ∈ credentials, credential.tokenDigest = digest → credential.leaseId = leaseId

theorem MintedFor.map {credentials : List CredentialRow} {digest : String}
    (h : MintedFor credentials digest leaseId) {g : CredentialRow → CredentialRow}
    (hg : KeepsCredential g) : MintedFor (credentials.map g) digest leaseId := by
  obtain ⟨⟨credential, hin, hd⟩, hall⟩ := h
  refine ⟨⟨g credential, List.mem_map_of_mem hin, (hg.tokenDigest credential).trans hd⟩, ?_⟩
  intro _ hin' hd'
  obtain ⟨other, ho, rfl⟩ := List.mem_map.mp hin'
  rw [hg.tokenDigest] at hd'
  rw [hg.leaseId]
  exact hall other ho hd'

theorem MintedFor.moves {digest : String} (h : MintedFor db.credentials digest leaseId)
    (hm : Moves db db') : MintedFor db'.credentials digest leaseId := by
  cases hm with
  | stays _ hc => rwa [hc]
  | grants _ _ _ hg _ hc | updates _ hg _ hc =>
    rw [hc]
    exact h.map hg
  | @mints new hdigest _ hc =>
    obtain ⟨⟨credential, hin, hd⟩, hall⟩ := h
    rw [hc]
    refine ⟨⟨credential, List.mem_append_left _ hin, hd⟩, ?_⟩
    intro other ho hd'
    rcases List.mem_append.mp ho with ho | ho
    · exact hall other ho hd'
    · rw [List.mem_singleton] at ho
      subst ho
      exact absurd (hd.trans hd'.symm) (hdigest credential hin)

theorem verifyToken_of_retired {authority : StreamLeaseAuthority} {token : String}
    (h : Orderly db.leases)
    (hminted : MintedFor db.credentials (authority.tokenDigest token) leaseId)
    (hr : Retired db.leases leaseId) : verifyToken authority db token = none := by
  rw [verifyToken, Option.map_eq_none_iff, List.find?_eq_none]
  intro credential hin hverified
  obtain ⟨hdigest, -, hlease⟩ := of_decide_eq_true hverified
  obtain ⟨lease, hl, hlive⟩ := List.any_eq_true.mp hlease
  obtain ⟨hid, -, hlive⟩ := of_decide_eq_true hlive
  rw [hr.not_live h hl (hid.trans (hminted.2 credential hin hdigest))] at hlive
  cases hlive

/-! ### Runs -/

section Runs

variable {authority : StreamLeaseAuthority} {codec : History.Sqlite.Codec Text}

theorem orderly_run (authority : StreamLeaseAuthority) (codec : History.Sqlite.Codec Text)
    (calls : List AuthorityCall) : Orderly (run (authorityStep authority codec) calls .empty).leases :=
  run_invariant (P := fun db : AuthorityDb Text => Orderly db.leases)
    (fun db call h => h.moves (authorityStep_moves authority codec call db)) calls orderly_nil

/-- The call retires the lease: it grants its scope anew and names it as the predecessor, or it
releases it, a lease of the table. -/
def Retires (authority : StreamLeaseAuthority) (codec : History.Sqlite.Codec Text)
    (db : AuthorityDb Text) (call : AuthorityCall) (leaseId : StreamLeaseId) : Prop :=
  (∃ reply, (authorityStep authority codec call db).1 = .ok reply) ∧
    match call.op with
    | .grantLease _ _ lineage => lineage.supersededLeaseId = some leaseId
    | .releaseLease released => released = leaseId ∧ ∃ lease ∈ db.leases, lease.leaseId = leaseId
    | _ => False

theorem retired_of_not_live (hl : lease ∈ leases) (hlive : liveIn leases lease = false) :
    Retired leases lease.leaseId := by
  refine ⟨lease, hl, rfl, ?_⟩
  by_contra hneither
  rw [not_or, not_not] at hneither
  have := (liveIn_iff hl).mpr ⟨hneither.1, fun other ho hs => ?_⟩
  · rw [hlive] at this
    cases this
  · by_contra hlt
    exact hneither.2 ⟨other, ho, hs, not_le.mp hlt⟩

theorem Retires.retired {call : AuthorityCall} (h : Retires authority codec db call leaseId)
    (ho : Orderly db.leases) :
    Retired (authorityStep authority codec call db).2.leases leaseId := by
  obtain ⟨nowMs, draws, leaseEpoch, op⟩ := call
  obtain ⟨⟨reply, hok⟩, hcall⟩ := h
  rcases hstep : authorityStep authority codec ⟨nowMs, draws, leaseEpoch, op⟩ db with ⟨result, db'⟩
  rw [hstep] at hok
  obtain rfl : result = .ok reply := hok
  cases op with
  | grantLease scope holder lineage =>
    obtain ⟨grant, hgrant, -⟩ := exec_map_ok.mp hstep
    obtain ⟨lease, hs, -, hlineage, -, hrank, -, -, hleases, -⟩ := grantLease_ok hgrant
    rw [hleases]
    unfold lineageMatches at hlineage
    split at hlineage
    · rename_i hnone
      rw [hcall] at hnone
      cases hnone
    · rename_i previous named hlatest hnamed
      rw [hcall] at hnamed
      cases hnamed
      -- the named predecessor is the latest of the scope, and the new grant outranks it
      obtain ⟨hin, hscope, -⟩ := latestLeaseForScope_eq_some hlatest
      refine ⟨previous, List.mem_append_left _ hin, of_decide_eq_true hlineage, .inr ⟨lease, ?_, ?_⟩⟩
      · exact List.mem_append_right _ (List.mem_singleton_self _)
      · exact ⟨hs.trans hscope.symm, hrank previous hin (hscope.trans hs.symm)⟩
    · cases hlineage
  | releaseLease released =>
    obtain ⟨rfl, known, hknown, hid⟩ := hcall
    obtain ⟨u, hrelease, -⟩ := exec_map_ok.mp hstep
    rcases releaseLease_ok hrelease with ⟨lease, hfound, -, -, hleases, -⟩ | ⟨hdead, hsame⟩
    · obtain ⟨hin, hid'⟩ := leaseById_eq_some hfound
      rw [hleases]
      refine ⟨_, List.mem_map_of_mem hin, ?_, .inl ?_⟩
      · exact (((keepsLease_released nowMs).updatedAt _).leaseId lease).trans hid'
      · rw [updatedAt, if_pos hid']
        exact Option.some_ne_none _
    · -- the release found it superseded or released already
      rw [hsame]
      cases hfound : leaseById db.leases released with
      | none =>
        have := List.find?_eq_none.mp hfound known hknown
        simp [hid] at this
      | some lease =>
        obtain ⟨hin, hid'⟩ := leaseById_eq_some hfound
        have hlive : liveIn db.leases lease = false := by
          rw [Bool.eq_false_iff]
          intro hlive
          rw [← ho.latest_iff hin, hdead lease hfound] at hlive
          cases hlive
        exact hid' ▸ retired_of_not_live hin hlive
  | renewLease | appendIfCurrent | mintCredential | revokeCredential | history => exact hcall.elim

theorem mintedFor_of_reply {calls : List AuthorityCall} {credential : StreamWriteCredentialV1}
    {token : String}
    (h : .ok (.minted credential token) ∈ replies (authorityStep authority codec) calls db) :
    MintedFor (run (authorityStep authority codec) calls db).credentials
      (authority.tokenDigest token) credential.leaseId := by
  induction calls generalizing db with
  | nil => cases h
  | cons call calls ih =>
    rcases List.mem_cons.mp h with hfirst | hrest
    · -- the digest is new when its row goes in
      have hminted : MintedFor (authorityStep authority codec call db).2.credentials
          (authority.tokenDigest token) credential.leaseId := by
        obtain ⟨nowMs, draws, leaseEpoch, op⟩ := call
        rcases hstep : authorityStep authority codec ⟨nowMs, draws, leaseEpoch, op⟩ db with
          ⟨result, db'⟩
        rw [hstep] at hfirst
        obtain rfl : _ = result := hfirst
        cases op with
        | mintCredential grant =>
          obtain ⟨minted, hmint, heq⟩ := exec_map_ok.mp hstep
          cases heq
          obtain ⟨row, -, hnew, hdigest, hlease, -, -, hc⟩ := mintCredential_ok hmint
          rw [hc, ← hdigest, ← hlease]
          refine ⟨⟨row, List.mem_append_right _ (List.mem_singleton_self _), rfl⟩, ?_⟩
          intro other hin hd
          rcases List.mem_append.mp hin with hin | hin
          · exact absurd hd (hnew other hin)
          · rw [List.mem_singleton.mp hin]
        | grantLease | renewLease | releaseLease | appendIfCurrent | revokeCredential | history =>
          obtain ⟨_, -, heq⟩ := exec_map_ok.mp hstep
          cases heq
      exact run_invariant (P := fun db : AuthorityDb Text =>
          MintedFor db.credentials (authority.tokenDigest token) credential.leaseId)
        (fun db call h => h.moves (authorityStep_moves authority codec call db)) calls hminted
    · exact ih hrest

/-- **One live writer.**  After every sequence of calls, whatever the clock read: at most one lease
is current for a stream, and live scopes do not overlap; and once a lease was superseded or
released, it appends nothing and no token minted for it verifies. -/
theorem single_live_writer (authority : StreamLeaseAuthority) (codec : History.Sqlite.Codec Text)
    (calls : List AuthorityCall) (db : AuthorityDb Text)
    (hrun : db = run (authorityStep authority codec) calls .empty) :
    (∀ streamId nowMs nowMs' leaseId leaseId',
      fenceDecision db.leases streamId leaseId nowMs = .current →
      fenceDecision db.leases streamId leaseId' nowMs' = .current → leaseId = leaseId') ∧
    (∀ lease ∈ db.leases, ∀ lease' ∈ db.leases, liveIn db.leases lease = true →
      liveIn db.leases lease' = true → lease ≠ lease' →
        scopesOverlap lease.scope lease'.scope = false) ∧
    ∀ before call after leaseId, calls = before ++ call :: after →
      Retires authority codec (run (authorityStep authority codec) before .empty) call leaseId →
      (∀ leaseEpoch nowMs streamId expected records,
        (exec (appendIfCurrent codec leaseEpoch nowMs streamId leaseId expected records) db).2 = db ∧
        ∀ ack, (exec (appendIfCurrent codec leaseEpoch nowMs streamId leaseId expected records)
          db).1 ≠ .ok (.appended ack)) ∧
      ∀ credential token, credential.leaseId = leaseId →
        .ok (.minted credential token) ∈ replies (authorityStep authority codec) calls .empty →
          verifyToken authority db token = none := by
  have horder : Orderly db.leases := hrun ▸ orderly_run authority codec calls
  refine ⟨?_, ?_, ?_⟩
  · intro streamId nowMs nowMs' leaseId leaseId' h h'
    obtain ⟨lease, hl, rfl, hlive, hauth, -⟩ := (fenceDecision_current_iff horder).mp h
    obtain ⟨lease', hl', rfl, hlive', hauth', -⟩ := (fenceDecision_current_iff horder).mp h'
    rw [horder.eq_of_overlap hl hl' hlive hlive' (scopesOverlap_of_authorizes hauth hauth')]
  · intro lease hl lease' hl' hlive hlive' hne
    rw [Bool.eq_false_iff]
    intro hover
    exact hne (horder.eq_of_overlap hl hl' hlive hlive' hover)
  · intro before call after leaseId hcalls hretires
    have hretired : Retired db.leases leaseId := by
      rw [hrun, hcalls, run_append]
      exact run_invariant (P := fun db : AuthorityDb Text => Retired db.leases leaseId)
        (fun db call h => h.moves (authorityStep_moves authority codec call db)) after
        (hretires.retired (orderly_run authority codec before))
    refine ⟨?_, ?_⟩
    · intro leaseEpoch nowMs streamId expected records
      rcases appendIfCurrent_cases db with h | ⟨hcurrent, -⟩
      · exact h
      · exact absurd hcurrent (hretired.fenceDecision_ne horder streamId nowMs)
    · intro credential token hlease hminted
      refine verifyToken_of_retired horder ?_ hretired
      have := mintedFor_of_reply hminted
      rwa [hlease, ← hrun] at this

end Runs

/-! ### A sample run -/

/-- An authority of a sample run, whose SHA-256 is right for the one token minted. -/
def StreamLeaseAuthority.sample : StreamLeaseAuthority where
  leaseTtlMs := 60000
  sha256 _ := "4f9740afd8ab951860297a535e20a5806fbdc0dce6aad01120511aa423caedc4"

/-- A call of a sample run, drawing from `n` on. -/
def AuthorityCall.counted (nowMs : Int) (n : Nat) (op : AuthorityOp) : AuthorityCall :=
  ⟨nowMs, fun i => ⟨BitVec.ofNat 128 (n + i)⟩, 0, op⟩

/-- The lease whose grant drew `n` in a sample run. -/
def StreamLeaseId.counted (n : Nat) : StreamLeaseId := ⟨"lease_" ++ (Uuid.mk (BitVec.ofNat 128 n)).text⟩

def StreamLeaseGrantV1.sample : StreamLeaseGrantV1 :=
  ⟨syncStreamLeaseSchemaV1, .counted 1, ⟨"thread:child"⟩, ⟨"dispatch"⟩, ⟨none⟩, 0, 60000⟩

/-- A lease, and a credential for it. -/
def sampleCalls : List AuthorityCall :=
  [.counted 0 1 (.grantLease ⟨"thread:child"⟩ ⟨"dispatch"⟩ ⟨none⟩),
   .counted 10 2 (.mintCredential .sample)]

def sampleToken : String :=
  "cooldis_sync_" ++ (Uuid.mk (BitVec.ofNat 128 3)).simple ++
    (Uuid.mk (BitVec.ofNat 128 4)).simple

set_option maxRecDepth 100000 in
/-- A takeover, and the token of the lease it names verifies no more. -/
theorem single_live_writer_takeover :
    (verifyToken .sample (run (authorityStep .sample .tagged) sampleCalls .empty)
      sampleToken).isSome = true ∧
    verifyToken .sample (run (authorityStep .sample .tagged) (sampleCalls ++
      [.counted 20 9 (.grantLease ⟨"thread:child"⟩ ⟨"dispatch2"⟩ ⟨some (.counted 1)⟩)]) .empty)
      sampleToken = none := by
  refine ⟨by decide, ?_⟩
  have htakeover := (single_live_writer .sample .tagged (sampleCalls ++
    [.counted 20 9 (.grantLease ⟨"thread:child"⟩ ⟨"dispatch2"⟩ ⟨some (.counted 1)⟩)]) _ rfl).2.2
      sampleCalls _ [] (.counted 1) rfl ⟨⟨_, rfl⟩, rfl⟩
  refine htakeover.2
    ⟨syncStreamWriteCredentialSchemaV1, "credential_" ++ (Uuid.mk (BitVec.ofNat 128 2)).text,
      ⟨"thread:child"⟩, .counted 1, 10⟩ sampleToken rfl ?_
  decide

end Verlet.RemoteStore
