import Verlet.History.Sqlite.Steps
import Verlet.RemoteStore.Lease

/-!
# Remote store — Leases — Steps

What a call of the authority can do to its tables: nothing, a new lease that outranks its scope, a
column updated in place, a new credential.  Leases and credentials are never deleted, and what
names them never changes.

* `latest_iff`, `liveIn_iff`: what the queries for the latest grant answer.
-/

namespace Verlet.RemoteStore
open Support History

variable {Text : Type} {leases : List DurableLease}

/-! ### The latest grant -/

variable {scope : StreamPrefixScope}

theorem maxGeneration_eq_some {generation : Int} :
    maxGeneration leases scope = some generation ↔
      (∃ lease ∈ leases, lease.scope = scope ∧ lease.scopeGeneration = generation) ∧
      ∀ lease ∈ leases, lease.scope = scope → lease.scopeGeneration ≤ generation := by
  unfold maxGeneration
  rw [List.max?_eq_some_iff]
  simp only [List.mem_map, List.mem_filter, decide_eq_true_eq, and_assoc, forall_exists_index,
    and_imp]
  refine and_congr_right fun _ => ⟨fun h lease hl hs => h _ lease hl hs rfl, ?_⟩
  intro h _ lease hl hs hg
  exact hg ▸ h lease hl hs

variable {lease : DurableLease}

theorem liveIn_iff (hmem : lease ∈ leases) :
    liveIn leases lease = true ↔ lease.releasedAtMs = none ∧
      ∀ other ∈ leases, other.scope = lease.scope →
        other.scopeGeneration ≤ lease.scopeGeneration := by
  unfold liveIn
  rw [decide_eq_true_eq, maxGeneration_eq_some, Option.isNone_iff_eq_none]
  exact and_congr_right fun _ => and_iff_right ⟨lease, hmem, rfl, rfl⟩

theorem latestLeaseForScope_eq_some (h : latestLeaseForScope leases scope = some lease) :
    lease ∈ leases ∧ lease.scope = scope ∧
      ∀ other ∈ leases, other.scope = scope → other.scopeGeneration ≤ lease.scopeGeneration := by
  obtain ⟨rest, hsort⟩ := List.head?_eq_some_iff.mp h
  have hmem : ∀ other, other ∈ lease :: rest ↔ other ∈ leases ∧ other.scope = scope := by
    intro other
    rw [← hsort, List.mem_insertionSort, List.mem_filter, decide_eq_true_eq]
  have hsorted : (lease :: rest).Pairwise fun a b => b.scopeGeneration ≤ a.scopeGeneration := by
    rw [← hsort]
    have : Std.Total fun a b : DurableLease => b.scopeGeneration ≤ a.scopeGeneration :=
      ⟨fun a b => le_total _ _⟩
    have : IsTrans DurableLease fun a b => b.scopeGeneration ≤ a.scopeGeneration :=
      ⟨fun a b c hab hbc => hbc.trans hab⟩
    exact List.pairwise_insertionSort _ _
  obtain ⟨hl, hs⟩ := (hmem lease).mp List.mem_cons_self
  refine ⟨hl, hs, ?_⟩
  intro other ho hso
  rcases List.mem_cons.mp ((hmem other).mpr ⟨ho, hso⟩) with rfl | hin
  · exact le_rfl
  · exact (List.pairwise_cons.mp hsorted).1 other hin

theorem latestLeaseForScope_eq_none :
    latestLeaseForScope leases scope = none ↔ ∀ lease ∈ leases, lease.scope ≠ scope := by
  unfold latestLeaseForScope
  rw [List.head?_eq_none_iff, ← List.length_eq_zero_iff, List.length_insertionSort,
    List.length_eq_zero_iff, List.filter_eq_nil_iff]
  simp

variable {leaseId : StreamLeaseId}

theorem leaseById_eq_some (h : leaseById leases leaseId = some lease) :
    lease ∈ leases ∧ lease.leaseId = leaseId :=
  ⟨List.mem_of_find?_eq_some h, by simpa using List.find?_some h⟩

/-! ### What a call can do -/

/-- What names a lease, and that it was released, stay. -/
structure KeepsLease (f : DurableLease → DurableLease) : Prop where
  leaseId : ∀ lease, (f lease).leaseId = lease.leaseId
  scope : ∀ lease, (f lease).scope = lease.scope
  generation : ∀ lease, (f lease).scopeGeneration = lease.scopeGeneration
  released : ∀ lease, lease.releasedAtMs ≠ none → (f lease).releasedAtMs ≠ none

structure KeepsCredential (f : CredentialRow → CredentialRow) : Prop where
  tokenDigest : ∀ credential, (f credential).tokenDigest = credential.tokenDigest
  leaseId : ∀ credential, (f credential).leaseId = credential.leaseId

theorem KeepsLease.refl : KeepsLease id :=
  ⟨fun _ => rfl, fun _ => rfl, fun _ => rfl, fun _ h => h⟩

theorem KeepsCredential.refl : KeepsCredential id := ⟨fun _ => rfl, fun _ => rfl⟩

/-- Everything a call can do to the tables of the authority. -/
inductive Moves (db db' : AuthorityDb Text) : Prop
  | stays (hleases : db'.leases = db.leases) (hcredentials : db'.credentials = db.credentials)
  | grants {lease : DurableLease} {g : CredentialRow → CredentialRow}
      (hid : ∀ other ∈ db.leases, other.leaseId ≠ lease.leaseId)
      (hrank : ∀ other ∈ db.leases, other.scope = lease.scope →
        other.scopeGeneration < lease.scopeGeneration)
      (hover : ∀ other ∈ db.leases, liveIn db.leases other = true → other.scope ≠ lease.scope →
        scopesOverlap other.scope lease.scope = false)
      (hg : KeepsCredential g) (hleases : db'.leases = db.leases ++ [lease])
      (hcredentials : db'.credentials = db.credentials.map g)
  | updates {f : DurableLease → DurableLease} {g : CredentialRow → CredentialRow}
      (hf : KeepsLease f) (hg : KeepsCredential g) (hleases : db'.leases = db.leases.map f)
      (hcredentials : db'.credentials = db.credentials.map g)
  | mints {credential : CredentialRow}
      (hdigest : ∀ other ∈ db.credentials, other.tokenDigest ≠ credential.tokenDigest)
      (hleases : db'.leases = db.leases)
      (hcredentials : db'.credentials = db.credentials ++ [credential])

/-! ### Statements -/

variable {db db' : AuthorityDb Text}

theorem insertLease_ok :
    insertLease lease db = .ok db' ↔
      (∀ other ∈ db.leases, other.leaseId ≠ lease.leaseId) ∧
      (∀ other ∈ db.leases, other.scope = lease.scope →
        other.scopeGeneration ≠ lease.scopeGeneration) ∧
      (∀ predecessor, lease.predecessorLeaseId = some predecessor →
        predecessor = lease.leaseId ∨ ∃ other ∈ db.leases, other.leaseId = predecessor) ∧
      db' = { db with leases := db.leases ++ [lease] } := by
  simp only [insertLease, bind_ok, exists_unit_ok, require_ok, pure_ok]
  simp [Option.all_eq_true, @eq_comm _ _ db']

theorem insertCredential_ok {credential : CredentialRow} :
    insertCredential credential db = .ok db' ↔
      (∀ other ∈ db.credentials, other.credentialId ≠ credential.credentialId) ∧
      (∀ other ∈ db.credentials, other.tokenDigest ≠ credential.tokenDigest) ∧
      (∃ lease ∈ db.leases, lease.leaseId = credential.leaseId) ∧
      db' = { db with credentials := db.credentials ++ [credential] } := by
  simp only [insertCredential, bind_ok, exists_unit_ok, require_ok, pure_ok]
  simp [@eq_comm _ _ db']

def revokedWhere (condition : CredentialRow → Bool) (revokedAtMs : Int) (credential : CredentialRow) :
    CredentialRow :=
  if condition credential then
    { credential with revokedAtMs := some (credential.revokedAtMs.getD revokedAtMs) }
  else credential

theorem revokeWhere_eq (condition : CredentialRow → Bool) (revokedAtMs : Int)
    (db : AuthorityDb Text) : revokeWhere condition revokedAtMs db =
      .ok { db with credentials := db.credentials.map (revokedWhere condition revokedAtMs) } := rfl

theorem keepsCredential_revokedWhere (condition : CredentialRow → Bool) (revokedAtMs : Int) :
    KeepsCredential (revokedWhere condition revokedAtMs) := by
  constructor <;> intro credential <;> unfold revokedWhere <;> split <;> rfl

def updatedAt (leaseId : StreamLeaseId) (update : DurableLease → DurableLease)
    (lease : DurableLease) : DurableLease :=
  if lease.leaseId = leaseId then update lease else lease

theorem updateLease_eq (leaseId : StreamLeaseId) (update : DurableLease → DurableLease)
    (db : AuthorityDb Text) : updateLease leaseId update db =
      .ok { db with leases := db.leases.map (updatedAt leaseId update) } := rfl

theorem KeepsLease.updatedAt {update : DurableLease → DurableLease} (h : KeepsLease update)
    (leaseId : StreamLeaseId) : KeepsLease (updatedAt leaseId update) where
  leaseId lease := by
    unfold RemoteStore.updatedAt
    split
    · exact h.leaseId lease
    · rfl
  scope lease := by
    unfold RemoteStore.updatedAt
    split
    · exact h.scope lease
    · rfl
  generation lease := by
    unfold RemoteStore.updatedAt
    split
    · exact h.generation lease
    · rfl
  released lease hr := by
    unfold RemoteStore.updatedAt
    split
    · exact h.released lease hr
    · exact hr

variable {α : Type}

theorem okOrAuthority_ok {message : String} {o : Option α} {a : α} :
    okOrAuthority message o = .ok a ↔ o = some a := by
  cases o <;> simp [okOrAuthority]

/-! ### Operations -/

/-- What a lease row keeps of a grant's predecessor: its credentials are revoked. -/
def revokedAfter (predecessor : Option DurableLease) (nowMs : Int) :
    CredentialRow → CredentialRow :=
  match predecessor with
  | some previous => revokedWhere (fun credential => credential.leaseId = previous.leaseId) nowMs
  | none => id

theorem keepsCredential_revokedAfter (predecessor : Option DurableLease) (nowMs : Int) :
    KeepsCredential (revokedAfter predecessor nowMs) := by
  cases predecessor with
  | none => exact .refl
  | some previous => exact keepsCredential_revokedWhere _ _

theorem storeLease_ok {predecessor : Option DurableLease} {u : Unit} :
    storeLease lease predecessor db = .ok (u, db') ↔ ∃ db₁, insertLease lease db = .ok db₁ ∧
      db' = { db₁ with
        credentials := db₁.credentials.map (revokedAfter predecessor lease.grantedAtMs) } := by
  unfold storeLease
  cases predecessor with
  | none =>
    simp only [execute_bind_ok, tx_pure_ok, revokedAfter, List.map_id, true_and]
    exact exists_congr fun db₁ => and_congr_right fun _ => eq_comm
  | some previous =>
    simp only [execute_bind_ok, execute_ok, revokeLeaseCredentials, revokeWhere_eq,
      Except.ok.injEq, revokedAfter]
    exact exists_congr fun db₁ => and_congr_right fun _ => eq_comm

theorem nextGeneration_outranks {generation : Int}
    (h : nextGeneration (latestLeaseForScope leases scope) = .ok generation) (hl : lease ∈ leases)
    (hs : lease.scope = scope) : lease.scopeGeneration < generation := by
  cases hp : latestLeaseForScope leases scope with
  | none => exact absurd hs (latestLeaseForScope_eq_none.mp hp lease hl)
  | some previous =>
    rw [hp, nextGeneration, okOrAuthority_ok, checkedAdd] at h
    split at h
    · have hle := (latestLeaseForScope_eq_some hp).2.2 lease hl hs
      have hg := Option.some.inj h
      omega
    · cases h

variable {authority : StreamLeaseAuthority} {nowMs : Int} {grant : StreamLeaseGrantV1}

theorem grantLease_ok {draw : Uuid} {holder : DispatchId} {lineage : StreamLeaseLineage}
    (h : exec (grantLease authority nowMs draw scope holder lineage) db = (.ok grant, db')) :
    ∃ lease : DurableLease, lease.scope = scope ∧ grant = lease.grant ∧
      lineageMatches (latestLeaseForScope db.leases scope) lineage = true ∧
      (∀ other ∈ db.leases, other.leaseId ≠ lease.leaseId) ∧
      (∀ other ∈ db.leases, other.scope = lease.scope →
        other.scopeGeneration < lease.scopeGeneration) ∧
      (∀ other ∈ db.leases, liveIn db.leases other = true → other.scope ≠ lease.scope →
        scopesOverlap other.scope lease.scope = false) ∧
      db'.history = db.history ∧ db'.leases = db.leases ++ [lease] ∧
      db'.credentials = db.credentials.map
        (revokedAfter (latestLeaseForScope db.leases scope) nowMs) := by
  simp only [grantLease, transaction_ok, query_bind_ok, exists_unit_ok, require_ok,
    Except.ok.injEq, exists_eq_left'] at h
  obtain ⟨-, expiry, -, hlineage, hover, generation, hgen, h⟩ := h
  obtain ⟨_, db₁, hstore, hend⟩ := tx_bind_ok.mp h
  obtain ⟨_, hinsert, rfl⟩ := storeLease_ok.mp hstore
  obtain ⟨hid, -, -, rfl⟩ := insertLease_ok.mp hinsert
  obtain ⟨rfl, rfl⟩ := tx_pure_ok.mp hend
  refine ⟨_, rfl, rfl, hlineage, hid, ?_, ?_, rfl, rfl, rfl⟩
  · intro other ho hs
    exact nextGeneration_outranks hgen ho hs
  · intro other ho hlive hne
    have hmem : other ∈ latestUnreleasedLeases db.leases := by
      rw [latestUnreleasedLeases, List.mem_insertionSort, List.mem_filter]
      exact ⟨ho, hlive⟩
    have hfree := hover other hmem
    simpa [hne] using hfree

def DurableLease.renewed (expiresAtMs : Int) (lease : DurableLease) : DurableLease :=
  { lease with expiresAtMs := expiresAtMs }

def DurableLease.released (releasedAtMs : Int) (lease : DurableLease) : DurableLease :=
  { lease with releasedAtMs := some releasedAtMs }

theorem keepsLease_renewed (expiresAtMs : Int) : KeepsLease (DurableLease.renewed expiresAtMs) :=
  ⟨fun _ => rfl, fun _ => rfl, fun _ => rfl, fun _ h => h⟩

theorem keepsLease_released (releasedAtMs : Int) :
    KeepsLease (DurableLease.released releasedAtMs) :=
  ⟨fun _ => rfl, fun _ => rfl, fun _ => rfl, fun _ _ => Option.some_ne_none _⟩

theorem renewLease_ok (h : exec (renewLease authority nowMs leaseId) db = (.ok grant, db')) :
    ∃ lease expiresAtMs, leaseById db.leases leaseId = some lease ∧
      isLatestUnreleased db.leases lease = true ∧ grant = (lease.renewed expiresAtMs).grant ∧
      db'.history = db.history ∧ db'.credentials = db.credentials ∧
      db'.leases = db.leases.map (updatedAt leaseId (.renewed expiresAtMs)) := by
  simp only [renewLease, transaction_ok, query_bind_ok, exists_unit_ok, require_ok, execute_bind_ok,
    updateLease_eq, tx_pure_ok, okOrAuthority_ok, Except.ok.injEq, exists_eq_left'] at h
  obtain ⟨lease, hlease, hlatest, expiry, -, rfl, rfl⟩ := h
  exact ⟨lease, _, hlease, hlatest, rfl, rfl, rfl, rfl⟩

theorem releaseLease_ok {u : Unit} (h : exec (releaseLease nowMs leaseId) db = (.ok u, db')) :
    (∃ lease, leaseById db.leases leaseId = some lease ∧ isLatestUnreleased db.leases lease = true ∧
      db'.history = db.history ∧
      db'.leases = db.leases.map (updatedAt leaseId (.released nowMs)) ∧
      db'.credentials = db.credentials.map
        (revokedWhere (fun credential => credential.leaseId = leaseId) nowMs)) ∨
    ((∀ lease, leaseById db.leases leaseId = some lease →
        isLatestUnreleased db.leases lease = false) ∧ db' = db) := by
  simp only [releaseLease, transaction_ok, query_bind_ok, Except.ok.injEq, exists_eq_left'] at h
  cases hl : leaseById db.leases leaseId with
  | none =>
    rw [hl] at h
    refine .inr ⟨?_, (tx_pure_ok.mp h).2.symm⟩
    intro lease he
    cases he
  | some lease =>
    rw [hl] at h
    obtain ⟨releasable, hr, h⟩ := query_bind_ok.mp h
    obtain rfl := Except.ok.inj hr
    by_cases hlive : isLatestUnreleased db.leases lease = true
    · rw [if_pos hlive] at h
      simp only [execute_bind_ok, execute_ok, updateLease_eq, revokeLeaseCredentials,
        revokeWhere_eq, Except.ok.injEq, exists_eq_left'] at h
      subst h
      exact .inl ⟨lease, rfl, hlive, rfl, rfl, rfl⟩
    · rw [if_neg hlive] at h
      refine .inr ⟨?_, (tx_pure_ok.mp h).2.symm⟩
      intro lease' he
      cases he
      exact Bool.eq_false_iff.mpr hlive

theorem mintCredential_ok {draws : Nat → Uuid} {credential : StreamWriteCredentialV1}
    {token : String}
    (h : exec (mintCredential authority nowMs draws grant) db = (.ok (credential, token), db')) :
    ∃ row : CredentialRow, mintable db.leases grant = true ∧
      (∀ other ∈ db.credentials, other.tokenDigest ≠ row.tokenDigest) ∧
      row.tokenDigest = authority.tokenDigest token ∧ row.leaseId = credential.leaseId ∧
      db'.history = db.history ∧ db'.leases = db.leases ∧
      db'.credentials = db.credentials ++ [row] := by
  simp only [mintCredential, transaction_ok, query_bind_ok, exists_unit_ok, require_ok,
    execute_bind_ok, insertCredential_ok, tx_pure_ok] at h
  obtain ⟨hmint, _, ⟨-, hdigest, -, rfl⟩, hpair, rfl⟩ := h
  obtain ⟨rfl, rfl⟩ := Prod.mk.inj hpair
  exact ⟨_, hmint, hdigest, rfl, rfl, rfl, rfl, rfl⟩

theorem revokeCredential_ok {credentialId : String} {u : Unit}
    (h : exec (revokeCredential nowMs credentialId) db = (.ok u, db')) :
    db'.history = db.history ∧ db'.leases = db.leases ∧
      db'.credentials = db.credentials.map
        (revokedWhere (fun credential => credential.credentialId = credentialId) nowMs) := by
  rw [revokeCredential, transaction_ok, execute_ok, revokeWhere_eq, Except.ok.injEq] at h
  subst h
  exact ⟨rfl, rfl, rfl⟩

theorem appendIfCurrent_cases {codec : Sqlite.Codec Text} {leaseEpoch : Nat}
    {streamId : EventStreamId} {presented : StreamLeaseId} {expected : EventSequence}
    {records : List NewEventRecord} (db : AuthorityDb Text) :
    (exec (appendIfCurrent codec leaseEpoch nowMs streamId presented expected records) db).2 = db ∧
        (∀ ack, (exec (appendIfCurrent codec leaseEpoch nowMs streamId presented expected records)
          db).1 ≠ .ok (.appended ack)) ∨
      fenceDecision db.leases streamId presented nowMs = .current ∧
      ∃ appended history ack,
        Sqlite.appendEventsFencedInTransaction codec leaseEpoch streamId expected records
          db.history = .ok (appended, history) ∧
        StreamAppendAckV1.fromAppended streamId appended [.streamCommitted, .queryProjected] =
          .ok ack ∧
        exec (appendIfCurrent codec leaseEpoch nowMs streamId presented expected records) db =
          (.ok (.appended ack), { db with history := history }) := by
  simp only [exec, appendIfCurrent]
  cases hfence : fenceDecision db.leases streamId presented nowMs with
  | superseded | expired | unknown => exact .inl ⟨rfl, fun ack h => by cases h⟩
  | current =>
    cases happend : Sqlite.appendEventsFencedInTransaction codec leaseEpoch streamId
        expected records db.history with
    | error e => cases e <;> exact .inl ⟨rfl, fun ack h => by cases h⟩
    | ok r =>
      obtain ⟨appended, history⟩ := r
      cases hack : StreamAppendAckV1.fromAppended streamId appended
          [.streamCommitted, .queryProjected] with
      | error e =>
        simp only [hack]
        exact .inl ⟨trivial, fun ack h => by cases h⟩
      | ok ack =>
        simp only [hack]
        exact .inr ⟨trivial, appended, history, ack, rfl, hack, rfl⟩

theorem appendIfCurrent_conflict {codec : Sqlite.Codec Text} {leaseEpoch : Nat}
    {streamId : EventStreamId} {presented : StreamLeaseId} {expected actual : EventSequence}
    {records : List NewEventRecord}
    (h : (exec (appendIfCurrent codec leaseEpoch nowMs streamId presented expected records) db).1 =
      .ok (.sequenceFenceConflict actual)) :
    fenceDecision db.leases streamId presented nowMs = .current ∧
      actual = Sqlite.sqliteNextEventSequence db.history streamId ∧ actual ≠ expected := by
  simp only [exec, appendIfCurrent] at h
  cases hfence : fenceDecision db.leases streamId presented nowMs with
  | superseded | expired | unknown =>
    rw [hfence] at h
    cases h
  | current =>
    rw [hfence] at h
    dsimp only at h
    cases happend : Sqlite.appendEventsFencedInTransaction codec leaseEpoch streamId
        expected records db.history with
    | error e =>
      rw [happend] at h
      cases e with
      | appendFenceConflict stream wanted found =>
        cases h
        exact ⟨rfl, Sqlite.appendEventsFencedInTransaction_conflict happend⟩
      | _ => cases h
    | ok r =>
      obtain ⟨appended, history⟩ := r
      rw [happend] at h
      dsimp only at h
      split at h <;> cases h

/-! ### One call -/

theorem historyCall_tables (codec : Sqlite.Codec Text) (call : Call)
    (db : AuthorityDb Text) :
    (exec (historyCall codec call) db).2.leases = db.leases ∧
      (exec (historyCall codec call) db).2.credentials = db.credentials := by
  unfold historyCall exec
  dsimp only
  split <;> exact ⟨rfl, rfl⟩

theorem exec_map_snd {ε σ β : Type} (m : Fallible ε σ α) (f : α → β) (s : σ) :
    (exec (f <$> m) s).2 = (exec m s).2 := by
  rw [map_eq_pure_bind, exec_bind]
  rcases exec m s with ⟨_ | a, s'⟩ <;> rfl

theorem moves_of_transaction {m : AuthorityTx Text α}
    (h : ∀ a db', exec (transaction m) db = (.ok a, db') → Moves db db') :
    Moves db (exec (transaction m) db).2 := by
  rcases hx : exec (transaction m) db with ⟨e | a, db'⟩
  · rw [atomic_transaction m db e db' hx]
    exact .stays rfl rfl
  · exact h a db' hx

/-- **Every call moves the tables so.** -/
theorem authorityStep_moves (authority : StreamLeaseAuthority) (codec : Sqlite.Codec Text)
    (call : AuthorityCall) (db : AuthorityDb Text) :
    Moves db (authorityStep authority codec call db).2 := by
  obtain ⟨nowMs, draws, leaseEpoch, op⟩ := call
  unfold authorityStep performAuthority
  cases op with
  | grantLease scope holder lineage =>
    rw [exec_map_snd]
    refine moves_of_transaction fun grant db' h => ?_
    obtain ⟨lease, -, -, -, hid, hrank, hover, -, hl, hc⟩ := grantLease_ok h
    exact .grants hid hrank hover (keepsCredential_revokedAfter _ _) hl hc
  | renewLease leaseId =>
    rw [exec_map_snd]
    refine moves_of_transaction fun grant db' h => ?_
    obtain ⟨lease, expiresAtMs, -, -, -, -, hc, hl⟩ := renewLease_ok h
    exact .updates ((keepsLease_renewed expiresAtMs).updatedAt leaseId) .refl hl
      (hc.trans (List.map_id _).symm)
  | releaseLease leaseId =>
    rw [exec_map_snd]
    refine moves_of_transaction fun u db' h => ?_
    obtain ⟨lease, -, -, -, hl, hc⟩ | ⟨-, rfl⟩ := releaseLease_ok h
    · exact .updates ((keepsLease_released nowMs).updatedAt leaseId)
        (keepsCredential_revokedWhere _ _) hl hc
    · exact .stays rfl rfl
  | appendIfCurrent streamId presented expected records =>
    rw [exec_map_snd]
    rcases appendIfCurrent_cases db with ⟨h, -⟩ | ⟨-, _, _, _, -, -, h⟩
    · rw [h]
      exact .stays rfl rfl
    · rw [h]
      exact .stays rfl rfl
  | mintCredential grant =>
    rw [exec_map_snd]
    refine moves_of_transaction fun minted db' h => ?_
    obtain ⟨row, -, hdigest, -, -, -, hl, hc⟩ := mintCredential_ok h
    exact .mints hdigest hl hc
  | revokeCredential credentialId =>
    rw [exec_map_snd]
    refine moves_of_transaction fun u db' h => ?_
    obtain ⟨-, hl, hc⟩ := revokeCredential_ok h
    exact .updates .refl (keepsCredential_revokedWhere _ _) (hl.trans (List.map_id _).symm) hc
  | history call =>
    rw [exec_map_snd]
    obtain ⟨hl, hc⟩ := historyCall_tables codec call db
    exact .stays hl hc

/-! ### The shared store -/

/-- The shared store is as it was, or has served a call of its own. -/
def HistoryMoves (codec : Sqlite.Codec Text) (history history' : Sqlite.Db Text) :
    Prop :=
  history' = history ∨ ∃ call, history' = (Sqlite.step codec call history).2

/-- The call that a call of the authority makes on the shared store, if it makes one. -/
def AuthorityCall.storeCall? (call : AuthorityCall) : Option Call :=
  match call.op with
  | .appendIfCurrent streamId _ expected records =>
    some ⟨call.leaseEpoch, .counted, .appendEventsFenced streamId expected records⟩
  | .history call => some call
  | _ => none

theorem appendIfCurrent_history (codec : Sqlite.Codec Text) (leaseEpoch : Nat) (nowMs : Int)
    (streamId : EventStreamId) (presented : StreamLeaseId) (expected : EventSequence)
    (records : List NewEventRecord) (db : AuthorityDb Text) :
    (exec (appendIfCurrent codec leaseEpoch nowMs streamId presented expected records)
        db).2.history = db.history ∨
      (exec (appendIfCurrent codec leaseEpoch nowMs streamId presented expected records)
        db).2.history = (Sqlite.step codec
          ⟨leaseEpoch, .counted, .appendEventsFenced streamId expected records⟩ db.history).2 := by
  rcases @appendIfCurrent_cases Text nowMs codec leaseEpoch streamId presented expected records db
    with ⟨h, -⟩ | ⟨-, appended, history, ack, happend, -, h⟩
  · rw [h]
    exact .inl rfl
  · have hstep : exec (Sqlite.appendEventsFenced codec leaseEpoch streamId expected records)
        db.history = (.ok appended, history) := transaction_ok.mpr happend
    right
    rw [h, Sqlite.step, Sqlite.perform, exec_map_snd, hstep]

theorem history_of_transaction {m : AuthorityTx Text α}
    (h : ∀ a db', exec (transaction m) db = (.ok a, db') → db'.history = db.history) :
    (exec (transaction m) db).2.history = db.history := by
  rcases hx : exec (transaction m) db with ⟨e | a, db'⟩
  · rw [atomic_transaction m db e db' hx]
  · exact h a db' hx

/-- **Every call of the authority makes its call on the shared store, or leaves it alone.** -/
theorem authorityStep_storeCall (authority : StreamLeaseAuthority)
    (codec : Sqlite.Codec Text) (call : AuthorityCall) (db : AuthorityDb Text) :
    (authorityStep authority codec call db).2.history = db.history ∨
      ∃ made, call.storeCall? = some made ∧ (authorityStep authority codec call db).2.history =
        (Sqlite.step codec made db.history).2 := by
  obtain ⟨nowMs, draws, leaseEpoch, op⟩ := call
  unfold authorityStep performAuthority
  cases op with
  | grantLease scope holder lineage =>
    rw [exec_map_snd]
    refine .inl (history_of_transaction fun grant db' h => ?_)
    obtain ⟨_, -, -, -, -, -, -, hh, -, -⟩ := grantLease_ok h
    exact hh
  | renewLease leaseId =>
    rw [exec_map_snd]
    refine .inl (history_of_transaction fun grant db' h => ?_)
    obtain ⟨_, _, -, -, -, hh, -, -⟩ := renewLease_ok h
    exact hh
  | releaseLease leaseId =>
    rw [exec_map_snd]
    refine .inl (history_of_transaction fun u db' h => ?_)
    obtain ⟨_, -, -, hh, -, -⟩ | ⟨-, rfl⟩ := releaseLease_ok h
    · exact hh
    · rfl
  | appendIfCurrent streamId presented expected records =>
    rw [exec_map_snd]
    exact (appendIfCurrent_history codec leaseEpoch nowMs streamId presented expected records
      db).imp_right fun h => ⟨_, rfl, h⟩
  | mintCredential grant =>
    rw [exec_map_snd]
    refine .inl (history_of_transaction fun minted db' h => ?_)
    obtain ⟨_, -, -, -, -, hh, -, -⟩ := mintCredential_ok h
    exact hh
  | revokeCredential credentialId =>
    rw [exec_map_snd]
    refine .inl (history_of_transaction fun u db' h => ?_)
    obtain ⟨hh, -, -⟩ := revokeCredential_ok h
    exact hh
  | history call =>
    rw [exec_map_snd]
    refine .inr ⟨call, rfl, ?_⟩
    unfold historyCall exec
    dsimp only
    split <;> rename_i heq <;> rw [heq]

end Verlet.RemoteStore
