import Mathlib.Data.List.Sort
import Verlet.Support.Delimited
import Verlet.History.Sqlite

/-!
# Remote store — Leases

`SqliteStreamLeaseAuthority`: the leases and write credentials of the daemon's database, beside the
event store, and the authority's operations as transactions over both.  A lease is over a
colon-delimited prefix of stream ids; the latest grant of a scope holds it, until it is released.

The clock is read once in each call and may answer anything; `uuid::Uuid::new_v4` is a draw of the
call, and the SHA-256 of the `sha2` crate is a parameter.
-/

namespace Verlet.RemoteStore
open Support History

/-! ### Errors -/

/-- The texts of `VerletError::History`. -/
inductive HistoryText where
  /-- A text of this program. -/
  | plain (text : String)
  /-- The text of a store's error. -/
  | store (error : HistoryError)
deriving DecidableEq

inductive VerletError where
  | history (text : HistoryText)
  | runtimeExecution (text : String)
deriving DecidableEq

abbrev VerletResult (α : Type) := Except VerletError α

def authorityError (message : String) : VerletError := .history (.plain message)

/-- `storage_error`, at a constraint of a table. -/
def constraintError (table : String) : VerletError := .history (.store (.storage (.constraint table)))

/-! ### Scopes -/

structure StreamLeaseId where
  text : String
deriving DecidableEq

structure DispatchId where
  text : String
deriving DecidableEq

/-- The stream ids a lease authorizes: the prefix and what follows it after a colon. -/
structure StreamPrefixScope where
  text : String
deriving DecidableEq

def prefixContains (scope candidate : String) : Bool :=
  if scope.isEmpty then false
  else match candidate.toList.dropPrefix? scope.toList with
    | none => false
    | some rest => rest.isEmpty || rest.head? = some ':'

def StreamPrefixScope.authorizes (scope : StreamPrefixScope) (streamId : EventStreamId) : Bool :=
  prefixContains scope.text streamId.text

def scopesOverlap (left right : StreamPrefixScope) : Bool :=
  prefixContains left.text right.text || prefixContains right.text left.text

theorem prefixContains_iff {scope candidate : String} :
    prefixContains scope candidate = true ↔
      scope ≠ "" ∧ Within ':' scope.toList candidate.toList := by
  unfold prefixContains
  rw [within_iff_dropPrefix]
  by_cases hempty : scope = ""
  · simp [hempty]
  · have hscope : scope.isEmpty = false := by simpa using hempty
    rw [hscope]
    cases candidate.toList.dropPrefix? scope.toList <;> simp [hempty]

/-- **Scopes that authorize one stream overlap.** -/
theorem scopesOverlap_of_authorizes {left right : StreamPrefixScope} {streamId : EventStreamId}
    (hl : left.authorizes streamId = true) (hr : right.authorizes streamId = true) :
    scopesOverlap left right = true := by
  obtain ⟨hl', hleft⟩ := prefixContains_iff.mp hl
  obtain ⟨hr', hright⟩ := prefixContains_iff.mp hr
  rw [scopesOverlap, Bool.or_eq_true, prefixContains_iff, prefixContains_iff]
  rcases hleft.comparable hright with h | h
  · exact .inl ⟨hl', h⟩
  · exact .inr ⟨hr', h⟩

theorem scopesOverlap_comm (left right : StreamPrefixScope) :
    scopesOverlap left right = scopesOverlap right left := Bool.or_comm _ _

/-! ### Grants and credentials -/

/-- The lease a grant superseded, if it was not the first. -/
structure StreamLeaseLineage where
  supersededLeaseId : Option StreamLeaseId
deriving DecidableEq

structure StreamLeaseGrantV1 where
  schema : String
  leaseId : StreamLeaseId
  scope : StreamPrefixScope
  holderDispatchId : DispatchId
  lineage : StreamLeaseLineage
  grantedAtMs : Int
  expiresAtMs : Int
deriving DecidableEq

def syncStreamLeaseSchemaV1 : String := "cooldis.stream.sync_lease/1"
def syncStreamWriteCredentialSchemaV1 : String := "cooldis.stream.sync_write_credential/1"

inductive LeaseFenceDecision where
  | current
  | superseded
  | expired
  | unknown
deriving DecidableEq

inductive LeaseFencedAppendOutcome where
  | appended (ack : StreamAppendAckV1)
  | leaseRejected (fence : LeaseFenceDecision)
  | sequenceFenceConflict (actualNextSequence : EventSequence)
deriving DecidableEq

structure StreamWriteCredentialV1 where
  schema : String
  credentialId : String
  scope : StreamPrefixScope
  leaseId : StreamLeaseId
  mintedAtMs : Int
deriving DecidableEq

/-- The identity behind a presented token. -/
structure VerifiedPushIdentity where
  credentialId : String
  scope : StreamPrefixScope
  leaseId : StreamLeaseId

/-! ### Tables -/

/-- A row of `cooldis_stream_leases`. -/
structure DurableLease where
  leaseId : StreamLeaseId
  scope : StreamPrefixScope
  scopeGeneration : Int
  holderDispatchId : DispatchId
  predecessorLeaseId : Option StreamLeaseId
  grantedAtMs : Int
  expiresAtMs : Int
  releasedAtMs : Option Int

def DurableLease.grant (lease : DurableLease) : StreamLeaseGrantV1 where
  schema := syncStreamLeaseSchemaV1
  leaseId := lease.leaseId
  scope := lease.scope
  holderDispatchId := lease.holderDispatchId
  lineage := ⟨lease.predecessorLeaseId⟩
  grantedAtMs := lease.grantedAtMs
  expiresAtMs := lease.expiresAtMs

/-- A row of `cooldis_stream_write_credentials`. -/
structure CredentialRow where
  credentialId : String
  tokenDigest : String
  scope : StreamPrefixScope
  leaseId : StreamLeaseId
  mintedAtMs : Int
  revokedAtMs : Option Int

/-- The tables the authority works on: its own, in rowid order, and the store's. -/
structure AuthorityDb (Text : Type) where
  history : Sqlite.Db Text
  leases : List DurableLease
  credentials : List CredentialRow

variable {Text : Type}

/-- A new database. -/
def AuthorityDb.empty : AuthorityDb Text := ⟨.empty, [], []⟩

abbrev AuthorityM (Text : Type) := Fallible VerletError (AuthorityDb Text)
abbrev AuthorityTx (Text : Type) := Tx VerletError (AuthorityDb Text)

/-- What an authority is set up with. -/
structure StreamLeaseAuthority where
  leaseTtlMs : Int
  /-- The hexadecimal SHA-256 of a text. -/
  sha256 : String → String

variable (authority : StreamLeaseAuthority)

def StreamLeaseAuthority.tokenDigest (token : String) : String :=
  "sha256:" ++ authority.sha256 token

/-! ### Queries -/

variable (leases : List DurableLease)

def leaseById (leaseId : StreamLeaseId) : Option DurableLease :=
  leases.find? fun lease => lease.leaseId = leaseId

def latestLeaseForScope (scope : StreamPrefixScope) : Option DurableLease :=
  ((leases.filter fun lease => lease.scope = scope).insertionSort
    fun lease lease' => lease'.scopeGeneration ≤ lease.scopeGeneration).head?

/-- `SELECT MAX(scope_generation) .. WHERE scope = ?`. -/
def maxGeneration (scope : StreamPrefixScope) : Option Int :=
  ((leases.filter fun lease => lease.scope = scope).map (·.scopeGeneration)).max?

/-- The lease is unreleased and the latest of its scope. -/
def liveIn (lease : DurableLease) : Bool :=
  lease.releasedAtMs.isNone ∧ maxGeneration leases lease.scope = some lease.scopeGeneration

/-- `latest_unreleased_leases`, by scope. -/
def latestUnreleasedLeases : List DurableLease :=
  (leases.filter (liveIn leases)).insertionSort fun lease lease' =>
    lease.scope.text ≤ lease'.scope.text

def fenceDecision (streamId : EventStreamId)
    (presented : StreamLeaseId) (nowMs : Int) : LeaseFenceDecision :=
  match leaseById leases presented with
  | none => .unknown
  | some lease =>
    if ¬ lease.scope.authorizes streamId then .unknown
    else if lease.releasedAtMs.isSome ∨
        (latestLeaseForScope leases lease.scope).map (·.leaseId) ≠ some presented then .superseded
    else
      let covering := (latestUnreleasedLeases leases).filter fun candidate =>
        candidate.scope.authorizes streamId
      if covering.length ≠ 1 ∨ covering.head?.map (·.leaseId) ≠ some presented then .superseded
      else if lease.expiresAtMs ≤ nowMs then .expired
      else .current

def verifyToken (db : AuthorityDb Text) (token : String) : Option VerifiedPushIdentity :=
  (db.credentials.find? fun credential =>
    credential.tokenDigest = authority.tokenDigest token ∧ credential.revokedAtMs.isNone ∧
      db.leases.any fun lease => lease.leaseId = credential.leaseId ∧
        lease.scope = credential.scope ∧ liveIn db.leases lease).map
    fun credential => ⟨credential.credentialId, credential.scope, credential.leaseId⟩

/-! ### Statements -/

/-- `INSERT INTO cooldis_stream_leases`: the primary key, the unique generation of the scope, the
foreign key of the predecessor. -/
def insertLease (lease : DurableLease) (db : AuthorityDb Text) : VerletResult (AuthorityDb Text) := do
  require (¬ db.leases.any fun other => other.leaseId = lease.leaseId)
    (constraintError "cooldis_stream_leases.lease_id")
  require (¬ db.leases.any fun other =>
      other.scope = lease.scope ∧ other.scopeGeneration = lease.scopeGeneration)
    (constraintError "cooldis_stream_leases.scope_generation")
  require (lease.predecessorLeaseId.all fun predecessor => predecessor = lease.leaseId ∨
      db.leases.any fun other => other.leaseId = predecessor)
    (constraintError "cooldis_stream_leases.predecessor_lease_id")
  return { db with leases := db.leases ++ [lease] }

/-- `UPDATE cooldis_stream_leases .. WHERE lease_id = ?`. -/
def updateLease (leaseId : StreamLeaseId) (update : DurableLease → DurableLease)
    (db : AuthorityDb Text) : VerletResult (AuthorityDb Text) :=
  .ok { db with leases :=
    db.leases.map fun lease => if lease.leaseId = leaseId then update lease else lease }

/-- `UPDATE cooldis_stream_write_credentials SET revoked_at_ms = COALESCE(revoked_at_ms, ?)` where
the condition holds. -/
def revokeWhere (condition : CredentialRow → Bool) (revokedAtMs : Int) (db : AuthorityDb Text) :
    VerletResult (AuthorityDb Text) :=
  .ok { db with credentials := db.credentials.map fun credential =>
    if condition credential then
      { credential with revokedAtMs := some (credential.revokedAtMs.getD revokedAtMs) }
    else credential }

def revokeLeaseCredentials (leaseId : StreamLeaseId) :
    Int → AuthorityDb Text → VerletResult (AuthorityDb Text) :=
  revokeWhere fun credential => credential.leaseId = leaseId

/-- `INSERT INTO cooldis_stream_write_credentials`: the primary key, the unique digest, the foreign
key of the lease. -/
def insertCredential (credential : CredentialRow) (db : AuthorityDb Text) :
    VerletResult (AuthorityDb Text) := do
  require (¬ db.credentials.any fun other => other.credentialId = credential.credentialId)
    (constraintError "cooldis_stream_write_credentials.credential_id")
  require (¬ db.credentials.any fun other => other.tokenDigest = credential.tokenDigest)
    (constraintError "cooldis_stream_write_credentials.token_digest")
  require (db.leases.any fun lease => lease.leaseId = credential.leaseId)
    (constraintError "cooldis_stream_write_credentials.lease_id")
  return { db with credentials := db.credentials ++ [credential] }

/-! ### Operations -/

/-- `i64::checked_add`. -/
def checkedAdd (a b : Int) : Option Int :=
  if -2 ^ 63 ≤ a + b ∧ a + b < 2 ^ 63 then some (a + b) else none

/-- `ok_or_else(|| authority_error(..))`. -/
def okOrAuthority {α : Type} (message : String) : Option α → VerletResult α
  | some a => .ok a
  | none   => .error (authorityError message)

def leaseExpiry (nowMs leaseTtlMs : Int) : VerletResult Int :=
  okOrAuthority "lease expiry timestamp overflow" (checkedAdd nowMs leaseTtlMs)

/-- The lineage names the grant before this one, or there was none. -/
def lineageMatches (predecessor : Option DurableLease) (lineage : StreamLeaseLineage) : Bool :=
  match predecessor, lineage.supersededLeaseId with
  | none, none => true
  | some previous, some named => previous.leaseId = named
  | _, _ => false

def nextGeneration (predecessor : Option DurableLease) : VerletResult Int :=
  match predecessor with
  | none => .ok 1
  | some previous =>
    okOrAuthority "lease scope generation overflow" (checkedAdd previous.scopeGeneration 1)

/-- The new row and the end of the predecessor's credentials. -/
def storeLease (lease : DurableLease) (predecessor : Option DurableLease) : AuthorityTx Text Unit := do
  execute (insertLease lease)
  match predecessor with
  | some previous => execute (revokeLeaseCredentials previous.leaseId lease.grantedAtMs)
  | none => pure ()

def grantLease (nowMs : Int) (draw : Uuid)
    (scope : StreamPrefixScope) (holderDispatchId : DispatchId) (lineage : StreamLeaseLineage) :
    AuthorityM Text StreamLeaseGrantV1 :=
  transaction do
    query fun _ => require (scope.text ≠ "") (authorityError "cannot grant an empty stream scope")
    let expiresAtMs ← query fun _ => leaseExpiry nowMs authority.leaseTtlMs
    let predecessor ← query fun db => .ok (latestLeaseForScope db.leases scope)
    query fun _ => require (lineageMatches predecessor lineage)
      (authorityError "lease lineage does not name the immediately preceding grant")
    query fun db => require (∀ live ∈ latestUnreleasedLeases db.leases,
        ¬ (live.scope ≠ scope ∧ scopesOverlap live.scope scope))
      (authorityError "stream lease scope overlaps a different live scope")
    let scopeGeneration ← query fun _ => nextGeneration predecessor
    let lease : DurableLease := ⟨⟨"lease_" ++ draw.text⟩, scope, scopeGeneration, holderDispatchId,
      lineage.supersededLeaseId, nowMs, expiresAtMs, none⟩
    storeLease lease predecessor
    return lease.grant

/-- The lease is unreleased and the latest grant of its scope: the test of the single calls. -/
def isLatestUnreleased (lease : DurableLease) : Bool :=
  lease.releasedAtMs.isNone ∧
    (latestLeaseForScope leases lease.scope).map (·.leaseId) = some lease.leaseId

/-- `renew_lease`: an expired lease too. -/
def renewLease (nowMs : Int) (leaseId : StreamLeaseId) : AuthorityM Text StreamLeaseGrantV1 :=
  transaction do
    let lease ← query fun db =>
      okOrAuthority "cannot renew an unknown stream lease" (leaseById db.leases leaseId)
    query fun db => require (isLatestUnreleased db.leases lease)
      (authorityError "cannot renew a superseded or released stream lease")
    let expiry ← query fun _ => leaseExpiry nowMs authority.leaseTtlMs
    let expiresAtMs := max expiry lease.expiresAtMs
    execute (updateLease leaseId fun lease => { lease with expiresAtMs := expiresAtMs })
    return { lease with expiresAtMs := expiresAtMs }.grant

/-- `release_lease`: nothing to do for an unknown, superseded or released lease. -/
def releaseLease (nowMs : Int) (leaseId : StreamLeaseId) : AuthorityM Text Unit :=
  transaction do
    match ← query fun db => .ok (leaseById db.leases leaseId) with
    | none => pure ()
    | some lease =>
      let releasable ← query fun db => .ok (isLatestUnreleased db.leases lease)
      if releasable then
        execute (updateLease leaseId fun lease => { lease with releasedAtMs := some nowMs })
        execute (revokeLeaseCredentials leaseId nowMs)

variable (codec : Sqlite.Codec Text)

/-- `append_if_current`: what is not appended is rolled back. -/
def appendIfCurrent (leaseEpoch : Nat) (nowMs : Int)
    (streamId : EventStreamId) (presented : StreamLeaseId) (expectedNextSequence : EventSequence)
    (records : List NewEventRecord) : AuthorityM Text LeaseFencedAppendOutcome := fun db =>
  match fenceDecision db.leases streamId presented nowMs with
  | .current =>
    match Sqlite.appendEventsFencedInTransaction codec leaseEpoch streamId
        expectedNextSequence records db.history with
    | .ok (appended, history) =>
      match StreamAppendAckV1.fromAppended streamId appended
          [.streamCommitted, .queryProjected] with
      | .ok ack => (.ok (.appended ack), { db with history := history })
      | .error error => (.error (.history (.store error)), db)
    | .error (.appendFenceConflict _ _ actual) => (.ok (.sequenceFenceConflict actual), db)
    | .error error => (.error (.history (.store error)), db)
  | fence => (.ok (.leaseRejected fence), db)

/-- The grant is the one the table holds for its scope. -/
def mintable (grant : StreamLeaseGrantV1) : Bool :=
  grant.schema = syncStreamLeaseSchemaV1 ∧
    ((leaseById leases grant.leaseId).any fun lease =>
      lease.releasedAtMs.isNone ∧ lease.scope = grant.scope) ∧
    (latestLeaseForScope leases grant.scope).map (·.leaseId) = some grant.leaseId

/-- `mint_credential`: the credential and its token, of which the table keeps the digest. -/
def mintCredential (nowMs : Int) (draws : Nat → Uuid)
    (grant : StreamLeaseGrantV1) : AuthorityM Text (StreamWriteCredentialV1 × String) :=
  transaction do
    query fun db => require (mintable db.leases grant)
      (authorityError "cannot mint a credential for a non-current stream lease grant")
    let credentialId := "credential_" ++ (draws 0).text
    let token := "cooldis_sync_" ++ (draws 1).simple ++ (draws 2).simple
    execute (insertCredential
      ⟨credentialId, authority.tokenDigest token, grant.scope, grant.leaseId, nowMs, none⟩)
    return (⟨syncStreamWriteCredentialSchemaV1, credentialId, grant.scope, grant.leaseId, nowMs⟩,
      token)

def revokeCredential (nowMs : Int) (credentialId : String) : AuthorityM Text Unit :=
  transaction (execute (revokeWhere (fun credential => credential.credentialId = credentialId) nowMs))

/-! ### The authority as a machine -/

inductive AuthorityOp where
  | grantLease (scope : StreamPrefixScope) (holderDispatchId : DispatchId)
      (lineage : StreamLeaseLineage)
  | renewLease (leaseId : StreamLeaseId)
  | releaseLease (leaseId : StreamLeaseId)
  | appendIfCurrent (streamId : EventStreamId) (presented : StreamLeaseId)
      (expectedNextSequence : EventSequence) (records : List NewEventRecord)
  | mintCredential (grant : StreamLeaseGrantV1)
  | revokeCredential (credentialId : String)
  /-- Any other call on the store that the authority shares. -/
  | history (call : Call)

/-- An operation, the clock it reads, the ids it draws and the epoch of the store's handle. -/
structure AuthorityCall where
  nowMs : Int
  draws : Nat → Uuid
  leaseEpoch : Nat
  op : AuthorityOp

inductive AuthorityReply where
  | unit
  | grant (grant : StreamLeaseGrantV1)
  | append (outcome : LeaseFencedAppendOutcome)
  | minted (credential : StreamWriteCredentialV1) (token : String)
  | history (reply : Reply)
deriving DecidableEq

def historyCall (call : Call) : AuthorityM Text Reply := fun db =>
  match Sqlite.step codec call db.history with
  | (.ok reply, history) => (.ok reply, { db with history := history })
  | (.error error, history) => (.error (.history (.store error)), { db with history := history })

def performAuthority (call : AuthorityCall) : AuthorityM Text AuthorityReply :=
  match call.op with
  | .grantLease scope holder lineage =>
    .grant <$> grantLease authority call.nowMs (call.draws 0) scope holder lineage
  | .renewLease leaseId => .grant <$> renewLease authority call.nowMs leaseId
  | .releaseLease leaseId => (fun _ => .unit) <$> releaseLease call.nowMs leaseId
  | .appendIfCurrent streamId presented expected records =>
    .append <$> appendIfCurrent codec call.leaseEpoch call.nowMs streamId presented expected records
  | .mintCredential grant =>
    (fun minted => .minted minted.1 minted.2) <$>
      mintCredential authority call.nowMs call.draws grant
  | .revokeCredential credentialId =>
    (fun _ => .unit) <$> revokeCredential call.nowMs credentialId
  | .history call => .history <$> historyCall codec call

/-- The answer to a call, and the database it leaves. -/
def authorityStep
    (call : AuthorityCall) (db : AuthorityDb Text) : VerletResult AuthorityReply × AuthorityDb Text :=
  exec (performAuthority authority codec call) db

end Verlet.RemoteStore
