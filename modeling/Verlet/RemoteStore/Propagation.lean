import Verlet.History.Sqlite.Streams
import Verlet.RemoteStore.Propagator

/-!
# Remote store — Propagation

One stream between a child and its daemon, as a machine: the two databases, the child's propagator
and the requests under way.  Every call of the propagator and every call of a request is a step of
its own, so attempts interleave with the child's own appends and with everything else at the daemon.

A request the child no longer waits for (it gave up, or crashed) may still be served, to any point:
its answer is lost.  A crash loses what the propagator held in memory; it restarts from the state it
persisted.  An attempt that fails ends the child's loop.

The child's database reopens with its events as they are, so a restart leaves it alone.
-/

namespace Verlet.RemoteStore
open Support History

/-! ### The two sides -/

/-- The databases: the daemon's, the child's and the child's table of propagation states. -/
structure Stores (Text : Type) where
  parent : EndpointDb Text
  child : Sqlite.Db Text
  saved : Map EventStreamId StreamPropagationState

/-- What the child's propagator of the stream is at. -/
inductive Activity where
  | stopped
  | idle (state : StreamPropagationState)
  | running (token : String) (attempt : PropagatorM Attempt)
  /-- A request is sent: the endpoint's side of it, and how the attempt goes on. -/
  | awaiting (token : String) (call : SyncCall) (handler : EndpointM call.Reply)
      (rest : call.Reply → PropagatorM Attempt)

/-- A child and its daemon; `abandoned` are the requests whose answer nobody awaits. -/
structure World (Text : Type) where
  stores : Stores Text
  activity : Activity
  abandoned : List (EndpointM Unit)

/-- Both databases new, and no propagator yet. -/
def World.empty {Text : Type} : World Text := ⟨⟨.empty, .empty, ∅⟩, .stopped, []⟩

/-- What else happens at the daemon. -/
inductive ParentOp where
  | authority (call : AuthorityCall)
  /-- One call of another child's request. -/
  | request (nowMs : Int) (leaseEpoch : Nat) (call : EndpointCall)
  | enqueue (eventId : EventRecordId) (entry : RemoteIngressQueueEntryV1)
  | acknowledge (nowMs : Int) (target : ThreadId) (dispatchId : DispatchId)

/-- How a call on the child's own database fares. -/
inductive Fault where
  | none
  | failed (error : VerletError)
  /-- It fails, but a write is there. -/
  | unconfirmed (error : VerletError)

/-- What may happen next. -/
inductive WorldStep where
  /-- The child uses its store. -/
  | local (call : Call)
  | parent (op : ParentOp)
  /-- The child starts, with the lease of its bootstrap. -/
  | boot (lease : StreamLeaseGrantV1)
  | crash
  /-- The loop calls `propagate_once`. -/
  | begin (propagator : LocalFirstStreamPropagator)
  /-- The attempt makes its next call, or returns. -/
  | proceed (nowMs : Int) (fault : Fault)
  /-- The endpoint makes the next call of the request the child awaits. -/
  | serve (nowMs : Int) (leaseEpoch : Nat)
  /-- The answer arrives. -/
  | reply
  /-- The request fails for the child: it never arrived, or its answer is lost. -/
  | giveUp (text : String)
  /-- The endpoint makes the next call of an abandoned request. -/
  | serveAbandoned (index : Nat) (nowMs : Int) (leaseEpoch : Nat)

/-! ### Steps -/

variable {Text : Type}

/-- The daemon's database after an operation. -/
def ParentOp.apply (endpoint : SyncEndpoint Text) (db : EndpointDb Text) : ParentOp → EndpointDb Text
  | .authority call =>
    { db with authority := (authorityStep endpoint.authority endpoint.codec call db.authority).2 }
  | .request nowMs leaseEpoch call => (call.serve endpoint nowMs leaseEpoch db).2
  | .enqueue eventId entry =>
    { db with queue := (exec (RemoteStore.enqueue endpoint.queueCodec eventId entry) db.queue).2 }
  | .acknowledge nowMs target dispatchId =>
    { db with queue := (exec (RemoteStore.acknowledge nowMs target dispatchId) db.queue).2 }

/-- The answer of a call on the child's database. -/
def Fault.answer {α : Type} (fault : Fault) (result : VerletResult α) : VerletResult α :=
  match fault with
  | .none              => result
  | .failed error      => .error error
  | .unconfirmed error => .error error

def Fault.write (fault : Fault) (state : StreamPropagationState)
    (saved : Map EventStreamId StreamPropagationState) :
    Map EventStreamId StreamPropagationState :=
  match fault with
  | .failed _ => saved
  | _         => saved.insert state.streamId state

/-- What a request that fails on its way answers the child: `transport_error`. -/
def SyncCall.lost (text : String) : (call : SyncCall) → call.Reply
  | .renew    => .error (.runtimeExecution text)
  | .push _   => .error (.runtimeExecution text)
  | .pull _ _ => .error (.runtimeExecution text)

/-- The attempt returns: a failure ends the loop. -/
def Activity.returned : Attempt → Activity
  | (.ok _, state) => .idle state
  | (.error _, _) => .stopped

/-- The attempt makes its next call, or returns. -/
def World.proceed (endpoint : SyncEndpoint Text) (nowMs : Int) (fault : Fault) (token : String)
    (w : World Text) : PropagatorM Attempt → Option (VerletResult PropagationStep) × World Text
  | .done attempt => (some attempt.1, { w with activity := .returned attempt })
  | .call .now k => (none, { w with activity := .running token (k nowMs) })
  | .call (.readEvents streamId fromSequence) k =>
    let result := fault.answer
      (liftHistory (Sqlite.readEvents endpoint.codec w.stores.child streamId fromSequence))
    (none, { w with activity := .running token (k result) })
  | .call (.persist state) k =>
    let stores := { w.stores with saved := fault.write state w.stores.saved }
    (none, { w with stores := stores, activity := .running token (k (fault.answer (.ok ()))) })
  | .call (.sync call) k =>
    (none, { w with activity := .awaiting token call (call.handler endpoint token) k })

/-- The request, with its answer thrown away. -/
def abandon {α : Type} (handler : EndpointM α) : EndpointM Unit := handler >>= fun _ => .done ()

/-- One call of a request. -/
def serveNext {α : Type} (endpoint : SyncEndpoint Text) (nowMs : Int) (leaseEpoch : Nat)
    (stores : Stores Text) : EndpointM α → EndpointM α × Stores Text
  | .done a => (.done a, stores)
  | .call call k =>
    let served := call.serve endpoint nowMs leaseEpoch stores.parent
    (k served.1, { stores with parent := served.2 })

/-- The propagator is gone; a request it awaited goes on without it. -/
def World.stop (w : World Text) : World Text :=
  match w.activity with
  | .awaiting _ _ handler _ =>
    { w with activity := .stopped, abandoned := w.abandoned ++ [abandon handler] }
  | _ => { w with activity := .stopped }

/-- One step of the world of a stream, with the result of the attempt that returns in it. -/
def World.step (endpoint : SyncEndpoint Text) (streamId : EventStreamId) (step : WorldStep)
    (w : World Text) : Option (VerletResult PropagationStep) × World Text :=
  match step with
  | .local call =>
    let child := (Sqlite.step endpoint.codec call w.stores.child).2
    (none, { w with stores := { w.stores with child := child } })
  | .parent op =>
    (none, { w with stores := { w.stores with parent := op.apply endpoint w.stores.parent } })
  | .boot lease =>
    match w.activity, w.stores.saved.lookup streamId with
    | .stopped, some state => (none, { w with activity := .idle state })
    | .stopped, none =>
      let state : StreamPropagationState := ⟨streamId, lease, none⟩
      let saved := w.stores.saved.insert streamId state
      (none, { w with stores := { w.stores with saved := saved }, activity := .idle state })
    | _, _ => (none, w)
  | .crash => (none, w.stop)
  | .begin propagator =>
    match w.activity with
    | .idle state =>
      let attempt := propagateOnce propagator state
      (none, { w with activity := .running propagator.bearerToken attempt })
    | _ => (none, w)
  | .proceed nowMs fault =>
    match w.activity with
    | .running token attempt => w.proceed endpoint nowMs fault token attempt
    | _ => (none, w)
  | .serve nowMs leaseEpoch =>
    match w.activity with
    | .awaiting token call handler rest =>
      let served := serveNext endpoint nowMs leaseEpoch w.stores handler
      (none, { w with stores := served.2, activity := .awaiting token call served.1 rest })
    | _ => (none, w)
  | .reply =>
    match w.activity with
    | .awaiting token _ (.done answer) rest =>
      (none, { w with activity := .running token (rest answer) })
    | _ => (none, w)
  | .giveUp text =>
    match w.activity with
    | .awaiting token call handler rest =>
      (none, { w with
        activity := .running token (rest (call.lost text))
        abandoned := w.abandoned ++ [abandon handler] })
    | _ => (none, w)
  | .serveAbandoned index nowMs leaseEpoch =>
    match w.abandoned[index]? with
    | none => (none, w)
    | some handler =>
      let served := serveNext endpoint nowMs leaseEpoch w.stores handler
      (none, { w with stores := served.2, abandoned := w.abandoned.set index served.1 })

/-! ### One child pushes the stream -/

/-- A step that is not the child's leaves the stream at the daemon alone: nobody else pushes it. -/
def SinglePusher (endpoint : SyncEndpoint Text) (streamId : EventStreamId) (w : World Text)
    (step : WorldStep) : Prop :=
  match step with
  | .parent op =>
    (op.apply endpoint w.stores.parent).authority.history.stream streamId =
      w.stores.parent.authority.history.stream streamId
  | _ => True

instance [DecidableEq Text] (endpoint : SyncEndpoint Text) (streamId : EventStreamId)
    (w : World Text) (step : WorldStep) : Decidable (SinglePusher endpoint streamId w step) :=
  match step with
  | .parent op => decEq ((op.apply endpoint w.stores.parent).authority.history.stream streamId)
      (w.stores.parent.authority.history.stream streamId)
  | .local _ | .boot _ | .crash | .begin _ | .proceed _ _ | .serve _ _ | .reply | .giveUp _
  | .serveAbandoned _ _ _ => .isTrue trivial

/-- A push of the stream finds the parent's tail inside its batch, under a current lease: some of
its records are there, and some are not. -/
def SplitsBatch (streamId : EventStreamId) (nowMs : Int) (db : AuthorityDb Text) :
    EndpointCall → Prop
  | .appendIfCurrent stream presented expected records =>
    stream = streamId ∧ fenceDecision db.leases stream presented nowMs = .current ∧
      expected < Sqlite.sqliteNextEventSequence db.history streamId ∧
      Sqlite.sqliteNextEventSequence db.history streamId < expected + records.length
  | _ => False

instance (streamId : EventStreamId) (nowMs : Int) (db : AuthorityDb Text) (call : EndpointCall) :
    Decidable (SplitsBatch streamId nowMs db call) :=
  match call with
  | .appendIfCurrent _ _ _ _ => inferInstanceAs (Decidable (_ ∧ _ ∧ _ ∧ _))
  | .now | .verifyToken _ | .renewLease _ | .insertRejection _ | .readEvents _ _
  | .queuePullAfter _ _ => .isFalse id

def Activity.nextCall : Activity → Option EndpointCall
  | .awaiting _ _ (.call call _) _ => some call
  | _ => none

/-- The step serves such a push, and the child awaits its answer. -/
def SplitsPush (streamId : EventStreamId) (w : World Text) (step : WorldStep) : Prop :=
  match step with
  | .serve nowMs _ =>
    ∃ call ∈ w.activity.nextCall, SplitsBatch streamId nowMs w.stores.parent.authority call
  | _ => False

instance (streamId : EventStreamId) (w : World Text) (step : WorldStep) :
    Decidable (SplitsPush streamId w step) :=
  match step with
  | .serve nowMs _ => inferInstanceAs (Decidable (∃ call ∈ w.activity.nextCall,
      SplitsBatch streamId nowMs w.stores.parent.authority call))
  | .local _ | .parent _ | .boot _ | .crash | .begin _ | .proceed _ _ | .reply | .giveUp _
  | .serveAbandoned _ _ _ => .isFalse id

end Verlet.RemoteStore
