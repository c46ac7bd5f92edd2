import Verlet.RemoteStore.Propagation.Attempts
import Verlet.RemoteStore.Propagation.Requests
import Verlet.RemoteStore.Propagation.Serving

/-!
# Remote store — Propagation — Safety

What every run keeps, from any point at which the parent's stream begins the child's: `Safe` says
that the databases are at a view, and that the attempt and every request under way keep to the
protocol from there on.
-/

namespace Verlet.RemoteStore
open Support
open History (EventStreamId EventRecord)
open History.Sqlite (Db)

variable {Text : Type} {endpoint : SyncEndpoint Text} {streamId : EventStreamId}
  {log : List EventRecord} {strict : Prop}

/-! ### The invariant -/

/-- A request keeps to the protocol and ends in `Q`. -/
abbrev Serves {α : Type} (streamId : EventStreamId) (strict : Prop) (Q : α → View log → Prop)
    (p : EndpointM α) (v : View log) : Prop :=
  p.Meets View.Grows (EndpointAsks log streamId) (EndpointAnswers log strict) Q v

/-- The propagator keeps to the protocol. -/
def Going (streamId : EventStreamId) (strict : Prop) : Activity → View log → Prop
  | .stopped, _ => True
  | .idle state, v => v.saved = some state
  | .running _ attempt, v => Attempts streamId strict (Ends strict) attempt v
  | .awaiting _ call handler rest, v => ∃ asked : View log,
      Serves streamId strict (SyncAnswers log strict call asked) handler v ∧
      Serves streamId False (fun _ _ => True) handler v ∧
      asked.Awaits v ∧
      ∀ answer v', asked.Awaits v' → SyncAnswers log strict call asked answer v' →
        Attempts streamId strict (Ends strict) (rest answer) v'

/-- The databases are at the view, and everything under way keeps to the protocol from there. -/
structure Safe (endpoint : SyncEndpoint Text) (streamId : EventStreamId) (strict : Prop)
    (w : World Text) (v : View log) : Prop where
  shows : Shows endpoint.codec streamId w.stores v
  confirmed : ∀ state, v.saved = some state → Confirmed streamId state v
  going : Going streamId strict w.activity v
  abandoned : ∀ handler ∈ w.abandoned, Serves streamId False (fun _ _ => True) handler v

/-- Both sides grow, and so does the persisted position. -/
structure View.Progress (v v' : View log) : Prop extends View.Grows v v' where
  behind : ∀ state, v.saved = some state → ∃ state', v'.saved = some state' ∧ state.Behind state'

theorem View.Awaits.progress {v v' : View log} (h : v.Awaits v') : v.Progress v' :=
  ⟨h.toGrows, fun state hs => ⟨state, h.saved.trans hs, .refl state⟩⟩

theorem View.Progress.trans {v v' v'' : View log} (h : v.Progress v') (h' : v'.Progress v'') :
    v.Progress v'' := by
  refine ⟨.trans _ _ _ h.toGrows h'.toGrows, fun state hs => ?_⟩
  obtain ⟨state', hs', hle⟩ := h.behind state hs
  obtain ⟨state'', hs'', hle'⟩ := h'.behind state' hs'
  exact ⟨state'', hs'', hle.trans hle'⟩

theorem Going.mono {activity : Activity} {v v' : View log} (h : Going streamId strict activity v)
    (hv : v.Awaits v') : Going streamId strict activity v' := by
  cases activity with
  | stopped => trivial
  | idle state => exact hv.saved.trans h
  | running token attempt => exact Proc.Meets.mono .trans h hv
  | awaiting token call handler rest =>
    obtain ⟨asked, hserves, hlax, hasked, hrest⟩ := h
    exact ⟨asked, hserves.mono .trans hv.toGrows, hlax.mono .trans hv.toGrows,
      .trans _ _ _ hasked hv, hrest⟩

/-- What the others do keeps everything under way, once the databases are at the next view. -/
theorem Safe.mono {w w' : World Text} {v v' : View log} (h : Safe endpoint streamId strict w v)
    (hv : v.Awaits v') (hshows : Shows endpoint.codec streamId w'.stores v')
    (hactivity : w'.activity = w.activity) (habandoned : w'.abandoned = w.abandoned) :
    Safe endpoint streamId strict w' v' where
  shows := hshows
  confirmed state hs := (h.confirmed state (hv.saved ▸ hs)).mono hv.toGrows
  going := hactivity ▸ h.going.mono hv
  abandoned handler hh := (h.abandoned handler (habandoned ▸ hh)).mono .trans hv.toGrows

theorem Safe.at {w : World Text} {v v' : View log} (h : Safe endpoint streamId strict w v)
    (hv : v.Awaits v') {stores : Stores Text} (hshows : Shows endpoint.codec streamId stores v') :
    Safe endpoint streamId strict { w with stores := stores } v' := h.mono hv hshows rfl rfl

theorem EndpointAnswers.lax {call : EndpointCall} {v v' : View log} {answer : call.Reply}
    (h : EndpointAnswers log strict call v answer v') :
    EndpointAnswers log False call v answer v' := by
  cases call with
  | appendIfCurrent stream presented expected records =>
    refine ⟨h.1, fun start hstart => ⟨(h.2 start hstart).1, fun _ hfalse => hfalse.elim⟩⟩
  | now | verifyToken _ | renewLease _ | insertRejection _ | readEvents _ _ | queuePullAfter _ _ =>
    exact h

theorem serves_abandon {α : Type} {handler : EndpointM α} {v : View log}
    (h : Serves streamId False (fun _ _ => True) handler v) :
    Serves streamId False (fun _ _ => True) (abandon handler) v :=
  h.bind .refl fun _ _ _ _ _ => trivial

/-! ### One step -/

/-- What one step makes of the invariant. -/
def Stays (endpoint : SyncEndpoint Text) (streamId : EventStreamId) (strict : Prop) (v : View log)
    (stepped : Option (VerletResult PropagationStep) × World Text) : Prop :=
  (∃ v' : View log, Safe endpoint streamId strict stepped.2 v' ∧ v.Progress v') ∧
    (strict → ∀ actual, stepped.1 ≠ some (.ok (.streamDiverged actual)))

section Step

variable {w : World Text} {v : View log}

theorem stays_of_safe {w' : World Text} {v' : View log} (h : Safe endpoint streamId strict w' v')
    (hv : v.Progress v') : Stays endpoint streamId strict v (none, w') := by
  refine ⟨⟨v', h, hv⟩, ?_⟩
  rintro _ _ ⟨⟩

theorem Safe.activity (h : Safe endpoint streamId strict w v) {activity : Activity}
    (hgoing : Going streamId strict activity v) :
    Safe endpoint streamId strict { w with activity := activity } v :=
  ⟨h.shows, h.confirmed, hgoing, h.abandoned⟩

/-- **An attempt's next call, or its end.** -/
theorem Safe.proceed (hlog : Readable endpoint.codec streamId log)
    (hqueue : strict → ¬ syncIngressQueueStreamPrefix.toList <+: streamId.text.toList)
    (h : Safe endpoint streamId strict w v) {token : String} {attempt : PropagatorM Attempt}
    (hattempt : Attempts streamId strict (Ends strict) attempt v) (nowMs : Int) (fault : Fault) :
    Stays endpoint streamId strict v (w.proceed endpoint nowMs fault token attempt) := by
  have hself : v.Progress v := (View.Awaits.refl v).progress
  cases attempt with
  | done attempt =>
    have hends : Ends strict attempt v := hattempt v (.refl v)
    refine ⟨⟨v, h.activity ?_, hself⟩, fun hs actual heq => ?_⟩
    · obtain ⟨_ | step, state⟩ := attempt
      · trivial
      · exact hends.saved step rfl
    · exact hends.converges hs actual (Option.some.inj heq)
  | call call k =>
    obtain ⟨hask, hgo⟩ := hattempt v (.refl v)
    cases call with
    | now => exact stays_of_safe (h.activity (hgo nowMs v rfl)) hself
    | readEvents stream fromSequence =>
      obtain rfl : stream = streamId := hask
      refine stays_of_safe (h.activity (hgo _ v ⟨rfl, fun events hevents => ?_⟩)) hself
      rw [local_answers hlog h.shows] at hevents
      cases fault <;> cases hevents
      rfl
    | persist state =>
      obtain ⟨hconfirmed, hbehind⟩ := hask
      obtain ⟨v', hshows, hanswers, hsaved, hv⟩ :=
        saved_answers strict h.shows hconfirmed.stream fault
      refine @stays_of_safe _ _ _ _ _ v _ v' ⟨hshows, ?_, hgo _ v' hanswers, ?_⟩ ⟨hv, ?_⟩
      · intro state' hs
        rcases hsaved with hsame | hnew
        · exact (h.confirmed state' (hsame ▸ hs)).mono hv
        · rw [hnew] at hs
          obtain rfl := Option.some.inj hs
          exact hconfirmed.mono hv
      · exact fun handler hh => (h.abandoned handler hh).mono .trans hv
      · intro prior hprior
        rcases hsaved with hsame | hnew
        · exact ⟨prior, hsame.trans hprior, .refl prior⟩
        · exact ⟨state, hnew, hbehind prior hprior⟩
    | sync call =>
      refine stays_of_safe (h.activity ⟨v, ?_, ?_, .refl v, fun answer v' hv' hanswer => ?_⟩) hself
      · exact handler_meets hlog.placed hqueue call hask
      · exact (handler_meets hlog.placed False.elim call hask).imp fun _ _ _ => trivial
      · exact hgo answer v' ⟨hv', hanswer⟩

theorem serveNext_meets (hlog : Readable endpoint.codec streamId log)
    (hshows : Shows endpoint.codec streamId w.stores v) {α : Type} {handler : EndpointM α}
    (nowMs : Int) (leaseEpoch : Nat) (hlax : Serves streamId False (fun _ _ => True) handler v)
    (hsplits : strict → ∀ call k, handler = .call call k →
      ¬ SplitsBatch streamId nowMs w.stores.parent.authority call) :
    ∃ v' : View log, v.Awaits v' ∧
      Shows endpoint.codec streamId (serveNext endpoint nowMs leaseEpoch w.stores handler).2 v' ∧
      Serves streamId False (fun _ _ => True)
        (serveNext endpoint nowMs leaseEpoch w.stores handler).1 v' ∧
      ∀ Q : α → View log → Prop, Serves streamId strict Q handler v →
        Serves streamId strict Q (serveNext endpoint nowMs leaseEpoch w.stores handler).1 v' := by
  cases handler with
  | done a => exact ⟨v, .refl v, hshows, hlax, fun _ hserves => hserves⟩
  | call call k =>
    obtain ⟨hask, hgo⟩ := hlax v (.refl v)
    obtain ⟨v', hshows', hanswer, hv⟩ := serve_answers strict nowMs leaseEpoch
      hlog hshows hask fun hs => hsplits hs call k rfl
    refine ⟨v', hv, hshows', hgo _ v' hanswer.lax, fun Q hserves => ?_⟩
    exact (hserves v (.refl v)).2 _ v' hanswer

theorem lost_answers (call : SyncCall) (text : String) (asked : View log) :
    SyncAnswers log strict call asked (call.lost text) v := by
  cases call with
  | renew => trivial
  | push request => exact fun _ _ => .of_error _
  | pull stream cursor =>
    refine ⟨?_, ?_⟩
    · rintro _ ⟨⟩
    · rintro _ _ ⟨⟩
      exact .inr ⟨text, rfl⟩

variable (h : Safe endpoint streamId strict w v)

include h

theorem Safe.local (child : Db Text)
    (hgrows : w.stores.child.stream streamId <+: child.stream streamId)
    (hchild : child.stream streamId <+: log.map (.of endpoint.codec)) :
    Stays endpoint streamId strict v
      (none, { w with stores := { w.stores with child := child } }) := by
  have hlen : v.child ≤ (child.stream streamId).length := by
    have hle := hgrows.length_le
    rw [h.shows.child, List.length_map, List.length_take, Nat.min_eq_left v.child_le] at hle
    exact hle
  have hbound : (child.stream streamId).length ≤ log.length := by
    have hle := hchild.length_le
    rwa [List.length_map] at hle
  let v' : View log := ⟨v.parent, (child.stream streamId).length, v.saved,
    v.parent_le.trans hlen, hbound⟩
  have hv : v.Awaits v' := ⟨⟨le_rfl, hlen⟩, rfl⟩
  refine stays_of_safe (h.mono hv ⟨h.shows.parent, ?_, h.shows.saved, h.shows.counted⟩ rfl rfl)
    hv.progress
  rw [List.map_take]
  exact List.prefix_iff_eq_take.mp hchild

theorem Safe.parent (op : ParentOp) (hsingle : SinglePusher endpoint streamId w (.parent op)) :
    Stays endpoint streamId strict v (w.step endpoint streamId (.parent op)) := by
  refine stays_of_safe (h.mono (.refl v) ⟨?_, h.shows.child, h.shows.saved, ?_⟩ rfl rfl)
    (View.Awaits.refl v).progress
  · exact Eq.trans hsingle h.shows.parent
  · exact counted_of_moves h.shows.counted (apply_history op w.stores.parent)

theorem Safe.boot (lease : StreamLeaseGrantV1) :
    Stays endpoint streamId strict v (w.step endpoint streamId (.boot lease)) := by
  have hself : v.Progress v := (View.Awaits.refl v).progress
  simp only [World.step]
  split
  · rename_i hlookup
    exact stays_of_safe (h.activity (h.shows.saved.symm.trans hlookup)) hself
  · rename_i hlookup
    have hnone : v.saved = none := h.shows.saved.symm.trans hlookup
    let v' : View log := { v with saved := some ⟨streamId, lease, none⟩ }
    have hgrows : v.Grows v' := ⟨le_rfl, le_rfl⟩
    refine @stays_of_safe _ _ _ _ _ v _ v' ⟨⟨h.shows.parent, h.shows.child, ?_, h.shows.counted⟩, ?_, rfl,
      fun handler hh => (h.abandoned handler hh).mono .trans hgrows⟩ ⟨hgrows, ?_⟩
    · rw [Map.lookup_insert, if_pos rfl]
    · rintro _ ⟨⟩
      refine ⟨rfl, ?_, ?_⟩ <;> rintro _ ⟨⟩
    · intro state hs
      rw [hnone] at hs
      cases hs
  · exact stays_of_safe h hself

theorem Safe.abandon {α : Type} {handler : EndpointM α}
    {activity : Activity} (hgoing : Going streamId strict activity v)
    (hlax : Serves streamId False (fun _ _ => True) handler v) :
    Safe endpoint streamId strict
      { w with activity := activity, abandoned := w.abandoned ++ [RemoteStore.abandon handler] } v where
  shows := h.shows
  confirmed := h.confirmed
  going := hgoing
  abandoned handler' hh := by
    rcases List.mem_append.mp hh with hold | hnew
    · exact h.abandoned handler' hold
    · obtain rfl := List.mem_singleton.mp hnew
      exact serves_abandon hlax

omit h

/-- **Every step keeps the world safe**, and moves it forward. -/
theorem Safe.step (hlog : Readable endpoint.codec streamId log)
    (hqueue : strict → ¬ syncIngressQueueStreamPrefix.toList <+: streamId.text.toList)
    (h : Safe endpoint streamId strict w v) {step : WorldStep}
    (hsingle : SinglePusher endpoint streamId w step) (hsplits : strict → ¬ SplitsPush streamId w step)
    (hgrows : w.stores.child.stream streamId <+:
      (w.step endpoint streamId step).2.stores.child.stream streamId)
    (hchild : (w.step endpoint streamId step).2.stores.child.stream streamId <+:
      log.map (.of endpoint.codec)) :
    Stays endpoint streamId strict v (w.step endpoint streamId step) := by
  have hself : v.Progress v := (View.Awaits.refl v).progress
  have hgoing := h.going
  cases step with
  | «local» call => exact h.local _ hgrows hchild
  | parent op => exact h.parent op hsingle
  | boot lease => exact h.boot lease
  | crash =>
    simp only [World.step, World.stop]
    split
    · rename_i handler _ heq
      rw [heq] at hgoing
      obtain ⟨_, -, hlax, -, -⟩ := hgoing
      exact stays_of_safe (h.abandon trivial hlax) hself
    · exact stays_of_safe (h.activity trivial) hself
  | begin propagator =>
    simp only [World.step]
    split
    · rename_i state heq
      rw [heq] at hgoing
      have hholding : Holding streamId state v := ⟨h.confirmed state hgoing, hgoing⟩
      exact stays_of_safe (h.activity (propagateOnce_meets hlog.placed propagator hholding)) hself
    · exact stays_of_safe h hself
  | proceed nowMs fault =>
    simp only [World.step]
    split
    · rename_i token attempt heq
      rw [heq] at hgoing
      exact h.proceed hlog hqueue hgoing nowMs fault
    · exact stays_of_safe h hself
  | serve nowMs leaseEpoch =>
    simp only [World.step]
    split
    · rename_i token call handler rest heq
      rw [heq] at hgoing
      obtain ⟨asked, hserves, hlax, hasked, hrest⟩ := hgoing
      have hsplits' : strict → ∀ call k, handler = .call call k →
          ¬ SplitsBatch streamId nowMs w.stores.parent.authority call := by
        rintro hs call k rfl hsplit
        exact hsplits hs ⟨call, by rw [heq]; rfl, hsplit⟩
      obtain ⟨v', hv, hshows, hlax', hserves'⟩ :=
        serveNext_meets hlog h.shows nowMs leaseEpoch hlax hsplits'
      have hnext := h.at hv hshows
      exact stays_of_safe (hnext.activity
        ⟨asked, hserves' _ hserves, hlax', .trans _ _ _ hasked hv, hrest⟩) hv.progress
    · exact stays_of_safe h hself
  | reply =>
    simp only [World.step]
    split
    · rename_i token call answer rest heq
      rw [heq] at hgoing
      obtain ⟨asked, hserves, -, hasked, hrest⟩ := hgoing
      exact stays_of_safe (h.activity (hrest answer v hasked (hserves v (.refl v)))) hself
    · exact stays_of_safe h hself
  | giveUp text =>
    simp only [World.step]
    split
    · rename_i token call handler rest heq
      rw [heq] at hgoing
      obtain ⟨asked, -, hlax, hasked, hrest⟩ := hgoing
      exact stays_of_safe
        (h.abandon (hrest _ v hasked (lost_answers call text asked)) hlax) hself
    · exact stays_of_safe h hself
  | serveAbandoned index nowMs leaseEpoch =>
    simp only [World.step]
    split
    · exact stays_of_safe h hself
    · rename_i handler hget
      have hlax := h.abandoned handler (List.mem_of_getElem? hget)
      -- nobody reads what an abandoned request answers, so nothing is asked of its push
      obtain ⟨v', hv, hshows, hlax', -⟩ := serveNext_meets hlog h.shows
        nowMs leaseEpoch hlax False.elim
      have hnext := h.at hv hshows
      refine stays_of_safe ⟨hnext.shows, hnext.confirmed, hnext.going, fun handler' hh => ?_⟩
        hv.progress
      rcases List.mem_or_eq_of_mem_set hh with hold | rfl
      · exact hnext.abandoned handler' hold
      · exact hlax'

end Step

end Verlet.RemoteStore
