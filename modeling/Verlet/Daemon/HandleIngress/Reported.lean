import Verlet.Daemon.HandleIngress.Deliveries
import Verlet.Kernel.ThreadSpawnProjector.OneEntry

/-!
# Daemon — Thread handle ingress — Every child is reported

A child that has been joined is to be reported once, to the thread that it works for.  What an adapter has
acknowledged, what the sink takes as the same, and what a target is resolved by is the dispatch id alone,
which two parents may share.
-/

namespace Verlet.Daemon.HandleIngress
open Support Kernel Io History
open RemoteStore (VerletError)
open Proc (Meets Settles)

variable {adapter : ThreadHandleIngressAdapter} {rows rows' : List EventRecord}
  {s s' s'' : IngressWorld} {binding binding' : ThreadHandleBinding} {envelope : IngressEnvelope}
  {calm : Prop}

/-! ### The target of an outcome -/

section Resolve
variable {terminal : HandleTerminalEnvelope} {resolved resolved' : Option ThreadCoordinates}

def OfDispatch (terminal : HandleTerminalEnvelope) (binding : ThreadHandleBinding) : Prop :=
  binding.dispatchId = terminal.dispatchId

theorem resolveBinding_cases (terminal : HandleTerminalEnvelope) (resolved : Option ThreadCoordinates)
    (binding : ThreadHandleBinding) :
    (¬ OfDispatch terminal binding ∧ resolveBinding terminal resolved binding = .ok resolved) ∨
      (OfDispatch terminal binding ∧ binding.handle = terminal.handle ∧
        (∀ consumer, resolved = some consumer → consumer = binding.consumer) ∧
        resolveBinding terminal resolved binding = .ok (some binding.consumer)) ∨
      (OfDispatch terminal binding ∧
        (binding.handle ≠ terminal.handle ∨ ∃ consumer, resolved = some consumer ∧ consumer ≠ binding.consumer) ∧
        ∃ err, resolveBinding terminal resolved binding = .error err) := by
  unfold resolveBinding OfDispatch keepConsumer
  by_cases hid : binding.dispatchId = terminal.dispatchId
  · by_cases hhandle : binding.handle = terminal.handle
    · cases resolved with
      | none => simp [hid, hhandle]
      | some consumer => by_cases hconsumer : consumer = binding.consumer <;> simp [hid, hhandle, hconsumer]
    · simp [hid, hhandle]
  · simp [hid]

theorem resolveBindings_cases (bindings : List ThreadHandleBinding) (resolved : Option ThreadCoordinates) :
    (∃ resolved', bindings.foldlM (resolveBinding terminal) resolved = .ok resolved' ∧
        (∀ consumer, resolved = some consumer → resolved' = some consumer) ∧
        (∀ consumer, resolved' = some consumer → resolved = some consumer ∨
          ∃ binding ∈ bindings, OfDispatch terminal binding ∧ binding.consumer = consumer) ∧
        ∀ binding ∈ bindings, OfDispatch terminal binding →
          binding.handle = terminal.handle ∧ resolved' = some binding.consumer) ∨
      ((∃ err, bindings.foldlM (resolveBinding terminal) resolved = .error err) ∧
        ∃ binding ∈ bindings, OfDispatch terminal binding ∧ (binding.handle ≠ terminal.handle ∨
          ∃ consumer, consumer ≠ binding.consumer ∧ (resolved = some consumer ∨
            ∃ other ∈ bindings, OfDispatch terminal other ∧ other.consumer = consumer))) := by
  induction bindings generalizing resolved with
  | nil => exact .inl ⟨resolved, rfl, fun _ h => h, fun _ h => .inl h, nofun⟩
  | cons binding bindings ih =>
    simp only [List.foldlM_cons]
    rcases resolveBinding_cases terminal resolved binding with
      ⟨hnot, hstep⟩ | ⟨hof, hhandle, hsame, hstep⟩ | ⟨hof, hconflict, err, hstep⟩
    · simp only [hstep]
      rcases ih resolved with ⟨resolved', hfold, hkept, horigin, hall⟩ | ⟨herr, other, hmem, hof, hconflict⟩
      · refine .inl ⟨resolved', hfold, hkept, fun consumer hconsumer => ?_, fun other hmem hof => ?_⟩
        · refine (horigin consumer hconsumer).imp_right ?_
          rintro ⟨other, hmem, hrest⟩
          exact ⟨other, List.mem_cons_of_mem _ hmem, hrest⟩
        · rcases List.mem_cons.mp hmem with rfl | hmem
          · exact absurd hof hnot
          · exact hall other hmem hof
      · refine .inr ⟨herr, other, List.mem_cons_of_mem _ hmem, hof, hconflict.imp_right ?_⟩
        rintro ⟨consumer, hne, horigin⟩
        refine ⟨consumer, hne, horigin.imp_right ?_⟩
        rintro ⟨third, hthird, hrest⟩
        exact ⟨third, List.mem_cons_of_mem _ hthird, hrest⟩
    · simp only [hstep]
      rcases ih (some binding.consumer) with
        ⟨resolved', hfold, hkept, horigin, hall⟩ | ⟨herr, other, hmem, hof', hconflict⟩
      · have hresolved : resolved' = some binding.consumer := hkept _ rfl
        refine .inl ⟨resolved', hfold, fun consumer hconsumer => ?_, fun consumer hconsumer => ?_,
          fun other hmem hof' => ?_⟩
        · rw [hresolved, hsame consumer hconsumer]
        · rw [hresolved] at hconsumer
          exact .inr ⟨binding, List.mem_cons_self, hof, Option.some.inj hconsumer⟩
        · rcases List.mem_cons.mp hmem with rfl | hmem
          · exact ⟨hhandle, hresolved⟩
          · exact hall other hmem hof'
      · refine .inr ⟨herr, other, List.mem_cons_of_mem _ hmem, hof', hconflict.imp_right ?_⟩
        rintro ⟨consumer, hne, horigin⟩
        refine ⟨consumer, hne, .inr ?_⟩
        rcases horigin with hfirst | ⟨third, hthird, hrest⟩
        · exact ⟨binding, List.mem_cons_self, hof, Option.some.inj hfirst⟩
        · exact ⟨third, List.mem_cons_of_mem _ hthird, hrest⟩
    · refine .inr ⟨⟨err, by simp only [hstep]; rfl⟩, binding, List.mem_cons_self, hof, hconflict.imp_right ?_⟩
      rintro ⟨consumer, hresolved, hne⟩
      exact ⟨consumer, hne, .inl hresolved⟩

/-- The consumer has a binding of the dispatch. -/
def Known (adapter : ThreadHandleIngressAdapter) (rows : List EventRecord) (terminal : HandleTerminalEnvelope)
    (consumer : ThreadCoordinates) : Prop :=
  ∃ binding, Bound adapter rows binding ∧ OfDispatch terminal binding ∧ binding.consumer = consumer

/-- A binding of the dispatch is of another handle, or another binding for another consumer. -/
def Conflict (adapter : ThreadHandleIngressAdapter) (rows : List EventRecord)
    (terminal : HandleTerminalEnvelope) : Prop :=
  ∃ binding, Bound adapter rows binding ∧ OfDispatch terminal binding ∧
    (binding.handle ≠ terminal.handle ∨ ∃ consumer, consumer ≠ binding.consumer ∧
      Known adapter rows terminal consumer)

theorem Known.mono {consumer : ThreadCoordinates} (h : rows <+: rows')
    (hknown : Known adapter rows terminal consumer) : Known adapter rows' terminal consumer := by
  obtain ⟨binding, hbound, hrest⟩ := hknown
  exact ⟨binding, hbound.mono h, hrest⟩

theorem Conflict.mono (h : rows <+: rows') (hconflict : Conflict adapter rows terminal) :
    Conflict adapter rows' terminal := by
  obtain ⟨binding, hbound, hof, hconflict⟩ := hconflict
  refine ⟨binding, hbound.mono h, hof, hconflict.imp_right ?_⟩
  rintro ⟨consumer, hne, hknown⟩
  exact ⟨consumer, hne, hknown.mono h⟩

theorem resolveFrom_cases (hgood : Good adapter s) (hkind : terminal.handle.kind = .thread)
    (coordinates : ThreadCoordinates)
    (hknown : ∀ consumer, resolved = some consumer → Known adapter s.rows terminal consumer) :
    (∃ resolved', resolveFrom terminal resolved (eventsOf s.rows (controlStreamId coordinates)) = .ok resolved' ∧
        (∀ consumer, resolved = some consumer → resolved' = some consumer) ∧
        (∀ consumer, resolved' = some consumer → Known adapter s.rows terminal consumer) ∧
        ∀ binding, Bound adapter s.rows binding → binding.consumer = coordinates → OfDispatch terminal binding →
          binding.handle = terminal.handle ∧ resolved' = some binding.consumer) ∨
      ((∃ err, resolveFrom terminal resolved (eventsOf s.rows (controlStreamId coordinates)) = .error err) ∧
        Conflict adapter s.rows terminal) := by
  have hwritten := hgood.written (controlStreamId coordinates)
  unfold resolveFrom
  rw [hkind]
  dsimp only
  unfold resolveThread
  split
  · next hnone =>
    refine .inl ⟨resolved, rfl, fun _ h => h, hknown, ?_⟩
    rintro binding ⟨-, spawned, hbinds⟩ rfl hof
    refine absurd (List.any_eq_true.mpr ⟨spawned, hbinds.1, decide_eq_true ⟨hbinds.2.1, ?_⟩⟩) hnone
    rw [hbinds.correlation, show binding.dispatchId = terminal.dispatchId from hof]
  · obtain ⟨bindings, hfold, hmem⟩ := foldThreadHandleBindings_ok hwritten.bindable
    rw [hfold]
    dsimp only
    -- whatever is bound here is bound
    have hbound (binding) (h : binding ∈ bindings) : Bound adapter s.rows binding := by
      obtain ⟨spawned, hbinds⟩ := (hmem binding).mp h
      exact (hgood.bound hbinds).1
    rcases @resolveBindings_cases terminal bindings resolved with
      ⟨resolved', hok, hkept, horigin, hall⟩ | ⟨herr, binding, hbinding, hof, hconflict⟩
    · refine .inl ⟨resolved', hok, hkept, fun consumer hconsumer => ?_, ?_⟩
      · rcases horigin consumer hconsumer with hold | ⟨binding, hbinding, hof, rfl⟩
        · exact hknown consumer hold
        · exact ⟨binding, hbound binding hbinding, hof, rfl⟩
      · rintro binding ⟨-, spawned, hbinds⟩ rfl hof
        exact hall binding ((hmem binding).mpr ⟨spawned, hbinds⟩) hof
    · refine .inr ⟨herr, binding, hbound binding hbinding, hof, hconflict.imp_right ?_⟩
      rintro ⟨consumer, hne, hold | ⟨other, hother, hof', rfl⟩⟩
      · exact ⟨consumer, hne, hknown consumer hold⟩
      · exact ⟨other.consumer, hne, other, hbound other hother, hof', rfl⟩

/-- **The loop over the control streams.** -/
theorem settles_resolveLoop (hgood : Good adapter s) (hkind : terminal.handle.kind = .thread)
    {consumers : List ThreadCoordinates}
    (hknown : ∀ consumer, resolved = some consumer → Known adapter s.rows terminal consumer) :
    SettlesIn adapter calm
      (fun resolved' s' => Rely adapter calm s s' ∧
        (∀ consumer, resolved = some consumer → resolved' = some consumer) ∧
        ∀ binding, Bound adapter s.rows binding → binding.consumer ∈ consumers → OfDispatch terminal binding →
          binding.handle = terminal.handle ∧ resolved' = some binding.consumer)
      (fun _ s' => Rely adapter calm s s' ∧ (calm → Conflict adapter s'.rows terminal))
      (resolveLoop adapter terminal consumers resolved) s := by
  induction consumers generalizing s resolved with
  | nil =>
    refine Settles.pure fun s' h' => ⟨h', fun _ h => h, ?_⟩
    rintro binding - ⟨⟩
  | cons coordinates consumers ih =>
    unfold resolveLoop
    split
    · next hscope =>
      refine Settles.imp ?_ (fun _ _ h => h) (ih hgood hknown)
      rintro resolved' s' ⟨h', hkept, hall⟩
      refine ⟨h', hkept, fun binding hbound hmem hof => ?_⟩
      rcases List.mem_cons.mp hmem with rfl | hmem
      · exact absurd hbound.1 hscope
      · exact hall binding hbound hmem hof
    · refine settles_quiet hgood (fun _ => trivial) ?_
      rintro read s₁ s₂ ⟨⟨hread, rfl⟩, hanswered⟩ hgood₂ h₂ -
      refine Settles.settle (fun events hevents => ?_) (fun err herr s' h' => ?_)
      · obtain rfl : eventsOf s₂.rows (controlStreamId coordinates) = events := by
          rcases hread with ⟨err, rfl⟩ | rfl
          · cases hevents
          · exact Except.ok.inj hevents
        rcases resolveFrom_cases hgood₂ hkind coordinates fun c hc => (hknown c hc).mono h₂.rows with
          ⟨resolved₁, hok, hkept, hknown₁, hall⟩ | ⟨⟨err, herr⟩, hconflict⟩
        · rw [hok]
          refine Settles.settle (fun found hfound => ?_) fun _ herr => by cases herr
          obtain rfl := Except.ok.inj hfound
          refine Settles.imp ?_ ?_ (ih hgood₂ hknown₁)
          · rintro resolved' s' ⟨h', hkept', hall'⟩
            refine ⟨h₂.trans h', fun c hc => hkept' c (hkept c hc), fun binding hbound hmem hof => ?_⟩
            rcases List.mem_cons.mp hmem with hconsumer | hmem
            · obtain ⟨hhandle, hresolved⟩ := hall binding (hbound.mono h₂.rows) hconsumer hof
              exact ⟨hhandle, hkept' _ hresolved⟩
            · exact hall' binding (hbound.mono h₂.rows) hmem hof
          · rintro err s' ⟨h', hconflict⟩
            exact ⟨h₂.trans h', hconflict⟩
        · rw [herr]
          refine Settles.settle nofun fun err' _ s' h' => ⟨h₂.trans h', fun _ => hconflict.mono h'.rows⟩
      · refine ⟨h₂.trans h', fun hcalm => ?_⟩
        obtain ⟨events, rfl⟩ := hanswered hcalm
        cases herr

/-- **The target of a thread's outcome** is the consumer of every binding of its dispatch, where there is one and
they do not conflict. -/
theorem settles_resolve (hgood : Good adapter s) (hkind : terminal.handle.kind = .thread)
    {policy : TargetPolicy} {payload : Json} (hdecode : Wire.terminalEnvelope.fromValue payload = .ok terminal) :
    SettlesIn adapter calm
      (fun target s' => Rely adapter calm s s' ∧ ∃ consumer, target = outcomeTarget policy envelope consumer ∧
        (calm → ∀ binding, Bound adapter s.rows binding → OfDispatch terminal binding →
          binding.consumer = consumer))
      (fun _ s' => Rely adapter calm s s' ∧ (calm → Conflict adapter s'.rows terminal ∨
        ∀ binding, Bound adapter s.rows binding → ¬ OfDispatch terminal binding))
      (resolveHandleOutcomeTarget adapter policy envelope payload) s := by
  refine Settles.settle (fun found hfound => ?_) (fun err herr s' _ => ?_)
  · rw [decodeIo, hdecode] at hfound
    obtain rfl := Except.ok.inj hfound
    refine settles_quiet hgood (fun _ => trivial) ?_
    rintro listed s₁ s₂ ⟨⟨hlisted, rfl⟩, hanswered⟩ hgood₂ h₂ -
    refine Settles.settle (fun consumers hconsumers => ?_) (fun err herr s' h' =>
      ⟨h₂.trans h', fun hcalm => ?_⟩)
    · have hlisted (hcalm : calm) : consumers = controlCoordinates s₂.rows := by
        obtain ⟨found, hfound⟩ := hanswered hcalm
        rcases hlisted with ⟨err, rfl⟩ | rfl
        · cases hfound
        · exact (Except.ok.inj hconsumers).symm
      have hnone : ∀ consumer, (none : Option ThreadCoordinates) = some consumer →
          Known adapter s₂.rows terminal consumer := nofun
      refine Settles.bind (Rely.refl calm) ?_ ?_
      · rintro err s' s'' ⟨hrely, hconflict⟩ h'
        exact ⟨hrely.trans h', fun hcalm => (hconflict hcalm).imp_left fun hconflict => hconflict.mono h'.rows⟩
      · refine Settles.imp ?_
          (fun _ s' hconflict => ⟨h₂.trans hconflict.1, fun hcalm => .inl (hconflict.2 hcalm)⟩)
          (settles_resolveLoop hgood₂ hkind hnone)
        rintro resolved s₃ ⟨h₃, -, hall⟩
        have hall (hcalm : calm) (binding) (hbound : Bound adapter s.rows binding)
            (hof : OfDispatch terminal binding) : resolved = some binding.consumer := by
          have hbound₂ : Bound adapter s₂.rows binding := hbound.mono h₂.rows
          exact (hall binding hbound₂ (hlisted hcalm ▸ hbound₂.listed) hof).2
        cases resolved with
        | none =>
          refine Settles.throw fun s' h' =>
            ⟨(h₂.trans h₃).trans h', fun hcalm => .inr fun binding hbound hof => ?_⟩
          cases hall hcalm binding hbound hof
        | some consumer =>
          refine Settles.pure fun s' h' =>
            ⟨(h₂.trans h₃).trans h', consumer, rfl, fun hcalm binding hbound hof => ?_⟩
          exact (Option.some.inj (hall hcalm binding hbound hof)).symm
    · obtain ⟨found, rfl⟩ := hanswered hcalm
      cases herr
  · rw [decodeIo, hdecode] at herr
    cases herr

end Resolve

/-! ### Reported where nothing is shared -/

theorem terminal_of_reports {kind : String} {payload : Json} (h : reports binding envelope = true)
    (hcontent : envelope.content = .event kind payload) :
    ∃ terminal, Wire.terminalEnvelope.fromValue payload = .ok terminal ∧ OfDispatch terminal binding ∧
      terminal.handle = binding.handle := by
  obtain ⟨-, -, houtcome⟩ := reports_iff.mp h
  obtain ⟨terminal, hterminal, heq⟩ := Option.map_eq_some_iff.mp houtcome
  obtain ⟨hid, hhandle⟩ := Prod.mk.inj heq
  unfold outcomeOf at hterminal
  rw [hcontent] at hterminal
  dsimp only at hterminal
  split at hterminal
  · cases hdecode : Wire.terminalEnvelope.fromValue payload with
    | error err => simp [hdecode, Except.toOption] at hterminal
    | ok found =>
      rw [hdecode] at hterminal
      obtain rfl := Option.some.inj hterminal
      exact ⟨found, rfl, hid.symm, hhandle⟩
  · cases hterminal

theorem Bound.handle_kind (h : Bound adapter rows binding) : binding.handle.kind = .thread := by
  obtain ⟨-, spawned, hbinds⟩ := h
  obtain ⟨_, _, _, -, -, -, -, -, -, hbinding⟩ := bindingOf_some.mp hbinds.2.2
  rw [hbinding]
  rfl

theorem not_conflict {terminal : HandleTerminalEnvelope} (hgood : Good adapter s)
    (hunshared : Unshared adapter s.rows) (hjoined : Joined adapter s.rows binding)
    (hof : OfDispatch terminal binding) (hhandle : terminal.handle = binding.handle) :
    ¬ Conflict adapter s.rows terminal := by
  -- every binding of the dispatch is this one
  have hsame (other) (hbound : Bound adapter s.rows other) (hof' : OfDispatch terminal other) :
      other = binding := by
    have hid : other.dispatchId = binding.dispatchId := hof'.trans hof.symm
    exact hgood.binding_eq hbound hjoined.1 (hunshared binding other hjoined hbound hid) hid
  rintro ⟨other, hbound, hof', hother | ⟨consumer, hne, third, hbound', hof'', rfl⟩⟩
  · rw [hsame other hbound hof'] at hother
    exact hother hhandle.symm
  · rw [hsame other hbound hof', hsame third hbound' hof''] at hne
    exact hne rfl

/-- **Where no dispatch is shared, every joined child is reported.** -/
theorem reported_of_unshared {policy : TargetPolicy} (hgood : Good adapter s)
    (hunshared : Unshared adapter s.rows) : Reported adapter policy s where
  once binding _ := hgood.deliveries_le binding
  delivered := by
    refine Meets.asking (fun _ _ _ => trivial) (Meets.imp ?_ (settles_pollReadyOnce hgood))
    rintro (err | outcome) s' h'
    · exact absurd trivial h'
    · intro binding hjoined
      exact (h'.1.good hgood).deliveries_length (h'.1.unshared trivial hunshared)
        (hjoined.mono h'.1.rows) (h'.2 trivial binding hjoined)
  resolved binding envelope kind payload hjoined hreports hcontent := by
    obtain ⟨terminal, hdecode, hof, hhandle⟩ := terminal_of_reports hreports hcontent
    have hkind : terminal.handle.kind = .thread := hhandle ▸ hjoined.1.handle_kind
    refine Meets.asking (fun _ _ _ => trivial) (Meets.imp ?_ (settles_resolve hgood hkind hdecode))
    rintro (err | target) s' ⟨h', hresult⟩
    · exfalso
      rcases hresult trivial with hconflict | hnone
      · exact not_conflict (h'.good hgood) (h'.unshared trivial hunshared) (hjoined.mono h'.rows) hof
          hhandle hconflict
      · exact hnone binding hjoined.1 hof
    · obtain ⟨consumer, rfl, hall⟩ := hresult
      rw [hall trivial binding hjoined.1 hof]

/-! ### Nothing is shared where every child is reported -/

theorem Bound.outcome (h : Bound adapter rows binding) :
    ∃ envelope kind payload, reports binding envelope = true ∧ envelope.content = .event kind payload := by
  obtain ⟨-, spawned, hbinds⟩ := h
  obtain ⟨payload, _, _, -, -, -, -, -, -, hbinding⟩ := bindingOf_some.mp hbinds.2.2
  have hsettlement : SettlementOf binding
      ⟨binding.consumer, binding.dispatchId, payload.childThreadId, .completed, none⟩ :=
    ⟨rfl, rfl, by rw [hbinding]⟩
  exact ⟨_, _, _, reports_ingressEnvelope hsettlement ⟨[], [], []⟩ ⟨"", 0⟩, rfl⟩

/-- The sink takes what it has not taken. -/
def takeCalmly (envelope : IngressEnvelope) (s : IngressWorld) : Except String IngressAck × IngressWorld :=
  if ∃ earlier ∈ s.accepted, earlier.effectiveDedupeKey = envelope.effectiveDedupeKey then
    (.ok (.ofRejected envelope "duplicate dedupe key"), s)
  else (.ok (.ofAccepted envelope), { s with accepted := s.accepted ++ [envelope] })

/-- What is answered where nothing fails. -/
def serveCalmly : (call : IngressCall) → IngressWorld → call.Reply × IngressWorld
  | .listControlStreamCoordinates, s => (.ok (controlCoordinates s.rows), s)
  | .readEvents streamId, s          => (.ok (eventsOf s.rows streamId), s)
  | .buildContext _, s               => (.ok ⟨[], [], []⟩, s)
  | .seed, s                         => (⟨"", 0⟩, s)
  | .isAcknowledged dispatchId, s    => (Decidable.decide (dispatchId ∈ s.acknowledged), s)
  | .submit envelope, s              => takeCalmly envelope s
  | .acknowledge dispatchId, s       => ((), { s with acknowledged := dispatchId :: s.acknowledged })

theorem answers_takeCalmly (envelope : IngressEnvelope) (s : IngressWorld) :
    answers True (.submit envelope) s (takeCalmly envelope s).1 (takeCalmly envelope s).2 := by
  unfold takeCalmly
  split
  · next htaken => exact ⟨.duplicate _ rfl rfl htaken, fun _ => ⟨_, rfl, .inr rfl⟩⟩
  · next hnew =>
    have hnew : ∀ earlier ∈ s.accepted, earlier.effectiveDedupeKey ≠ envelope.effectiveDedupeKey :=
      fun earlier hmem hkey => hnew ⟨earlier, hmem, hkey⟩
    exact ⟨.accepted _ rfl ⟨hnew, rfl⟩, fun _ => ⟨_, rfl, .inl rfl⟩⟩

theorem answers_serveCalmly (call : IngressCall) (s : IngressWorld) :
    answers True call s (serveCalmly call s).1 (serveCalmly call s).2 := by
  cases call with
  | listControlStreamCoordinates => exact ⟨⟨.inr rfl, rfl⟩, fun _ => ⟨_, rfl⟩⟩
  | readEvents streamId => exact ⟨⟨.inr rfl, rfl⟩, fun _ => ⟨_, rfl⟩⟩
  | buildContext child => exact ⟨rfl, fun _ => ⟨_, rfl⟩⟩
  | seed => exact ⟨rfl, fun _ => trivial⟩
  | isAcknowledged dispatchId => exact ⟨⟨rfl, rfl⟩, fun _ => trivial⟩
  | submit envelope => exact answers_takeCalmly envelope s
  | acknowledge dispatchId => exact ⟨rfl, fun _ => trivial⟩

/-- **Where every joined child is reported, no dispatch is shared**: the target of its outcome is the consumer
of every binding of the dispatch. -/
theorem unshared_of_reported {policy : TargetPolicy} (hgood : Good adapter s)
    (hreported : Reported adapter policy s) : Unshared adapter s.rows := by
  intro binding binding' hjoined hbound' hid
  obtain ⟨envelope, kind, payload, hreports, hcontent⟩ := hjoined.1.outcome
  obtain ⟨terminal, hdecode, hof, hhandle⟩ := terminal_of_reports hreports hcontent
  have hkind : terminal.handle.kind = .thread := hhandle ▸ hjoined.1.handle_kind
  -- the target is resolved while nothing else happens
  have hresolved := (hreported.resolved binding envelope kind payload hjoined hreports hcontent).alone
    (Rely.refl True) answers_serveCalmly
  have hsettled := Meets.alone (Rely.refl True) answers_serveCalmly
    (@settles_resolve adapter s envelope True terminal hgood hkind policy payload hdecode)
  rw [hresolved] at hsettled
  obtain ⟨-, consumer, -, hall⟩ := hsettled
  rw [hall trivial binding' hbound' (hid.trans hof), hall trivial binding hjoined.1 hof]

/-! ### Runs -/

def passWays (adapter : ThreadHandleIngressAdapter) :
    Pool.Ways Nat IngressCall IngressCall.Reply (Except VerletError IngressPollOutcome) IngressWorld where
  good := Good adapter
  waits _ _ := True
  rely _ := Rely adapter False
  asks _ := asks adapter
  answers _ := answers False
  ends _ _ _ := True

theorem passWays_sound (adapter : ThreadHandleIngressAdapter) :
    (passWays adapter).Sound (fun _ _ pass => pass = (pollReadyOnce adapter).run) (fun _ => ingressServes)
      (IngressMoves adapter) where
  refl _ s _ := Rely.refl False s
  trans _ _ _ _ := Rely.trans
  waits _ _ _ _ _ := trivial
  start := by
    rintro i s p hgood - rfl
    exact Meets.imp (fun _ _ _ => trivial) (settles_pollReadyOnce hgood)
  call i call s r s' hgood hasks hserves :=
    ⟨(hgood.serves hasks hserves).1, ⟨hserves, False.elim⟩,
      fun _ _ => rely_of_serves False hasks hgood hserves⟩
  other s s' hgood hmoves := ⟨hgood.move hmoves, fun _ => rely_of_moves hmoves False.elim⟩

theorem good_empty (adapter : ThreadHandleIngressAdapter) : Good adapter .empty where
  written _ := .nil
  scope _ hrow := absurd hrow List.not_mem_nil
  streams _ hrow := absurd hrow List.not_mem_nil
  keys := List.nodup_nil
  acknowledged _ hmem := absurd hmem List.not_mem_nil
  accepted _ hmem := absurd hmem List.not_mem_nil

/-- **What is so in every state that a run leads to.** -/
theorem good_of_reaches {passes : Passes} (h : ReachesPasses adapter passes) : Good adapter passes.state :=
  (Pool.Reachable.kept (passWays_sound adapter) (good_empty adapter) (fun _ => trivial) h).good

/-- **Every joined child is reported once, and to its own consumer, exactly where no parent shares its
dispatch id.** -/
theorem reported_iff {policy : TargetPolicy} {passes : Passes} (h : ReachesPasses adapter passes) :
    Reported adapter policy passes.state ↔ Unshared adapter passes.state.rows :=
  ⟨unshared_of_reported (good_of_reaches h), reported_of_unshared (good_of_reaches h)⟩

/-! ### Families -/

def familyParent (n : Nat) : ThreadCoordinates := .counted "user" n

def familyChild (n : Nat) : ThreadCoordinates := .counted "user" (100 + n)

def familyPayload (n : Nat) : ThreadSpawnRequestedPayload :=
  { Projecting.samplePayload with parentThreadId := (familyParent n).threadId }

/-- The parent asks for the child, under a dispatch id that every parent takes. -/
def familyRequest (n : Nat) : EventRecord :=
  .fromNew (controlStreamId (familyParent n)) 0
    (spawnRequest (familyParent n) (familyPayload n) (.counted (10 * n)))

def familyWitness (n : Nat) : SpawnWitness :=
  ⟨none, (familyPayload n).correlationId, controlStreamId (familyParent n), (familyRequest n).id, "turn"⟩

def familySpawned (n : Nat) : EventRecord :=
  .fromNew (controlStreamId (familyParent n)) 1 (spawnedRecord Projecting.sampleSetup ⟨familyParent n, []⟩
    ⟨familyChild n, []⟩ none (familyWitness n) (.counted (10 * n + 1)))

def familyJoin (n : Nat) : Agent.ThreadJoin :=
  ⟨familyParent n, familyChild n, (familySpawned n).id, .completed, none, none⟩

def familyJoined (n : Nat) : EventRecord :=
  .fromNew (controlStreamId (familyParent n)) 2 (Agent.threadJoinedRecord (familyJoin n) (.counted (10 * n + 2)))

def family (n : Nat) : List EventRecord := [familyRequest n, familySpawned n, familyJoined n]

def familyBinding (n : Nat) : ThreadHandleBinding where
  requestEventId := (familyRequest n).id
  spawnedEventId := (familySpawned n).id
  submittedTurnId := submittedTurnOf (familyRequest n) (familyPayload n)
  consumer := familyParent n
  dispatchId := ⟨(familyPayload n).correlationId⟩
  handle := .thread (familyChild n).threadId

def familyAdapter : ThreadHandleIngressAdapter := ⟨"tenant", "user"⟩

theorem requestOf_familyRequest (n : Nat) :
    requestOf ⟨(familyPayload n).correlationId⟩ (familyRequest n) = some (familyRequest n, familyPayload n) := by
  have hdecode : Wire.spawnRequested.fromValue (familyRequest n).payload = .ok (familyPayload n) :=
    decode_spawnRequestValue _
  rw [requestOf, if_neg (by simp [familyRequest, isSpawnRequest_spawnRequest]), hdecode]
  exact if_pos rfl

theorem eventsOf_family {n : Nat} (hnone : eventsOf rows (controlStreamId (familyParent n)) = [])
    {events : List EventRecord} (hevents : events ⊆ family n) :
    eventsOf (rows ++ events) (controlStreamId (familyParent n)) = events := by
  rw [eventsOf, List.filter_append]
  refine (congrArg (· ++ _) hnone).trans (List.filter_eq_self.mpr fun event hevent => decide_eq_true ?_)
  have hmem := hevents hevent
  simp only [family, List.mem_cons, List.not_mem_nil, or_false] at hmem
  rcases hmem with rfl | rfl | rfl <;> rfl

theorem family_joined {n : Nat} (hnone : eventsOf rows (controlStreamId (familyParent n)) = []) :
    Joined familyAdapter (rows ++ family n) (familyBinding n) := by
  have hevents := eventsOf_family hnone (List.Subset.refl (family n))
  refine ⟨⟨⟨rfl, rfl⟩, familySpawned n, ?_⟩, familyJoined n, ?_⟩
  · change Binds (eventsOf _ (controlStreamId (familyParent n))) _ _
    rw [hevents]
    refine ⟨by simp [family], rfl, bindingOf_some.mpr ⟨_, familyRequest n, familyPayload n,
      decode_spawned rfl _, rfl, rawCorrelation_spawnedRecord .., ?_, rfl, List.mem_singleton.mpr rfl, rfl⟩⟩
    change List.findSome? (requestOf ⟨(familyPayload n).correlationId⟩) _ = _
    simp [family, requestOf_familyRequest]
  · change JoinedIn (eventsOf _ (controlStreamId (familyParent n))) _ _
    rw [hevents]
    exact ⟨by simp [family], rfl, joinsSpawn_threadJoinedRecord⟩

theorem reaches_append (h : ReachesPasses adapter (Pool.idle { IngressWorld.empty with rows := rows }))
    {event : EventRecord} (hid : ∀ row ∈ rows, row.id ≠ event.id) (hscope : adapter.InScope event.coordinates)
    (hwrites : SpawnWrites (eventsOf rows event.streamId) event) :
    ReachesPasses adapter (Pool.idle { IngressWorld.empty with rows := rows ++ [event] }) :=
  .tail h (.other (.append event hid hscope hwrites))

theorem familyRequest_kind (n : Nat) : (familyRequest n).kind = .threadSpawnRequested := rfl

theorem spawnedOf_family (n : Nat) :
    Agent.spawnedOf (familyChild n).threadId [familyRequest n, familySpawned n] = some (familySpawned n) := by
  have hchild : ((familySpawned n).payload.index "child_thread_id").asStr =
      some (familyChild n).threadId.uuid.text := by
    change (Json.index (Wire.object _) "child_thread_id").asStr = _
    simp only [Wire.object, Json.index, Json.asObject, Option.bind_some, Wire.get?_object]
    simp [Wire.spawnedFields, Json.asStr]
  have hrequest : (familyRequest n).kind ≠ .threadSpawned := by simp [familyRequest_kind]
  have hspawned : (familySpawned n).kind = .threadSpawned := rfl
  simp [Agent.spawnedOf, hrequest, hspawned, hchild]
  rfl

theorem writes_familyRequest (n : Nat) : SpawnWrites [] (familyRequest n) := writes_spawnRequest rfl

theorem writes_familySpawned (n : Nat) : SpawnWrites [familyRequest n] (familySpawned n) := by
  have hrequest : ∀ other ∈ [familyRequest n], other.kind ≠ .threadSpawned := by
    intro other hother
    rw [List.mem_singleton.mp hother, familyRequest_kind]
    decide
  exact @writes_spawnedRecord [familyRequest n] 1 (.counted (10 * n + 1)) Projecting.sampleSetup
    ⟨familyParent n, []⟩ ⟨familyChild n, []⟩ none (familyWitness n) (familyRequest n) (familyPayload n)
    List.mem_cons_self (requestOf_familyRequest n) rfl rfl rfl
    (fun other hother hkind => absurd hkind (hrequest other hother))
    (fun other hother hkind => absurd hkind (hrequest other hother))

theorem writes_familyJoined (n : Nat) : SpawnWrites [familyRequest n, familySpawned n] (familyJoined n) := by
  have hrequest : (familyRequest n).kind ≠ .threadJoined := by rw [familyRequest_kind]; decide
  have hspawned : (familySpawned n).kind ≠ .threadJoined := by
    rw [show (familySpawned n).kind = .threadSpawned from rfl]
    decide
  refine writes_threadJoinedRecord (spawnedOf_family n) rfl fun other hother hkind => ?_
  simp only [List.mem_cons, List.not_mem_nil, or_false] at hother
  rcases hother with rfl | rfl
  · exact absurd hkind hrequest
  · exact absurd hkind hspawned

/-- **A family more**, of a parent whose stream is empty. -/
theorem reaches_family {n : Nat}
    (h : ReachesPasses familyAdapter (Pool.idle { IngressWorld.empty with rows := rows }))
    (hid : ((rows ++ family n).map EventRecord.id).Nodup)
    (hnone : eventsOf rows (controlStreamId (familyParent n)) = []) :
    ReachesPasses familyAdapter (Pool.idle { IngressWorld.empty with rows := rows ++ family n }) := by
  have hdistinct {before after : List EventRecord} {event : EventRecord}
      (hrows : rows ++ family n = before ++ event :: after) : ∀ row ∈ before, row.id ≠ event.id := by
    intro row hrow
    rw [hrows, List.map_append, List.nodup_append] at hid
    exact hid.2.2 _ (List.mem_map_of_mem hrow) _ (List.mem_cons_self ..)
  -- the request, then the child, then its join
  have hwrites : SpawnWrites (eventsOf rows (familyRequest n).streamId) (familyRequest n) := by
    rw [show (familyRequest n).streamId = controlStreamId (familyParent n) from rfl, hnone]
    exact writes_familyRequest n
  have hrequest := reaches_append h (@hdistinct rows _ (familyRequest n) rfl) ⟨rfl, rfl⟩ hwrites
  have hwrites : SpawnWrites (eventsOf (rows ++ [familyRequest n]) (familySpawned n).streamId)
      (familySpawned n) := by
    rw [show (familySpawned n).streamId = controlStreamId (familyParent n) from rfl,
      eventsOf_family hnone (by simp [family])]
    exact writes_familySpawned n
  have hspawned := reaches_append hrequest (@hdistinct _ [familyJoined n] (familySpawned n) (by simp [family]))
    ⟨rfl, rfl⟩ hwrites
  rw [List.append_assoc] at hspawned
  have hwrites : SpawnWrites (eventsOf (rows ++ [familyRequest n, familySpawned n]) (familyJoined n).streamId)
      (familyJoined n) := by
    rw [show (familyJoined n).streamId = controlStreamId (familyParent n) from rfl,
      eventsOf_family hnone (by simp [family])]
    exact writes_familyJoined n
  have hjoined := reaches_append hspawned (@hdistinct _ [] (familyJoined n) (by simp [family])) ⟨rfl, rfl⟩ hwrites
  rw [List.append_assoc] at hjoined
  exact hjoined

/-- The policy's provider and model. -/
def familyPolicy : TargetPolicy :=
  { modelProvider := "anthropic", model := "claude" }

/-- One family, whose child is reported. -/
theorem reported_family :
    ∃ passes, ReachesPasses familyAdapter passes ∧
      Joined familyAdapter passes.state.rows (familyBinding 1) ∧
      Reported familyAdapter familyPolicy passes.state := by
  have hreaches := @reaches_family [] 1 .refl (by decide) rfl
  refine ⟨_, hreaches, family_joined rfl, (reported_iff hreaches).mpr ?_⟩
  -- all that is bound is the parent's
  have hconsumer {binding} (hbound : Bound familyAdapter (family 1) binding) :
      binding.consumer = familyParent 1 := by
    obtain ⟨-, spawned, hbinds⟩ := hbound
    have hmem := (List.mem_filter.mp hbinds.1).1
    rw [hbinds.consumer]
    simp only [family, List.mem_cons, List.not_mem_nil, or_false] at hmem
    rcases hmem with rfl | rfl | rfl <;> rfl
  intro binding binding' hjoined hbound' _
  exact (hconsumer hbound').trans (hconsumer hjoined.1).symm

/-- Two families, and no pass of the adapter yet. -/
def sharedPasses : Passes := Pool.idle { IngressWorld.empty with rows := family 1 ++ family 2 }

/-- **Two parents that share a dispatch id**: not every child of theirs is reported. -/
theorem shared_dispatch_lost : ReachesPasses familyAdapter sharedPasses ∧
    ¬ Reported familyAdapter familyPolicy sharedPasses.state := by
  have hfirst := @reaches_family [] 1 .refl (by decide) rfl
  have hreaches : ReachesPasses familyAdapter sharedPasses :=
    @reaches_family (family 1) 2 hfirst (by decide) (by decide)
  refine ⟨hreaches, fun h => ?_⟩
  have hunshared := unshared_of_reported (good_of_reaches hreaches) h
  have hfirst : Joined familyAdapter (family 1) (familyBinding 1) := @family_joined [] 1 rfl
  have hsecond : Joined familyAdapter (family 1 ++ family 2) (familyBinding 2) :=
    family_joined (by decide)
  have hsame := hunshared _ _ (hfirst.mono (List.prefix_append _ _)) hsecond.1 rfl
  revert hsame
  decide

end Verlet.Daemon.HandleIngress
