import Verlet.Kernel.ControlDecision

/-!
# Kernel — Control decisions — Payloads on the wire

The codec that `serde` derives for the payloads of the control stream: an object with a field for
each field of the payload, an absent option left out, the outcome of a decision tagged with
`decision`.  A payload is read from an object, fields it does not know ignored.

* `wire_started`, `wire_revoked`, `wire_continueRequested`: what is written is read back.
-/

namespace Verlet.Kernel
open Support
open History (EventRecordId ThreadId)

variable {α : Type} {fields : List (String × Json)} {key : String}

namespace Wire

/-! ### Fields -/

/-- A field that is left out when it is absent. -/
def optional {α : Type} (key : String) (enc : α → Json) : Option α → List (String × Json)
  | none   => []
  | some a => [(key, enc a)]

/-- An object; the later of two fields with one name wins. -/
def object (fields : List (String × Json)) : Json := .obj (Json.object fields)

/-- The fields of an object. -/
def fieldsOf (value : Json) : Except String (List (String × Json)) :=
  match value.asObject with
  | some fields => .ok fields
  | none        => .error "invalid type: expected a map"

/-- A field that must be there. -/
def required {α : Type} (dec : Json → Except String α) (fields : List (String × Json))
    (key : String) : Except String α :=
  match Json.get? fields key with
  | some value => dec value
  | none       => .error s!"missing field {key}"

/-- A field with a default. -/
def defaulted {α : Type} (dec : Json → Except String α) (fields : List (String × Json))
    (key : String) (default : α) : Except String α :=
  match Json.get? fields key with
  | some value => dec value
  | none       => .ok default

/-- A field that may be absent or null. -/
def option {α : Type} (dec : Json → Except String α) (fields : List (String × Json))
    (key : String) : Except String (Option α) :=
  match Json.get? fields key with
  | none | some .null => .ok none
  | some value        => some <$> dec value

/-- `String`. -/
def text (value : Json) : Except String String :=
  match value with
  | .str text => .ok text
  | _         => .error "invalid type: expected a string"

/-- `bool`. -/
def flag (value : Json) : Except String Bool :=
  match value with
  | .bool b => .ok b
  | _       => .error "invalid type: expected a boolean"

/-- `i64`. -/
def integer (value : Json) : Except String Int :=
  match value with
  | .num (.int n) => .ok n
  | _             => .error "invalid type: expected i64"

/-- `u64`. -/
def natural (value : Json) : Except String Nat :=
  match value with
  | .num (.int n) => if 0 ≤ n then .ok n.toNat else .error "invalid value: expected u64"
  | _             => .error "invalid type: expected u64"

/-- `EventRecordId`: the text of a UUID. -/
def eventId (value : Json) : Except String EventRecordId :=
  match value.asStr.bind Uuid.parseStr with
  | some uuid => .ok ⟨uuid⟩
  | none      => .error "UUID parsing failed"

def threadId (value : Json) : Except String ThreadId :=
  match value.asStr.bind Uuid.parseStr with
  | some uuid => .ok ⟨uuid⟩
  | none      => .error "UUID parsing failed"

/-- `Vec`. -/
def list {α : Type} (dec : Json → Except String α) (value : Json) : Except String (List α) :=
  match value with
  | .arr items => items.mapM dec
  | _          => .error "invalid type: expected a sequence"

/-- Reading a value that was written. -/
structure Reads {α : Type} (enc : α → Json) (dec : Json → Except String α) : Prop where
  back : ∀ a, dec (enc a) = .ok a
  present : ∀ a, enc a ≠ .null

theorem reads_text : Reads .str text := ⟨fun _ => rfl, fun _ => by simp⟩

theorem reads_flag : Reads .bool flag := ⟨fun _ => rfl, fun _ => by simp⟩

theorem reads_integer : Reads (fun n => .num (.int n)) integer := ⟨fun _ => rfl, fun _ => by simp⟩

theorem reads_natural : Reads (fun n : Nat => .num (.int n)) natural :=
  ⟨fun n => by simp [natural], fun _ => by simp⟩

theorem reads_eventId : Reads (fun id : EventRecordId => .str id.uuid.text) eventId :=
  ⟨fun id => by simp [eventId, Json.asStr, Uuid.parse_text], fun _ => by simp⟩

theorem reads_threadId : Reads (fun id : ThreadId => .str id.uuid.text) threadId :=
  ⟨fun id => by simp [threadId, Json.asStr, Uuid.parse_text], fun _ => by simp⟩

variable {dec : Json → Except String α} {enc : α → Json}

/-- A list reads back if its items do. -/
theorem reads_list (h : Reads enc dec) :
    Reads (fun as : List α => .arr (as.map enc)) (list dec) := by
  refine ⟨fun as => ?_, fun _ => by simp⟩
  change (as.map enc).mapM dec = .ok as
  induction as with
  | nil => rfl
  | cons a as ih => simp only [List.map_cons, List.mapM_cons, h.back, ih]; rfl

/-- A field of an object is the last that was given under its name. -/
theorem get?_object (fields : List (String × Json)) (key : String) :
    Json.get? (Json.object fields) key =
      fields.foldl (fun found field => if key = field.1 then some field.2 else found) none := by
  have hgen : ∀ m : List (String × Json),
      Json.get? (fields.foldl (fun m field => Json.insertField field.1 field.2 m) m) key =
        fields.foldl (fun found field => if key = field.1 then some field.2 else found)
          (Json.get? m key) := by
    induction fields with
    | nil => exact fun _ => rfl
    | cons field fields ih =>
      intro m
      simp only [List.foldl_cons, ih, Json.get?_insertField]
  exact hgen []

@[simp] theorem foldl_optional (key key' : String) (enc : α → Json) (o : Option α)
    (found : Option Json) :
    (optional key' enc o).foldl
        (fun found field => if key = field.1 then some field.2 else found) found =
      if key = key' then (o.map enc).or found else found := by
  cases o <;> simp [optional]

theorem required_ok (h : Reads enc dec) {a : α}
    (hkey : Json.get? fields key = some (enc a)) : required dec fields key = .ok a := by
  rw [required, hkey]
  exact h.back a

theorem defaulted_ok (h : Reads enc dec)
    {default : α} {a : α} (hkey : Json.get? fields key = some (enc a)) :
    defaulted dec fields key default = .ok a := by
  rw [defaulted, hkey]
  exact h.back a

/-- An option reads back: absent as absent, present as what is read. -/
theorem option_ok (h : Reads enc dec) {o : Option α}
    (hkey : Json.get? fields key = o.map enc) : option dec fields key = .ok o := by
  rw [option, hkey]
  cases o with
  | none => rfl
  | some a =>
    have hpresent := h.present a
    have hback := h.back a
    cases henc : enc a with
    | null => exact absurd henc hpresent
    | _ =>
      rw [henc] at hback
      simp only [Option.map_some, henc, hback]
      rfl

section
variable {β : Type} {a : α} {b : β} {f : α → Except String β}

/-- **A field that was written is read**, and the rest after it. -/
theorem Reads.required (h : Reads enc dec) (hkey : Json.get? fields key = some (enc a))
    (hrest : f a = .ok b) : (Wire.required dec fields key >>= f) = .ok b :=
  bind_ok.mpr ⟨a, required_ok h hkey, hrest⟩

theorem Reads.defaulted {default : α} (h : Reads enc dec)
    (hkey : Json.get? fields key = some (enc a)) (hrest : f a = .ok b) :
    (Wire.defaulted dec fields key default >>= f) = .ok b :=
  bind_ok.mpr ⟨a, defaulted_ok h hkey, hrest⟩

theorem Reads.option {o : Option α} {f : Option α → Except String β} (h : Reads enc dec)
    (hkey : Json.get? fields key = o.map enc) (hrest : f o = .ok b) :
    (Wire.option dec fields key >>= f) = .ok b :=
  bind_ok.mpr ⟨o, option_ok h hkey, hrest⟩

end

/-! ### Payloads -/

def toolSubject : Serde ToolCallSubject where
  toValue s := object [("turn_id", .str s.turnId), ("call_id", .str s.callId)]
  fromValue value := do
    let fields ← fieldsOf value
    return ⟨← required text fields "turn_id", ← required text fields "call_id"⟩

/-- `ToolCallDecisionOutcomePayload`, tagged with `decision`. -/
def outcome : Serde ToolCallDecisionOutcomePayload where
  toValue
    | .allow => object [("decision", .str "allow")]
    | .rewrite arguments => object [("decision", .str "rewrite"), ("arguments", arguments)]
    | .deny reason => object [("decision", .str "deny"), ("reason", .str reason)]
  fromValue value := do
    let fields ← fieldsOf value
    let tag ← required text fields "decision"
    if tag = "allow" then return .allow
    else if tag = "rewrite" then return .rewrite (← required .ok fields "arguments")
    else if tag = "deny" then return .deny (← required text fields "reason")
    else throw s!"unknown variant {tag}"

def decision : Serde ToolCallDecisionPayload where
  toValue p := object ([("subject", toolSubject.toValue p.subject),
    ("snapshot_id", .str p.snapshotId), ("outcome", outcome.toValue p.outcome)] ++
      optional "admissible" (fun names : List String => .arr (names.map .str)) p.admissible)
  fromValue value := do
    let fields ← fieldsOf value
    return ⟨← required toolSubject.fromValue fields "subject", ← required text fields "snapshot_id",
      ← required outcome.fromValue fields "outcome", ← option (list text) fields "admissible"⟩

def suspended : Serde ToolCallSuspendedPayload where
  toValue p := object ([("subject", toolSubject.toValue p.subject),
    ("snapshot_id", .str p.snapshotId)] ++ (optional "approval_id" .str p.approvalId ++
      optional "reason" .str p.reason))
  fromValue value := do
    let fields ← fieldsOf value
    return ⟨← required toolSubject.fromValue fields "subject", ← required text fields "snapshot_id",
      ← option text fields "approval_id", ← option text fields "reason"⟩

/-- `ToolCallRequestedPayload`; `holds` is left out when there are none. -/
def requested : Serde ToolCallRequestedPayload where
  toValue p := object ([("subject", toolSubject.toValue p.subject),
    ("snapshot_id", .str p.snapshotId), ("tool_name", .str p.toolName),
    ("arguments", p.arguments)] ++
      (optional "attach_event_id" (fun id : EventRecordId => .str id.uuid.text) p.attachEventId ++
        (optional "args_fingerprint" .str p.argsFingerprint ++
          if p.holds.isEmpty then [] else [("holds", .arr p.holds)])))
  fromValue value := do
    let fields ← fieldsOf value
    return ⟨← required toolSubject.fromValue fields "subject", ← required text fields "snapshot_id",
      ← required text fields "tool_name", ← required .ok fields "arguments",
      ← option eventId fields "attach_event_id", ← option text fields "args_fingerprint",
      (← option (list .ok) fields "holds").getD []⟩

def cancellation : Serde ToolCallCancellation where
  toValue
    | .cancelledAcknowledged  => .str "cancelled_acknowledged"
    | .cancelledExceededGrace => .str "cancelled_exceeded_grace"
  fromValue value := do
    let tag ← text value
    if tag = "cancelled_acknowledged" then return .cancelledAcknowledged
    else if tag = "cancelled_exceeded_grace" then return .cancelledExceededGrace
    else throw s!"unknown variant {tag}"

def completed : Serde ToolCallCompletedPayload where
  toValue p := object ([("subject", toolSubject.toValue p.subject),
    ("snapshot_id", .str p.snapshotId), ("tool_name", .str p.toolName), ("success", .bool p.success)] ++
      (optional "args_fingerprint" .str p.argsFingerprint ++
        (optional "duration_ms" (fun n : Nat => .num (.int n)) p.durationMs ++
          (optional "finish_order" (fun n : Nat => .num (.int n)) p.finishOrder ++
            optional "cancellation" cancellation.toValue p.cancellation))))
  fromValue value := do
    let fields ← fieldsOf value
    return ⟨← required toolSubject.fromValue fields "subject", ← required text fields "snapshot_id",
      ← required text fields "tool_name", ← required flag fields "success",
      ← option text fields "args_fingerprint", ← option natural fields "duration_ms",
      ← option natural fields "finish_order", ← option cancellation.fromValue fields "cancellation"⟩

def mandateSubject : Serde MandateSubject where
  toValue s := object (optional "thread_id" .str s.threadId ++ optional "loop_id" .str s.loopId)
  fromValue value := do
    let fields ← fieldsOf value
    return ⟨← option text fields "thread_id", ← option text fields "loop_id"⟩

/-- `MandateSchedulePayload`, tagged from outside. -/
def schedule : Serde MandateSchedulePayload where
  toValue
    | .cron expr tz => object [("cron", object [("expr", .str expr), ("tz", .str tz)])]
    | .interval everyMs => object [("interval", object [("every_ms", .num (.int everyMs))])]
    | .at when => object [("at", object [("when", .str when)])]
  fromValue value := do
    match ← fieldsOf value with
    | [("cron", inner)] =>
      let fields ← fieldsOf inner
      return .cron (← required text fields "expr") (← required text fields "tz")
    | [("interval", inner)] =>
      let fields ← fieldsOf inner
      return .interval (← required natural fields "every_ms")
    | [("at", inner)] =>
      let fields ← fieldsOf inner
      return .at (← required text fields "when")
    | _ => throw "unknown variant"

def catchUp : Serde MandateCatchUpPolicy where
  toValue
    | .coalesceMissed => .str "coalesce_missed"
    | .skipMissed     => .str "skip_missed"
  fromValue value := do
    let tag ← text value
    if tag = "coalesce_missed" then return .coalesceMissed
    else if tag = "skip_missed" then return .skipMissed
    else throw s!"unknown variant {tag}"

def started : Serde MandateStartedPayload where
  toValue p := object ([("subject", mandateSubject.toValue p.subject),
    ("mandate_id", .str p.mandateId), ("snapshot_id", .str p.snapshotId)] ++
      (optional "thread_id" .str p.threadId ++
        (optional "max_continuations" (fun n : Nat => .num (.int n)) p.maxContinuations ++
          (optional "expires_at_ms" (fun n => .num (.int n)) p.expiresAtMs ++
            (optional "schedule" schedule.toValue p.schedule ++
              (optional "max_occurrences" (fun n : Nat => .num (.int n)) p.maxOccurrences ++
                (optional "catch_up" catchUp.toValue p.catchUp ++
                  optional "input_template" .str p.inputTemplate)))))))
  fromValue value := do
    let fields ← fieldsOf value
    return ⟨← required mandateSubject.fromValue fields "subject", ← required text fields "mandate_id",
      ← required text fields "snapshot_id", ← option text fields "thread_id",
      ← option natural fields "max_continuations", ← option integer fields "expires_at_ms",
      ← option schedule.fromValue fields "schedule", ← option natural fields "max_occurrences",
      ← option catchUp.fromValue fields "catch_up", ← option text fields "input_template"⟩

def revoked : Serde MandateRevokedPayload where
  toValue p := object ([("subject", mandateSubject.toValue p.subject),
    ("mandate_id", .str p.mandateId), ("snapshot_id", .str p.snapshotId)] ++
      (optional "mandate_event_id" .str p.mandateEventId ++ optional "reason" .str p.reason))
  fromValue value := do
    let fields ← fieldsOf value
    return ⟨← required mandateSubject.fromValue fields "subject", ← required text fields "mandate_id",
      ← option text fields "mandate_event_id", ← required text fields "snapshot_id",
      ← option text fields "reason"⟩

def continueSubject : Serde TurnContinuationSubject where
  toValue s := object [("loop_id", .str s.loopId), ("parent_turn_id", .str s.parentTurnId)]
  fromValue value := do
    let fields ← fieldsOf value
    return ⟨← required text fields "loop_id", ← required text fields "parent_turn_id"⟩

def continueRequested : Serde TurnContinueRequestedPayload where
  toValue p := object [("subject", continueSubject.toValue p.subject),
    ("snapshot_id", .str p.snapshotId), ("next_turn_input", .str p.nextTurnInput)]
  fromValue value := do
    let fields ← fieldsOf value
    return ⟨← required continueSubject.fromValue fields "subject",
      ← required text fields "snapshot_id", ← required text fields "next_turn_input"⟩

def placementTarget : Serde PlacementTarget where
  toValue
    | .local   => .str "local"
    | .remote  => .str "remote"
    | .sandbox => .str "sandbox"
  fromValue value := do
    let tag ← text value
    if tag = "local" then return .local
    else if tag = "remote" then return .remote
    else if tag = "sandbox" then return .sandbox
    else throw s!"unknown variant {tag}"

def placementSubject : Serde PlacementSubject where
  toValue s := object [("invocation_id", .str s.invocationId)]
  fromValue value := do
    let fields ← fieldsOf value
    return ⟨← required text fields "invocation_id"⟩

def placement : Serde PlacementDecisionPayload where
  toValue p := object [("subject", placementSubject.toValue p.subject),
    ("snapshot_id", .str p.snapshotId), ("placement", placementTarget.toValue p.placement)]
  fromValue value := do
    let fields ← fieldsOf value
    return ⟨← required placementSubject.fromValue fields "subject",
      ← required text fields "snapshot_id", ← required placementTarget.fromValue fields "placement"⟩

theorem reads_mandateSubject : Reads mandateSubject.toValue mandateSubject.fromValue := by
  refine ⟨fun s => ?_, fun _ => by simp [mandateSubject, object]⟩
  exact bind_ok.mpr ⟨_, rfl, reads_text.option (by simp [get?_object]) <|
    reads_text.option (by simp [get?_object]) rfl⟩

theorem reads_continueSubject : Reads continueSubject.toValue continueSubject.fromValue := by
  refine ⟨fun s => ?_, fun _ => by simp [continueSubject, object]⟩
  exact bind_ok.mpr ⟨_, rfl, reads_text.required (by simp [get?_object]) <|
    reads_text.required (by simp [get?_object]) rfl⟩

/-- A schedule of each kind reads back. -/
theorem reads_schedule : Reads schedule.toValue schedule.fromValue := by
  refine ⟨fun s => ?_, fun s => by cases s <;> simp [schedule, object]⟩
  cases s with
  | cron expr tz => rfl
  | interval everyMs =>
    exact bind_ok.mpr ⟨_, rfl, bind_ok.mpr ⟨_, rfl,
      reads_natural.required (by simp [get?_object]) rfl⟩⟩
  | «at» when => rfl

theorem reads_catchUp : Reads catchUp.toValue catchUp.fromValue := by
  refine ⟨fun p => ?_, fun p => by cases p <;> simp [catchUp]⟩
  cases p <;> rfl

/-- **A mandate that started** reads back. -/
theorem wire_started : started.RoundTrips := by
  intro p
  refine bind_ok.mpr ⟨_, rfl, reads_mandateSubject.required ?_ <| reads_text.required ?_ <|
    reads_text.required ?_ <| reads_text.option ?_ <| reads_natural.option ?_ <|
    reads_integer.option ?_ <| reads_schedule.option ?_ <| reads_natural.option ?_ <|
    reads_catchUp.option ?_ <| reads_text.option ?_ rfl⟩
  all_goals simp [get?_object]

/-- A revocation reads back. -/
theorem wire_revoked : revoked.RoundTrips := by
  intro p
  refine bind_ok.mpr ⟨_, rfl, reads_mandateSubject.required ?_ <| reads_text.required ?_ <|
    reads_text.option ?_ <| reads_text.required ?_ <| reads_text.option ?_ rfl⟩
  all_goals simp [get?_object]

/-- A request to continue reads back. -/
theorem wire_continueRequested : continueRequested.RoundTrips := by
  intro p
  refine bind_ok.mpr ⟨_, rfl, reads_continueSubject.required ?_ <| reads_text.required ?_ <|
    reads_text.required ?_ rfl⟩
  all_goals simp [get?_object]

end Wire

/-- The codec that `serde` derives; `rfc3339` stands for `chrono`. -/
def ControlCodec.wire (rfc3339 : Int → Option String) : ControlCodec where
  toolCallRequested := Wire.requested
  toolCallDecision := Wire.decision
  toolCallSuspended := Wire.suspended
  toolCallCompleted := Wire.completed
  mandateStarted := Wire.started
  mandateRevoked := Wire.revoked
  turnContinueRequested := Wire.continueRequested
  placementDecision := Wire.placement
  rfc3339 := rfc3339

end Verlet.Kernel
