import Verlet.Kernel.ThreadSpawnProjector.OneEntry

/-!
# Kernel — The thread spawn projector — Orphans

A child is started before the thread of its caller is looked up.  Whatever fails after that shuts the child
down, but for the lookup.
-/

namespace Verlet.Kernel
open Support Io
open History (ThreadId ThreadScope)
open SpawnM
open Proc (Makes)

/-- The threads of a host, the child that a spawn has started there, and whether the thread that it looked
up was registered then. -/
structure SpawnHost where
  registered : List ThreadId
  child : Option ThreadId
  callerFound : Option Bool

namespace SpawnHost

/-- A call that leaves the threads of a host as they are. -/
def Quiet : SpawnCall → Prop
  | .startThread _ _ _ | .getThread _ | .shutdownThread _ => False
  | _ => True

def Serves (call : SpawnCall) (host : SpawnHost) (reply : call.Reply) (host' : SpawnHost) : Prop :=
  match call, reply with
  | .startThread _ _ _, .ok started =>
    started.1 ∉ host.registered ∧
      host' = { host with registered := started.1 :: host.registered, child := some started.1 }
  | .getThread id, found =>
    (found.toBool ↔ id ∈ host.registered) ∧
      host' = { host with callerFound := some (decide (id ∈ host.registered)) }
  | .shutdownThread id, _ =>
    host' = { host with registered := host.registered.filter (· ≠ id) }
  | _, _ => host' = host

/-- What the others do: the child is not known to them yet. -/
structure Others (host host' : SpawnHost) : Prop where
  child : host'.child = host.child
  callerFound : host'.callerFound = host.callerFound
  registered : ∀ id ∈ host.child, id ∈ host'.registered ↔ id ∈ host.registered

def NoOrphan (host : SpawnHost) : Prop := ∀ id ∈ host.child, id ∉ host.registered

variable {host host' host'' : SpawnHost} {id : ThreadId}

theorem Others.refl (host : SpawnHost) : Others host host := ⟨rfl, rfl, fun _ _ => Iff.rfl⟩

theorem Others.trans (h : Others host host') (h' : Others host' host'') : Others host host'' :=
  ⟨h'.child.trans h.child, h'.callerFound.trans h.callerFound, fun id hid =>
    (h'.registered id (h.child ▸ hid)).trans (h.registered id hid)⟩

def Fails (host : SpawnHost) : Prop := host.NoOrphan ↔ host.callerFound ≠ some false

theorem Fails.others (h : Fails host) (hothers : Others host host') : Fails host' := by
  have horphan : host'.NoOrphan ↔ host.NoOrphan := by
    rw [NoOrphan, hothers.child]
    exact forall₂_congr fun id hid => not_congr (hothers.registered id hid)
  rw [Fails, horphan, hothers.callerFound]
  exact h

theorem others_of_serves {call : SpawnCall} {reply : call.Reply} (hquiet : Quiet call)
    (h : Serves call host reply host') : Others host host' := by
  have hsame : host' = host := by
    cases call with
    | startThread | getThread | shutdownThread => exact hquiet.elim
    | _ => exact h
  exact hsame ▸ Others.refl _

theorem serves_started {scope : ThreadScope} {parent : ThreadId} {metadata : Io.Metadata}
    (id : ThreadId) (started : Io.Metadata) (h : id ∉ host.registered) :
    Serves (.startThread scope parent metadata) host (.ok (id, started))
      { host with registered := id :: host.registered, child := some id } := ⟨h, rfl⟩

theorem serves_found (thread : LiveThread) (h : id ∈ host.registered) :
    Serves (.getThread id) host (.ok thread) { host with callerFound := some true } :=
  ⟨iff_of_true rfl h, by rw [decide_eq_true h]⟩

theorem serves_lost (error : SpawnError) (h : id ∉ host.registered) :
    Serves (.getThread id) host (.error error) { host with callerFound := some false } :=
  ⟨iff_of_false Bool.false_ne_true h, by rw [decide_eq_false h]⟩

/-! ### What a spawn does to the host -/

/-- What a program of a spawn does: where it fails, it leaves what it has to. -/
abbrev Settles {α : Type} (A : α → SpawnHost → Prop) (p : SpawnM α) (host : SpawnHost) : Prop :=
  Proc.Settles Others (fun _ _ => True) Serves A (fun _ => Fails) p host

section
variable {α β : Type} {A : α → SpawnHost → Prop} {C : β → SpawnHost → Prop} {p : SpawnM α}
  {f : α → SpawnM β}

theorem settles_then (h : Settles A p host) (hf : ∀ a host', A a host' → Settles C (f a) host') :
    Settles C (p >>= f) host :=
  Proc.Settles.bind Others.refl (fun _ _ _ => Fails.others)
    (Proc.Settles.imp hf (fun _ _ herror => herror) h)

theorem settles_makes (hquiet : Makes Quiet p) (host : SpawnHost) :
    Proc.Settles Others (fun _ _ => True) Serves (fun _ => Others host) (fun _ => Others host) p
      host := by
  have htrans : ∀ a b c, Others a b → Others b c → Others a c := fun _ _ _ => Others.trans
  have hleaves : ∀ call, Quiet call → ∀ s, True ∧ ∀ reply s', Serves call s reply s' → Others s s' :=
    fun _ hcall _ => ⟨trivial, fun _ _ => others_of_serves hcall⟩
  exact Makes.settles htrans hleaves hquiet host

theorem settles_quiet (hquiet : Makes Quiet p) (hfails : Fails host)
    (hf : ∀ a host', Others host host' → Settles C (f a) host') : Settles C (p >>= f) host :=
  settles_then (Proc.Settles.imp (fun _ _ h => h) (fun _ _ => hfails.others) (settles_makes hquiet host))
    hf

end

/-- The child was started, and then the thread of the caller was found. -/
structure Placed (id : ThreadId) (host : SpawnHost) : Prop where
  child : host.child = some id
  callerFound : host.callerFound = some true

theorem Placed.others (h : Placed id host) (hothers : Others host host') : Placed id host' :=
  ⟨hothers.child.trans h.child, hothers.callerFound.trans h.callerFound⟩

/-- **Where what follows fails, the child is shut down.** -/
theorem settles_guarding {α : Type} {p : SpawnM α} (hquiet : Makes Quiet p) (h : Placed id host) :
    Settles (fun _ => Placed id) (Proc.guarding p (ask (.shutdownThread id))) host := by
  refine Proc.Settles.guarding Others.refl (fun _ _ _ => Fails.others)
    (fun _ _ _ => Placed.others) ?_
  refine Proc.Settles.imp (fun _ host' => h.others) (fun e host' hothers => ?_)
    (settles_makes hquiet host)
  -- the release: one call, after which the child is not registered
  intro host₁ h₁
  refine ⟨trivial, fun _ host₂ hserves host₃ h₃ => Fails.others ?_ h₃⟩
  have hplaced := (h.others hothers).others h₁
  obtain rfl : host₂ = { host₁ with registered := host₁.registered.filter (· ≠ id) } := hserves
  refine iff_of_true (fun child hchild => ?_) ?_
  · obtain rfl := Option.some.inj (hplaced.child.symm.trans hchild)
    simp
  · exact fun hlost => by cases hplaced.callerFound.symm.trans hlost

theorem makes_appendThreadSpawnedEvent (setup : SpawnSetup) (caller child : SpawnContext)
    (witness : SpawnWitness) :
    Makes Quiet (appendThreadSpawnedEvent setup caller child witness) :=
  .bind .settle fun _ => .bind (.await trivial) fun _ => .bind (.await trivial) fun _ =>
    .bind .settle fun _ => .bind (.await trivial) fun _ => .bind .settle fun _ => .pure

theorem makes_attemptSpawn (call : SpawnCall) (hcall : Quiet call)
    (result : call.Reply → SpawnResult Unit) : Makes Quiet (attemptSpawn call result) :=
  .bind (.await hcall) fun _ => .settle

theorem settles_spawnTurnId (witness : SpawnWitness) (h : Placed id host) :
    Settles (fun _ => Placed id) (spawnTurnId witness) host := by
  unfold spawnTurnId
  split
  · exact Proc.Settles.pure fun _ => h.others
  · refine Proc.Settles.await fun host₁ h₁ => ⟨trivial, fun _ host₂ hserves => ?_⟩
    obtain rfl : host₂ = host₁ := hserves
    exact Proc.Settles.pure fun _ => (h.others h₁).others

theorem settles_settleChild (setup : SpawnSetup) (caller : SpawnContext) {child : SpawnContext}
    (input turnId : String) (witness : SpawnWitness) (binding : Option AgentBinding)
    (h : Placed child.coordinates.threadId host) :
    Settles (fun _ _ => True) (settleChild setup caller child input turnId witness binding) host := by
  refine settles_then (settles_guarding (makes_appendThreadSpawnedEvent ..) h) fun _ host₁ h₁ => ?_
  have hturn : ∀ host', Placed child.coordinates.threadId host' → Settles (fun _ _ => True)
      (Proc.guarding (attemptSpawn (.submitTurn child.coordinates.threadId turnId input) id)
        (ask (.shutdownThread child.coordinates.threadId))) host' := fun host' h' =>
    Proc.Settles.imp (fun _ _ _ => trivial) (fun _ _ herror => herror)
      (settles_guarding (makes_attemptSpawn (.submitTurn _ _ _) trivial id) h')
  cases binding with
  | some binding =>
    exact settles_then
      (settles_guarding (makes_attemptSpawn (.recordManifestReceipts _ binding) trivial id) h₁)
      fun _ => hturn
  | none =>
    have hpure : Settles (fun _ => Placed child.coordinates.threadId) (pure () : SpawnM Unit) host₁ :=
      Proc.Settles.pure fun _ => h₁.others
    exact settles_then hpure fun _ => hturn

/-- **A spawn that fails** leaves no child exactly where its caller was found. -/
theorem settles_spawnChildInner (setup : SpawnSetup) (caller : SpawnContext) (taskName : Option String)
    (input : String) (metadata : Io.Metadata) (witness : SpawnWitness) (binding : Option AgentBinding)
    (hchild : host.child = none) (hcaller : host.callerFound = none) :
    Settles (fun _ _ => True)
      (spawnChildInner setup caller taskName input metadata witness binding) host := by
  have hblank : ∀ {host' : SpawnHost}, host'.child = none → host'.callerFound = none → Fails host' := by
    intro host' hnone hlook
    refine iff_of_true (fun id hid => ?_) ?_
    · rw [hnone] at hid
      cases hid
    · rw [hlook]
      exact nofun
  have hrequire : Makes Quiet requireHost := by
    refine .bind (.await trivial) fun available => ?_
    cases available with
    | true  => exact .pure
    | false => exact .throw
  refine settles_quiet hrequire (hblank hchild hcaller) fun _ host₁ h₁ => ?_
  refine Proc.Settles.await fun host₂ h₂ => ⟨trivial, fun started host₃ hstart => ?_⟩
  have hnone := (h₂.child.trans h₁.child).trans hchild
  have hlook := (h₂.callerFound.trans h₁.callerFound).trans hcaller
  refine Proc.Settles.settle (fun started hok => ?_) fun error hfailed => ?_
  · subst hok
    obtain ⟨-, rfl⟩ := hstart
    refine Proc.Settles.await fun host₄ h₄ => ⟨trivial, fun found host₅ hserved => ?_⟩
    obtain ⟨hfound, rfl⟩ := hserved
    have hchild₄ : host₄.child = some started.1 := h₄.child
    refine Proc.Settles.settle (fun thread hok => ?_) fun error hfailed => ?_
    · subst hok
      have hplaced : Placed started.1 { host₄ with
          callerFound := some (decide (caller.coordinates.threadId ∈ host₄.registered)) } :=
        ⟨hchild₄, congrArg some (decide_eq_true (hfound.mp rfl))⟩
      refine settles_then (settles_spawnTurnId witness hplaced) fun turnId host₆ h₆ => ?_
      exact settles_then (settles_settleChild setup caller input turnId witness binding h₆)
        fun _ _ _ => Proc.Settles.pure fun _ _ => trivial
    · -- the caller is not there, and its child is
      subst hfailed
      have hlost : caller.coordinates.threadId ∉ host₄.registered := fun h => by cases hfound.mpr h
      have hstays : started.1 ∈ host₄.registered := (h₄.registered _ rfl).mpr List.mem_cons_self
      refine fun _ h => Fails.others (iff_of_false (fun hnone => ?_) ?_) h
      · exact hnone started.1 hchild₄ hstays
      · simp [hlost]
  · subst hfailed
    obtain rfl : host₃ = host₂ := hstart
    exact fun _ h => Fails.others (hblank hnone hlook) h

/-- **A spawn that fails leaves no child behind** exactly where the thread of its caller was not found to be
gone. -/
theorem spawn_leaves_no_orphan_iff {setup : SpawnSetup} {caller : SpawnContext}
    {taskName : Option String} {input : String} {metadata : Io.Metadata} {witness : SpawnWitness}
    {binding : Option AgentBinding} {error : SpawnError} (hchild : host.child = none)
    (hcaller : host.callerFound = none)
    (hrun : (spawnChildInner setup caller taskName input metadata witness binding).run.Upto Serves Others
      host host' (some (.error error))) :
    host'.NoOrphan ↔ host'.callerFound ≠ some false := by
  have hsettles := settles_spawnChildInner setup caller taskName input metadata witness binding hchild
    hcaller
  exact (Proc.Meets.upto Others.refl (fun _ _ _ => Others.trans)
    (fun _ _ _ _ _ _ hserves => ⟨trivial, hserves⟩) (fun _ _ _ hothers => ⟨trivial, hothers⟩) trivial
    hsettles hrun).2 _ rfl

/-! ### A caller that is there, and one that is not -/

def sampleCaller : SpawnContext := ⟨Projecting.sampleParent, []⟩

def sampleWitness : SpawnWitness :=
  ⟨none, "dispatch-1", ⟨"requests"⟩, ⟨⟨7⟩⟩, "turn"⟩

def sampleChild : ThreadId := ⟨⟨200⟩⟩

def sampleSpawn : SpawnM SpawnReceipt :=
  spawnChildInner Projecting.sampleSetup sampleCaller none "go" [] sampleWitness none

theorem sampleSpawn_refused : ∃ error, sampleSpawn.run.Upto Serves Others
    ⟨[sampleCaller.coordinates.threadId], none, none⟩
    ⟨[sampleCaller.coordinates.threadId], some sampleChild, some true⟩ (some (.error error)) := by
  refine ⟨.host (.kernel (.history (.store .diverged))), ?_⟩
  refine .call (r := true) rfl ?_
  refine .call (serves_started sampleChild [] (by decide)) ?_
  refine .call (serves_found ⟨Projecting.sampleParent.scope, []⟩ (by decide)) ?_
  refine .call (r := .counted 9) rfl ?_
  refine .call (r := .error .diverged) rfl ?_
  refine .call (r := ()) rfl ?_
  exact .done _ _

/-- The theorem where the append is refused: the child is shut down. -/
theorem spawn_leaves_no_orphan_iff_refused :
    NoOrphan ⟨[sampleCaller.coordinates.threadId], some sampleChild, some true⟩ ↔
      some true ≠ some false := by
  obtain ⟨error, hrun⟩ := sampleSpawn_refused
  exact spawn_leaves_no_orphan_iff rfl rfl hrun

/-- **An orphan.**  The thread of the caller is not registered, and the child that was started stays. -/
theorem orphan_left : ∃ error host', sampleSpawn.run.Upto Serves Others ⟨[], none, none⟩ host'
    (some (.error error)) ∧ ¬NoOrphan host' := by
  have hgone : SpawnError := .host (.threadNotFound sampleCaller.coordinates.threadId)
  refine ⟨hgone, ⟨[sampleChild], some sampleChild, some false⟩, ?_,
    fun h => h sampleChild rfl List.mem_cons_self⟩
  refine .call (r := true) rfl ?_
  refine .call (serves_started sampleChild [] (by decide)) ?_
  refine .call (serves_lost hgone (by decide)) ?_
  exact .done _ _

end SpawnHost

end Verlet.Kernel
