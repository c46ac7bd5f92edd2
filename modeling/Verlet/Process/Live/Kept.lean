import Verlet.Process.Live

/-!
# Process — The live registry — No process is lost

Some methods look at an entry in one section and remove one in a later section, by id alone; and a start
inserts its entry whatever is there.
-/

namespace Verlet.Process
open Support

variable {config : AsyncExecutionManagerConfig} {s s' : Registry}

/-! ### What is to hold -/

/-- The registry keeps to its size, and every process that has not ended is registered under its id with its
own handle, or its token has been cancelled. -/
structure Holds (config : AsyncExecutionManagerConfig) (s : Registry) : Prop where
  capped : s.entries.size ≤ config.maxProcesses
  live : ∀ process handle, s.processes[process]? = some handle → handle.terminal = none →
    handle.cancellation ∈ s.cancelled ∨
      ∃ entry, s.entries.lookup handle.processId = some entry ∧ entry.process = process

/-- An entry is removed only once its process is terminal; one that is retained, only by an acknowledgement;
any other only as a call returns its terminal snapshot or after one did, or when it is idle past its timeout. -/
def MayRemove (e : Section) (s s' : Registry) (processId : Uuid) (entry : ProcessEntry) : Prop :=
  s.Terminal entry.process ∧
    (entry.retainTerminalUntilAcknowledged = true → e = .acknowledge processId) ∧
    (entry.retainTerminalUntilAcknowledged = false →
      entry.process ∈ s'.returned ∨ Registry.idleExpired s.now entry = true)

/-- What the step removes it may remove.  An entry is gone where its id has none, or one of another process. -/
def RemovesLawfully (e : Section) (s s' : Registry) : Prop :=
  ∀ processId entry, s.entries.lookup processId = some entry →
    (∀ entry', s'.entries.lookup processId = some entry' → entry'.process ≠ entry.process) →
    MayRemove e s s' processId entry

/-- The step does not go wrong: a start that inserts finds no entry of its id; what a call that waited, or a
cleanup, is about to remove is still the entry it looked at, and still idle where that was the reason; and
what is acknowledged was retained, or its terminal snapshot has been returned. -/
def Spares : (e : Section) → Registry → e.Answer → Prop
  | .register _ processId _, s, answer => answer = .ok () → s.entries.lookup processId = none
  | .removeTerminal processId process _, s, _ =>
    ∀ entry, s.entries.lookup processId = some entry → entry.process = process
  | .cleanupRemove remove, s, _ =>
    ∀ processId ∈ remove, ∀ entry, s.entries.lookup processId = some entry →
      s.expires s.now entry = true
  | .acknowledge processId, s, _ =>
    ∀ entry, s.entries.lookup processId = some entry → s.isTerminal entry.process = true →
      entry.retainTerminalUntilAcknowledged = true ∨ entry.process ∈ s.returned
  | _, _, _ => True

/-! ### What a step can do -/

/-- What a step can do to the registry. -/
inductive Change (config : AsyncExecutionManagerConfig) (e : Section) (s s' : Registry) : Prop
  | quiet (hentries : s'.entries = s.entries) (hprocesses : s'.processes = s.processes)
      (hcancelled : s.cancelled ⊆ s'.cancelled)
  /-- An entry is used. -/
  | used {processId : Uuid} {entry : ProcessEntry} (entry' : ProcessEntry)
      (hlookup : s.entries.lookup processId = some entry) (hprocess : entry'.process = entry.process)
      (hretain : entry'.retainTerminalUntilAcknowledged = entry.retainTerminalUntilAcknowledged)
      (hentries : s'.entries = s.entries.insert processId entry')
      (hprocesses : s'.processes = s.processes) (hcancelled : s.cancelled ⊆ s'.cancelled)
  /-- Entries are removed that may be. -/
  | removed (remove : List Uuid)
      (hentries : ∀ processId, s'.entries.lookup processId =
        if processId ∈ remove then none else s.entries.lookup processId)
      (hmay : ∀ processId ∈ remove, ∀ entry, s.entries.lookup processId = some entry →
        MayRemove e s s' processId entry)
      (hprocesses : s'.processes = s.processes) (hcancelled : s.cancelled ⊆ s'.cancelled)
  /-- A process has started, and is entered under an id that was free. -/
  | started (handle : ProcessHandle) (entry : ProcessEntry)
      (hfree : s.entries.lookup handle.processId = none)
      (hroom : s.entries.size < config.maxProcesses) (hprocess : entry.process = s.processes.length)
      (hentries : s'.entries = s.entries.insert handle.processId entry)
      (hprocesses : s'.processes = s.processes ++ [handle]) (hcancelled : s.cancelled ⊆ s'.cancelled)
  /-- A process has started for which there is no room, and is cancelled. -/
  | refused (handle : ProcessHandle) (htoken : handle.cancellation ∈ s'.cancelled)
      (hentries : s'.entries = s.entries) (hprocesses : s'.processes = s.processes ++ [handle])
      (hcancelled : s.cancelled ⊆ s'.cancelled)
  /-- A process has recorded an event. -/
  | recorded (process : Nat) (event : EventKind) (heq : s' = s.record process event)

/-! ### What every step keeps -/

variable {process : Nat}

theorem Registry.isTerminal_iff : s.isTerminal process = true ↔ s.Terminal process := by
  unfold isTerminal Terminal
  cases s.processes[process]? with
  | none => simp
  | some handle => simp [Option.isSome_iff_ne_none]

variable {handle : ProcessHandle} {event : EventKind}

theorem terminal_append (h : handle.terminal ≠ none) :
    ProcessHandle.terminal { handle with events := handle.events ++ [event] } ≠ none := by
  simp only [ProcessHandle.terminal, ne_eq, List.getLast?_eq_none_iff, List.filter_append,
    List.append_eq_nil_iff, not_and_or] at h ⊢
  exact .inl h

theorem getElem?_record {process' : Nat}
    (h : (s.record process event).processes[process']? = some handle) :
    ∃ before, s.processes[process']? = some before ∧ before.processId = handle.processId ∧
      before.cancellation = handle.cancellation ∧
      (before.terminal ≠ none → handle.terminal ≠ none) := by
  simp only [Registry.record, List.getElem?_modify] at h
  obtain ⟨before, hbefore, heq⟩ := Option.map_eq_some_iff.mp h
  refine ⟨before, hbefore, ?_⟩
  split at heq <;> subst heq
  · exact ⟨rfl, rfl, terminal_append⟩
  · exact ⟨rfl, rfl, id⟩

/-- What the others do to what a call has looked at: what was terminal stays so, and the entry of a process
that was known is the one it had. -/
structure Rely (s s' : Registry) : Prop where
  terminal : ∀ process, s.Terminal process → s'.Terminal process
  known : s.processes.length ≤ s'.processes.length
  entered : ∀ processId entry', s'.entries.lookup processId = some entry' →
    entry'.process < s.processes.length →
    ∃ entry, s.entries.lookup processId = some entry ∧ entry.process = entry'.process ∧
      entry.retainTerminalUntilAcknowledged = entry'.retainTerminalUntilAcknowledged

theorem Rely.refl (s : Registry) : Rely s s :=
  ⟨fun _ h => h, Nat.le_refl _, fun _ entry h _ => ⟨entry, h, rfl, rfl⟩⟩

theorem Rely.trans {s s' s'' : Registry} (h : Rely s s') (h' : Rely s' s'') : Rely s s'' := by
  refine ⟨fun p hp => h'.terminal p (h.terminal p hp), h.known.trans h'.known, ?_⟩
  intro processId entry'' hlookup hknown
  obtain ⟨entry', hlookup', hprocess', hretain'⟩ :=
    h'.entered processId entry'' hlookup (hknown.trans_le h.known)
  obtain ⟨entry, hentry, hprocess, hretain⟩ := h.entered processId entry' hlookup' (by omega)
  exact ⟨entry, hentry, hprocess.trans hprocess', hretain.trans hretain'⟩

/-- What the first section of a cleanup listed may be removed as long as it is as that section saw it. -/
theorem expires_of_kept {entry : ProcessEntry} {now : Nat} (hrely : Rely s s') (hnow : now ≤ s'.now)
    (h : s.expires now entry = true) : s'.expires s'.now entry = true := by
  simp only [Registry.expires, Registry.idleExpired, Bool.and_eq_true, decide_eq_true_eq] at h ⊢
  obtain ⟨⟨hterminal, hidle⟩, hretain⟩ := h
  refine ⟨⟨?_, by omega⟩, hretain⟩
  exact Registry.isTerminal_iff.mpr (hrely.terminal _ (Registry.isTerminal_iff.mp hterminal))

section Change
variable {e : Section}

theorem getElem?_append_cases {handle' : ProcessHandle} {processes : List ProcessHandle}
    (h : (processes ++ [handle])[process]? = some handle') :
    processes[process]? = some handle' ∨ process = processes.length ∧ handle' = handle := by
  rcases Nat.lt_or_ge process processes.length with hlt | hge
  · left
    rwa [List.getElem?_append_left hlt] at h
  · right
    rw [List.getElem?_append_right hge] at h
    obtain ⟨hzero, rfl⟩ : process - processes.length = 0 ∧ handle = handle' := by
      cases hn : process - processes.length with
      | zero => simpa [hn] using h
      | succ n => simp [hn] at h
    exact ⟨by omega, rfl⟩

/-- **Every step keeps the registry.** -/
theorem Holds.change (h : Holds config s) (hchange : Change config e s s') : Holds config s' := by
  cases hchange with
  | quiet hentries hprocesses hcancelled =>
    refine ⟨hentries ▸ h.capped, fun process handle hhandle hlive => ?_⟩
    rw [hprocesses] at hhandle
    rw [hentries]
    exact (h.live process handle hhandle hlive).imp_left fun hmem => hcancelled hmem
  | @used processId entry entry' hlookup hprocess hretain hentries hprocesses hcancelled =>
    refine ⟨?_, fun process handle hhandle hlive => ?_⟩
    · rw [hentries, Map.size_insert_of_lookup hlookup]
      exact h.capped
    · rw [hprocesses] at hhandle
      refine (h.live process handle hhandle hlive).imp (fun hmem => hcancelled hmem) ?_
      rintro ⟨found, hfound, rfl⟩
      rw [hentries, Map.lookup_insert]
      split
      · next hid =>
        rw [hid, hlookup] at hfound
        cases hfound
        exact ⟨entry', rfl, hprocess⟩
      · exact ⟨found, hfound, rfl⟩
  | removed remove hentries hmay hprocesses hcancelled =>
    refine ⟨?_, fun process handle hhandle hlive => ?_⟩
    · refine (Map.size_le_of_lookup fun processId entry hentry => ?_).trans h.capped
      rw [hentries] at hentry
      split at hentry
      · cases hentry
      · exact hentry
    · rw [hprocesses] at hhandle
      refine (h.live process handle hhandle hlive).imp (fun hmem => hcancelled hmem) ?_
      rintro ⟨found, hfound, rfl⟩
      rw [hentries]
      split
      · next hmem =>
        -- what is removed is terminal, and this process is not
        obtain ⟨⟨handle', hhandle', hterminal⟩, -⟩ := hmay _ hmem found hfound
        rw [hhandle] at hhandle'
        cases hhandle'
        exact absurd hlive hterminal
      · exact ⟨found, hfound, rfl⟩
  | started handle entry hfree hroom hprocess hentries hprocesses hcancelled =>
    refine ⟨?_, fun process handle' hhandle hlive => ?_⟩
    · rw [hentries, Map.size_insert_of_fresh hfree]
      exact hroom
    · rw [hprocesses] at hhandle
      rw [hentries]
      rcases getElem?_append_cases hhandle with hhandle | ⟨rfl, rfl⟩
      · refine (h.live process handle' hhandle hlive).imp (fun hmem => hcancelled hmem) ?_
        rintro ⟨found, hfound, rfl⟩
        have hid : handle'.processId ≠ handle.processId := by
          intro heq
          rw [heq, hfree] at hfound
          cases hfound
        exact ⟨found, by rw [Map.lookup_insert, if_neg hid, hfound], rfl⟩
      · right
        exact ⟨entry, by rw [Map.lookup_insert, if_pos rfl], hprocess⟩
  | refused handle htoken hentries hprocesses hcancelled =>
    refine ⟨hentries ▸ h.capped, fun process handle' hhandle hlive => ?_⟩
    rw [hprocesses] at hhandle
    rw [hentries]
    rcases getElem?_append_cases hhandle with hhandle | ⟨-, rfl⟩
    · exact (h.live process handle' hhandle hlive).imp_left fun hmem => hcancelled hmem
    · exact .inl htoken
  | recorded process event heq =>
    subst heq
    refine ⟨h.capped, fun process' handle hhandle hlive => ?_⟩
    obtain ⟨before, hbefore, hid, htoken, hterminal⟩ := getElem?_record hhandle
    rw [← hid, ← htoken]
    refine h.live process' before hbefore ?_
    by_contra hne
    exact hterminal hne hlive

theorem terminal_of_processes {processes : List ProcessHandle}
    (hprocesses : s'.processes = s.processes ++ processes) (h : s.Terminal process) :
    s'.Terminal process := by
  obtain ⟨handle, hhandle, hterminal⟩ := h
  have hlt := (List.getElem?_eq_some_iff.mp hhandle).1
  exact ⟨handle, by rw [hprocesses, List.getElem?_append_left hlt, hhandle], hterminal⟩

theorem terminal_record {process' : Nat} (h : s.Terminal process') :
    (s.record process event).Terminal process' := by
  obtain ⟨handle, hhandle, hterminal⟩ := h
  have hrecorded : (s.record process event).processes[process']? = some (if process = process' then
      { handle with events := handle.events ++ [event] } else handle) := by
    simp [Registry.record, List.getElem?_modify, hhandle]
  refine ⟨_, hrecorded, ?_⟩
  split
  · exact terminal_append hterminal
  · exact hterminal

/-- **What every step leaves to the other calls.** -/
theorem Change.rely (hchange : Change config e s s') : Rely s s' := by
  cases hchange with
  | quiet hentries hprocesses hcancelled =>
    have hsame : s'.processes = s.processes ++ [] := by rw [hprocesses, List.append_nil]
    exact ⟨fun _ => terminal_of_processes hsame, by rw [hprocesses],
      fun processId entry' hentry _ => ⟨entry', hentries ▸ hentry, rfl, rfl⟩⟩
  | @used processId entry entry' hlookup hprocess hretain hentries hprocesses hcancelled =>
    have hsame : s'.processes = s.processes ++ [] := by rw [hprocesses, List.append_nil]
    refine ⟨fun _ => terminal_of_processes hsame, by rw [hprocesses], ?_⟩
    intro processId' found hfound _
    rw [hentries, Map.lookup_insert] at hfound
    split at hfound
    · next hid =>
      cases hfound
      exact ⟨entry, hid ▸ hlookup, hprocess.symm, hretain.symm⟩
    · exact ⟨found, hfound, rfl, rfl⟩
  | removed remove hentries hmay hprocesses hcancelled =>
    have hsame : s'.processes = s.processes ++ [] := by rw [hprocesses, List.append_nil]
    refine ⟨fun _ => terminal_of_processes hsame, by rw [hprocesses], ?_⟩
    intro processId found hfound _
    rw [hentries] at hfound
    split at hfound
    · cases hfound
    · exact ⟨found, hfound, rfl, rfl⟩
  | started handle entry hfree hroom hprocess hentries hprocesses hcancelled =>
    refine ⟨fun _ => terminal_of_processes hprocesses, by simp [hprocesses], ?_⟩
    intro processId found hfound hknown
    rw [hentries, Map.lookup_insert] at hfound
    split at hfound
    · -- the new entry is of a process that was not known
      cases hfound
      omega
    · exact ⟨found, hfound, rfl, rfl⟩
  | refused handle htoken hentries hprocesses hcancelled =>
    exact ⟨fun _ => terminal_of_processes hprocesses, by simp [hprocesses],
      fun processId entry' hentry _ => ⟨entry', hentries ▸ hentry, rfl, rfl⟩⟩
  | recorded process event heq =>
    subst heq
    exact ⟨fun _ => terminal_record, by simp [Registry.record],
      fun processId entry' hentry _ => ⟨entry', hentry, rfl, rfl⟩⟩

theorem Change.removesLawfully (hchange : Change config e s s') : RemovesLawfully e s s' := by
  intro processId entry hentry hgone
  cases hchange with
  | quiet hentries hprocesses hcancelled => exact absurd rfl (hgone entry (hentries ▸ hentry))
  | @used processId' entry₁ entry' hlookup hprocess hretain hentries hprocesses hcancelled =>
    rw [hentries] at hgone
    simp only [Map.lookup_insert] at hgone
    split at hgone
    · next hid =>
      rw [hid, hlookup] at hentry
      cases hentry
      exact absurd hprocess (hgone entry' rfl)
    · exact absurd rfl (hgone entry hentry)
  | removed remove hentries hmay hprocesses hcancelled =>
    simp only [hentries] at hgone
    split at hgone
    · next hmem => exact hmay processId hmem entry hentry
    · exact absurd rfl (hgone entry hentry)
  | started handle entry' hfree hroom hprocess hentries hprocesses hcancelled =>
    have hid : processId ≠ handle.processId := by
      intro heq
      rw [heq, hfree] at hentry
      cases hentry
    exact absurd rfl (hgone entry (by rw [hentries, Map.lookup_insert, if_neg hid, hentry]))
  | refused handle htoken hentries hprocesses hcancelled =>
    exact absurd rfl (hgone entry (hentries ▸ hentry))
  | recorded process event heq =>
    subst heq
    exact absurd rfl (hgone entry hentry)

end Change

/-! ### The steps of the methods -/

/-- What a call has when it takes its steps: a call that removes an entry has a terminal snapshot of a process
that need not be retained. -/
def asks : Section → Registry → Prop
  | .removeTerminal processId process snapshot, s =>
    snapshot.status ≠ .running ∧ s.Terminal process ∧
      ∀ entry, s.entries.lookup processId = some entry → entry.process = process →
        entry.retainTerminalUntilAcknowledged = false
  | _, _ => True

variable {snapshot : AsyncProcessSnapshot}

theorem processes_giveBack :
    (s.giveBack process snapshot).processes = s.processes ∧
      (s.giveBack process snapshot).cancelled = s.cancelled ∧
      (s.giveBack process snapshot).entries = s.entries := by
  unfold Registry.giveBack
  split <;> exact ⟨rfl, rfl, rfl⟩

theorem mem_returned_giveBack (h : snapshot.status ≠ .running) :
    process ∈ (s.giveBack process snapshot).returned := by
  simp [Registry.giveBack, h]

variable {processId : Uuid}

theorem withEntry_cases {α : Type} {f : ProcessEntry → Except String α × Registry}
    {answer : Except String α} (h : (answer, s') = s.withEntry processId f) :
    s' = s ∨ ∃ entry, s.entries.lookup processId = some entry ∧ s' = (f entry).2 := by
  unfold Registry.withEntry at h
  split at h
  · exact .inl (Prod.mk.inj h).2
  · next entry hlookup => exact .inr ⟨entry, hlookup, congrArg Prod.snd h⟩

/-- **What a step can do**, where it does not go wrong. -/
theorem serves_change {e : Section} {answer : e.Answer} (hserves : serves config e s answer s')
    (hspares : Spares e s answer) (hasks : asks e s) : Change config e s s' := by
  have same (hsame : s' = s) : Change config e s s' := by
    subst hsame
    exact .quiet rfl rfl (List.Subset.refl _)
  cases e with
  | clock => exact same hserves.2
  | cleanupScan now =>
    have heq : s' = (s.cleanupScan now).2 := congrArg Prod.snd hserves
    subst heq
    exact .quiet rfl rfl (List.subset_append_right _ _)
  | cleanupRemove remove =>
    obtain rfl : s' = s.cleanupRemove remove := hserves
    refine .removed remove (Map.lookup_foldl_erase remove s.entries) (fun processId hmem entry hentry => ?_)
      rfl (List.Subset.refl _)
    have hexpires := hspares processId hmem entry hentry
    simp only [Registry.expires, Bool.and_eq_true, Bool.not_eq_true'] at hexpires
    obtain ⟨⟨hterminal, hidle⟩, hretain⟩ := hexpires
    refine ⟨Registry.isTerminal_iff.mp hterminal, fun h => ?_, fun _ => .inr hidle⟩
    rw [hretain] at h
    cases h
  | nextProcessId => exact same hserves
  | register request processId cancellation =>
    rcases hserves with ⟨-, hsame⟩ | ⟨events, stdin, heq⟩
    · exact same hsame
    · unfold Registry.register at heq
      dsimp only at heq
      split at heq
      · -- no room: the process is cancelled
        obtain ⟨-, rfl⟩ := Prod.mk.inj heq
        exact .refused ⟨processId, request.backend, request.label, cancellation, events⟩ (.head _) rfl
          rfl (List.subset_cons_self _ _)
      · next hroom =>
        obtain ⟨rfl, rfl⟩ := Prod.mk.inj heq
        exact .started ⟨processId, request.backend, request.label, cancellation, events⟩ _
          (hspares rfl) (Nat.lt_of_not_le hroom) rfl rfl rfl (List.Subset.refl _)
  | touch processId =>
    rcases withEntry_cases hserves with hsame | ⟨entry, hlookup, rfl⟩
    · exact same hsame
    · exact .used { entry with lastUsed := s.now } hlookup rfl rfl rfl rfl (List.Subset.refl _)
  | takeStdin processId =>
    rcases withEntry_cases hserves with hsame | ⟨entry, hlookup, rfl⟩
    · exact same hsame
    · exact .used { entry with lastUsed := s.now } hlookup rfl rfl rfl rfl (List.Subset.refl _)
  | send process bytes => exact same hserves
  | terminate processId reason =>
    rcases withEntry_cases hserves with hsame | ⟨entry, hlookup, rfl⟩
    · exact same hsame
    · exact .used { entry with lastUsed := s.now, terminationReason := some reason } hlookup rfl rfl
        rfl rfl (List.subset_cons_self _ _)
  | look processId =>
    rcases withEntry_cases hserves with hsame | ⟨entry, hlookup, hsame⟩
    · exact same hsame
    · exact same hsame
  | observe process maxOutputBytes => exact same hserves.2
  | terminationReason processId => exact same hserves.2
  | removeTerminal processId process snapshot =>
    obtain ⟨hstatus, hterminal, hretain⟩ := hasks
    change s' = Registry.giveBack process snapshot { s with entries := s.entries.erase processId } at hserves
    subst hserves
    obtain ⟨hprocesses, hcancelled, hentries⟩ :=
      @processes_giveBack { s with entries := s.entries.erase processId } process snapshot
    refine .removed [processId] (fun processId' => ?_) (fun processId' hmem entry hentry => ?_) hprocesses
      (fun _ hmem => by rw [hcancelled]; exact hmem)
    · rw [hentries, Map.lookup_erase]
      simp only [List.mem_singleton]
    · obtain rfl := List.mem_singleton.mp hmem
      -- the entry is still the one the call looked at
      obtain rfl := hspares entry hentry
      refine ⟨hterminal, fun h => ?_, fun _ => .inl (mem_returned_giveBack hstatus)⟩
      rw [hretain entry hentry rfl] at h
      cases h
  | giveBack process snapshot =>
    obtain rfl : s' = s.giveBack process snapshot := hserves
    obtain ⟨hprocesses, hcancelled, hentries⟩ := @processes_giveBack s process snapshot
    exact .quiet hentries hprocesses (hcancelled ▸ List.Subset.refl _)
  | recv remaining => exact same hserves
  | wait => exact hserves.elim
  | acknowledge processId =>
    change (answer, s') = s.acknowledge processId at hserves
    unfold Registry.acknowledge at hserves
    split at hserves
    · exact same (Prod.mk.inj hserves).2
    · next entry hlookup =>
      split at hserves
      · next hterminal =>
        obtain ⟨-, rfl⟩ := Prod.mk.inj hserves
        refine .removed [processId] (fun processId' => ?_) (fun processId' hmem entry' hentry => ?_)
          rfl (List.Subset.refl _)
        · rw [Map.lookup_erase]
          simp only [List.mem_singleton]
        · obtain rfl := List.mem_singleton.mp hmem
          obtain rfl : entry = entry' := Option.some.inj (hlookup.symm.trans hentry)
          refine ⟨Registry.isTerminal_iff.mp hterminal, fun _ => rfl, fun h => .inl ?_⟩
          rcases hspares entry hlookup hterminal with hretain | hreturned
          · rw [hretain] at h
            cases h
          · exact hreturned
      · exact same (Prod.mk.inj hserves).2

/-! ### The calls -/

/-- A step that does not go wrong. -/
def ServesSparing (config : AsyncExecutionManagerConfig) (e : Section) (s : Registry) (answer : e.Answer)
    (s' : Registry) : Prop :=
  serves config e s answer s' ∧ Spares e s answer

/-- Every entry is about a process that was started. -/
def Entered (s : Registry) : Prop :=
  ∀ processId entry, s.entries.lookup processId = some entry → entry.process < s.processes.length

theorem Entered.change {e : Section} (h : Entered s) (hchange : Change config e s s') : Entered s' := by
  intro processId found hfound
  cases hchange with
  | quiet hentries hprocesses hcancelled =>
    rw [hprocesses]
    exact h processId found (hentries ▸ hfound)
  | @used processId' entry entry' hlookup hprocess hretain hentries hprocesses hcancelled =>
    rw [hentries, Map.lookup_insert] at hfound
    rw [hprocesses]
    split at hfound
    · cases hfound
      rw [hprocess]
      exact h processId' entry hlookup
    · exact h processId found hfound
  | removed remove hentries hmay hprocesses hcancelled =>
    rw [hentries] at hfound
    rw [hprocesses]
    split at hfound
    · cases hfound
    · exact h processId found hfound
  | started handle entry hfree hroom hprocess hentries hprocesses hcancelled =>
    rw [hentries, Map.lookup_insert] at hfound
    rw [hprocesses, List.length_append, List.length_singleton]
    split at hfound
    · cases hfound
      omega
    · exact Nat.lt_succ_of_lt (h processId found hfound)
  | refused handle htoken hentries hprocesses hcancelled =>
    rw [hprocesses, List.length_append, List.length_singleton]
    exact Nat.lt_succ_of_lt (h processId found (hentries ▸ hfound))
  | recorded process event heq =>
    subst heq
    simpa [Registry.record] using h processId found hfound

/-- What a call does, of whose steps none goes wrong. -/
abbrev Settles {α : Type} (config : AsyncExecutionManagerConfig) (p : ProcessM α) (s : Registry) : Prop :=
  Proc.Settles Rely asks (fun e s answer s' => Entered s ∧ ServesSparing config e s answer s')
    (fun _ _ => True) (fun _ _ => True) p s

/-- What a call has looked at: a process that is known, and the flag of its entry. -/
def LookedAt (processId : Uuid) (looked : Looked) (s : Registry) : Prop :=
  looked.process < s.processes.length ∧
    ∀ entry, s.entries.lookup processId = some entry → entry.process = looked.process →
      entry.retainTerminalUntilAcknowledged = looked.retain

theorem LookedAt.rely {looked : Looked} (h : LookedAt processId looked s) (hrely : Rely s s') :
    LookedAt processId looked s' := by
  refine ⟨h.1.trans_le hrely.known, fun entry' hentry' hprocess => ?_⟩
  obtain ⟨entry, hentry, hsame, hretain⟩ := hrely.entered processId entry' hentry' (by rw [hprocess]; exact h.1)
  rw [← hretain]
  exact h.2 entry hentry (hsame.trans hprocess)

theorem status_applyTerminationReason {reason : Option String} :
    (applyTerminationReason snapshot reason).status = snapshot.status := by
  unfold applyTerminationReason
  split
  · rfl
  · split <;> rfl

variable {maxOutputBytes : Nat}

theorem terminal_of_status (h : (snapshotFromProcess handle maxOutputBytes).status ≠ .running) :
    handle.terminal ≠ none := by
  intro hnone
  simp [snapshotFromProcess, hnone, snapshotStatus] at h

section Programs
variable {α β : Type}

theorem settles_bind {p : ProcessM α} {f : α → ProcessM β} (h : Settles config p s)
    (hf : ∀ a s', Settles config (f a) s') : Settles config (p >>= f) s :=
  Proc.Settles.bind Rely.refl (fun _ _ _ _ _ => trivial) (h.imp (fun a s' _ => hf a s') fun _ _ h => h)

theorem settles_pure {a : α} : Settles config (pure a : ProcessM α) s := .pure fun _ _ => trivial

theorem settles_throw {err : String} : Settles config (throw err : ProcessM α) s := .throw fun _ _ => trivial

theorem settles_ask {e : Section} {f : e.Answer → ProcessM α} (hasks : ∀ s, asks e s)
    (hf : ∀ answer s', Settles config (f answer) s') : Settles config (ask e >>= f) s :=
  .await fun s' _ => ⟨hasks s', fun answer s'' _ => hf answer s''⟩

theorem settles_step {e : Section} (hasks : ∀ s, asks e s) : Settles config (ask e) s := by
  intro s' _
  exact ⟨hasks s', fun _ _ _ _ _ => trivial⟩

theorem settles_orFail {result : Except String α} {f : α → ProcessM β}
    (hf : ∀ a, result = .ok a → Settles config (f a) s) : Settles config (orFail result >>= f) s :=
  .settle hf fun _ _ _ _ => trivial

theorem settles_map {p : ProcessM α} {f : α → β} (h : Settles config p s) :
    Settles config (f <$> p) s := by
  rw [map_eq_pure_bind]
  exact settles_bind h fun _ _ => settles_pure

end Programs

/-- **The loop of a wait**: what it removes, it has looked at and has seen terminal. -/
theorem settles_waitLoop {looked : Looked} {deadline rounds : Nat} (h : LookedAt processId looked s) :
    Settles config (waitLoop processId looked deadline maxOutputBytes rounds) s := by
  induction rounds generalizing s with
  | zero => exact settles_ask (fun _ => trivial) fun answer => nomatch answer
  | succ rounds ih =>
    refine .await fun s₁ hs₁ => ⟨trivial, fun observed s₂ hobserve => ?_⟩
    obtain ⟨-, ⟨hobserved, rfl⟩, -⟩ := hobserve
    have h₁ := h.rely hs₁
    -- a terminal status was read off the events of the process
    have hterminal : observed.status ≠ .running → s₂.Terminal looked.process := by
      intro hstatus
      obtain ⟨handle, hhandle⟩ : ∃ handle, s₂.processes[looked.process]? = some handle :=
        ⟨_, List.getElem?_eq_getElem h₁.1⟩
      rw [hobserved handle hhandle] at hstatus
      exact ⟨handle, hhandle, terminal_of_status hstatus⟩
    refine .await fun s₃ hs₃ => ⟨trivial, fun reason s₄ hreason => ?_⟩
    obtain ⟨-, ⟨-, rfl⟩, -⟩ := hreason
    have h₂ := h₁.rely hs₃
    refine .await fun s₅ hs₅ => ⟨trivial, fun now s₆ hclock => ?_⟩
    obtain ⟨-, ⟨-, rfl⟩, -⟩ := hclock
    have h₃ := h₂.rely hs₅
    split
    · split
      · next hremove =>
        refine .await fun s₇ hs₇ => ⟨⟨hremove.1, ?_, ?_⟩, fun _ _ _ => settles_pure⟩
        · have hobserved := hterminal fun heq => hremove.1 (status_applyTerminationReason.trans heq)
          exact hs₇.terminal _ (hs₅.terminal _ (hs₃.terminal _ hobserved))
        · intro entry hentry hprocess
          rw [(h₃.rely hs₇).2 entry hentry hprocess]
          exact hremove.2
      · exact settles_ask (fun _ => trivial) fun _ _ => settles_pure
    · refine .await fun s₇ hs₇ => ⟨trivial, fun now' s₈ hclock => ?_⟩
      obtain ⟨-, ⟨-, rfl⟩, -⟩ := hclock
      split
      · exact settles_ask (fun _ => trivial) fun _ _ => settles_pure
      · refine .await fun s₉ hs₉ => ⟨trivial, fun _ s₁₀ hrecv => ?_⟩
        obtain ⟨-, rfl, -⟩ := hrecv
        exact ih ((h₃.rely hs₇).rely hs₉)

theorem settles_waitForSnapshot {rounds : Nat} {yieldTime : Nat} :
    Settles config (waitForSnapshot rounds processId yieldTime maxOutputBytes) s := by
  refine .await fun s₁ _ => ⟨trivial, fun answer s₂ hlook => ?_⟩
  obtain ⟨hentered, hserves, -⟩ := hlook
  refine settles_orFail fun looked hlooked => ?_
  have hat : LookedAt processId looked s₂ := by
    change (answer, s₂) = s₁.withEntry processId _ at hserves
    unfold Registry.withEntry at hserves
    split at hserves
    · cases hserves
      cases hlooked
    · next entry hlookup =>
      cases hserves
      cases hlooked
      refine ⟨hentered processId entry hlookup, fun entry' hentry' _ => ?_⟩
      rw [hlookup] at hentry'
      cases hentry'
      rfl
  refine .await fun s₃ hs₃ => ⟨trivial, fun now s₄ hclock => ?_⟩
  obtain ⟨-, ⟨-, rfl⟩, -⟩ := hclock
  exact settles_waitLoop (hat.rely hs₃)

theorem settles_cleanupExpired : Settles config cleanupExpired s := by
  refine settles_ask (fun _ => trivial) fun now s₁ => settles_ask (fun _ => trivial) fun remove s₂ => ?_
  cases remove with
  | nil => exact settles_pure
  | cons processId rest => exact settles_step fun _ => trivial

/-- **Every call asks what it may.** -/
theorem settles_starts {call : Call} (h : Starts call) :
    call.Meets Rely asks (fun e s answer s' => Entered s ∧ ServesSparing config e s answer s')
      (fun _ _ => True) s := by
  have meets {α : Type} {p : ProcessM α} {f : α → Outcome} (hp : Settles config p s) :
      (f <$> p).run.Meets Rely asks
        (fun e s answer s' => Entered s ∧ ServesSparing config e s answer s') (fun _ _ => True) s :=
    Proc.Meets.imp (fun _ _ _ => trivial) (settles_map hp)
  cases h with
  | startCancellable rounds request cancellation =>
    refine meets (settles_bind settles_cleanupExpired fun _ s₁ => settles_bind ?_ fun processId s₂ => ?_)
    · cases request.processId with
      | some processId => exact settles_pure
      | none => exact settles_step fun _ => trivial
    · exact settles_ask (fun _ => trivial) fun _ _ => settles_orFail fun _ _ => settles_waitForSnapshot
  | poll rounds processId yieldTime maxOutputBytes =>
    exact meets (settles_ask (fun _ => trivial) fun _ _ => settles_orFail fun _ _ => settles_waitForSnapshot)
  | write rounds processId bytes yieldTime maxOutputBytes =>
    refine meets (settles_ask (fun _ => trivial) fun _ _ => settles_orFail fun process _ => ?_)
    refine settles_ask (fun _ => trivial) fun sent _ => ?_
    split
    · exact settles_throw
    · exact settles_waitForSnapshot
  | terminate rounds processId reason yieldTime maxOutputBytes =>
    exact meets (settles_ask (fun _ => trivial) fun _ _ => settles_orFail fun _ _ => settles_waitForSnapshot)
  | snapshot processId maxOutputBytes =>
    refine meets (settles_ask (fun _ => trivial) fun _ _ => settles_orFail fun looked _ => ?_)
    exact settles_ask (fun _ => trivial) fun _ _ => settles_ask (fun _ => trivial) fun _ _ => settles_pure
  | acknowledgeTerminal processId =>
    refine meets (settles_ask (fun _ => trivial) fun answer _ s' _ => ?_)
    cases answer <;> trivial
  | cleanupExpired => exact meets settles_cleanupExpired

/-! ### Runs -/

def ways (config : AsyncExecutionManagerConfig) :
    Pool.Ways Nat Section Section.Answer (Except String Outcome) Registry where
  good s := Holds config s ∧ Entered s
  waits _ _ := True
  rely _ := Rely
  asks _ := asks
  answers _ e s answer s' := Entered s ∧ ServesSparing config e s answer s'
  ends _ _ _ := True

theorem moves_change (h : Moves s s') : Change config .wait s s' := by
  cases h with
  | time elapsed => exact .quiet rfl rfl (List.Subset.refl _)
  | event process event => exact .recorded process event rfl
  | cancel token => exact .quiet rfl rfl (List.subset_cons_self _ _)

theorem ways_sound : (ways config).Sound (fun _ _ call => Starts call)
    (fun _ => ServesSparing config) Moves where
  refl _ s _ := Rely.refl s
  trans _ _ _ _ := Rely.trans
  waits _ _ _ _ _ := trivial
  start _ s call _ _ hstarts := settles_starts hstarts
  call i e s answer s' hgood hasks hserves := by
    have hchange := serves_change hserves.1 hserves.2 hasks
    exact ⟨⟨hgood.1.change hchange, hgood.2.change hchange⟩, ⟨hgood.2, hserves⟩, fun _ _ => hchange.rely⟩
  other s s' hgood hmoves := by
    have hchange : Change config .wait s s' := moves_change hmoves
    exact ⟨⟨hgood.1.change hchange, hgood.2.change hchange⟩, fun _ => hchange.rely⟩

theorem holds_new : Holds config Registry.new ∧ Entered Registry.new := by
  refine ⟨⟨Nat.zero_le _, ?_⟩, ?_⟩
  · intro process handle h
    simp [Registry.new] at h
  · intro processId entry h
    simp [Registry.new] at h

/-- A run of calls of which no step goes wrong. -/
abbrev ReachableSparing (config : AsyncExecutionManagerConfig) (calls : Calls) : Prop :=
  Pool.Reachable (fun _ _ call => Starts call) (fun _ => ServesSparing config) Moves Registry.new calls

/-- **The registry loses no live process** in a run of which no step goes wrong: it holds what it is to hold,
and every step removes only what it may. -/
theorem registry_kept {calls : Calls} (h : ReachableSparing config calls) :
    Holds config calls.state ∧
      (∀ i e k answer s', calls.procs i = some (.call e k) →
        ServesSparing config e calls.state answer s' → RemovesLawfully e calls.state s') ∧
      ∀ s', Moves calls.state s' → s'.entries = calls.state.entries := by
  have hkept := Pool.Reachable.kept (@ways_sound config) holds_new (fun _ => trivial) h
  refine ⟨hkept.good.1, fun i e k answer s' hproc hserves => ?_, fun s' hmoves => ?_⟩
  · exact (serves_change hserves.1 hserves.2 (hkept.asks ways_sound hproc)).removesLawfully
  · cases hmoves <;> rfl

/-! ### A repeated id -/

def sampleConfig : AsyncExecutionManagerConfig := ⟨300000, 64⟩

/-- A start with an id of the caller's choice. -/
def sampleRequest : AsyncProcessStartRequest where
  processId := some ⟨7⟩
  backend := "host_bash"
  label := "sleep 60"
  deadline := 60000
  idleTimeout := none
  outputCapBytes := 1024
  yieldTime := 10
  retainTerminalUntilAcknowledged := true

def sampleStart (cancellation : Nat) : Call :=
  (Outcome.snapshot <$> startCancellable 1 sampleRequest cancellation).run

/-- What is left of the call after its entry was inserted. -/
def sampleWait : Call :=
  (Outcome.snapshot <$>
    waitForSnapshot 1 ⟨7⟩ sampleRequest.yieldTime sampleRequest.outputCapBytes).run

def sampleStarted (cancellation : Nat) (s : Registry) : Registry :=
  (s.register sampleConfig sampleRequest ⟨7⟩ cancellation [.started none] false).2

def sampleCalls : Calls := (Pool.idle Registry.new).set 0 sampleWait (sampleStarted 0 Registry.new)

theorem cleanupScan_new :
    serves sampleConfig (.cleanupScan 0) Registry.new ([] : List Uuid) Registry.new := rfl

theorem cleanupScan_sampleStarted :
    serves sampleConfig (.cleanupScan 0) (sampleStarted 0 Registry.new) ([] : List Uuid)
      (sampleStarted 0 Registry.new) := rfl

theorem reachableSparing_sampleCalls : ReachableSparing sampleConfig sampleCalls := by
  have h₁ : ReachableSparing sampleConfig ((Pool.idle Registry.new).set 0 (sampleStart 0) Registry.new) :=
    Pool.Reachable.start .refl rfl (.startCancellable 1 sampleRequest 0)
  have hclock : ServesSparing sampleConfig .clock Registry.new (0 : Nat) Registry.new := ⟨⟨rfl, rfl⟩, trivial⟩
  have hregister : ServesSparing sampleConfig (.register sampleRequest ⟨7⟩ 0) Registry.new
      (.ok () : Except String Unit) (sampleStarted 0 Registry.new) :=
    ⟨.inr ⟨[.started none], false, rfl⟩, fun _ => rfl⟩
  exact ((h₁.call hclock).call ⟨cleanupScan_new, trivial⟩).call hregister

/-- Its process has ended. -/
def sampleEnded : Registry := (sampleStarted 0 Registry.new).record 0 (.completed (some 0) true)

def sampleAcknowledge : Call := (Outcome.acknowledged <$> acknowledgeTerminal ⟨7⟩).run

/-- Another call is about to acknowledge the process that has ended, while the first one waits. -/
def endedCalls : Calls := sampleCalls.set 1 sampleAcknowledge sampleEnded

def acknowledgedCalls : Calls :=
  sampleCalls.set 1 (.done (.ok (.acknowledged true))) (sampleEnded.acknowledge ⟨7⟩).2

theorem reachableSparing_endedCalls : ReachableSparing sampleConfig endedCalls := by
  have hended : ReachableSparing sampleConfig ⟨sampleEnded, sampleCalls.procs⟩ :=
    .tail reachableSparing_sampleCalls (.other (.event 0 _))
  exact Pool.Reachable.start hended rfl (.acknowledgeTerminal ⟨7⟩)

theorem acknowledge_sampleEnded : ServesSparing sampleConfig (.acknowledge ⟨7⟩) sampleEnded
    (.ok true : Except String Bool) (sampleEnded.acknowledge ⟨7⟩).2 := by
  refine ⟨rfl, fun entry hentry _ => .inl ?_⟩
  cases hentry
  rfl

/-- The entry is retained until the second call removes it. -/
theorem registry_kept_sampleCalls :
    (Holds sampleConfig endedCalls.state ∧ Holds sampleConfig acknowledgedCalls.state) ∧
      RemovesLawfully (.acknowledge ⟨7⟩) endedCalls.state acknowledgedCalls.state ∧
      endedCalls.state.entries.lookup ⟨7⟩ ≠ none ∧
      acknowledgedCalls.state.entries.lookup ⟨7⟩ = none := by
  have hended := registry_kept reachableSparing_endedCalls
  have hacknowledged : ReachableSparing sampleConfig acknowledgedCalls :=
    Pool.Reachable.call reachableSparing_endedCalls acknowledge_sampleEnded
  exact ⟨⟨hended.1, (registry_kept hacknowledged).1⟩,
    hended.2.1 1 _ _ _ _ rfl acknowledge_sampleEnded, nofun, rfl⟩

/-- A second call starts a process with the same id, while the first one runs. -/
def repeatedCalls : Calls :=
  sampleCalls.set 1 sampleWait (sampleStarted 1 (sampleStarted 0 Registry.new))

theorem reachable_repeatedCalls : Reachable sampleConfig repeatedCalls := by
  have h₀ : Reachable sampleConfig sampleCalls :=
    Pool.Reachable.imp (fun _ _ _ _ _ h => h.1) reachableSparing_sampleCalls
  have h₁ : Reachable sampleConfig (sampleCalls.set 1 (sampleStart 1) (sampleStarted 0 Registry.new)) :=
    Pool.Reachable.start h₀ rfl (.startCancellable 1 sampleRequest 1)
  have hclock : serves sampleConfig .clock (sampleStarted 0 Registry.new) (0 : Nat)
      (sampleStarted 0 Registry.new) := ⟨rfl, rfl⟩
  have hregister : serves sampleConfig (.register sampleRequest ⟨7⟩ 1) (sampleStarted 0 Registry.new)
      (.ok () : Except String Unit) (sampleStarted 1 (sampleStarted 0 Registry.new)) :=
    .inr ⟨[.started none], false, rfl⟩
  exact ((h₁.call hclock).call cleanupScan_sampleStarted).call hregister

/-- **A repeated start loses the process that runs**: its entry is gone, and nobody has cancelled it. -/
theorem repeated_start_lost :
    Reachable sampleConfig repeatedCalls ∧ ¬ Holds sampleConfig repeatedCalls.state := by
  refine ⟨reachable_repeatedCalls, fun h => ?_⟩
  rcases h.live 0 _ rfl rfl with hcancelled | ⟨entry, hentry, hprocess⟩
  · exact absurd hcancelled (by decide)
  · cases hentry
    cases hprocess

end Verlet.Process
