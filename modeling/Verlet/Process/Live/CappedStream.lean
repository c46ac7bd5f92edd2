import Verlet.Process.Live

/-!
# Process — The output of a child, up to a cap

`record_capped_stream_bytes`, over the reads of a stream of a child.

* `records_spawnReader`: however the bytes come, those up to the cap are recorded, and once that there
  were more.
-/

namespace Verlet.Process

structure StreamCapState where
  written : Nat := 0
  truncated : Bool := false

inductive ProcessStream where
  | stdout
  | stderr
deriving DecidableEq

def ProcessStream.event : ProcessStream → List UInt8 → EventKind
  | .stdout => .stdout
  | .stderr => .stderr

def ProcessStream.outputTruncated (stream : ProcessStream) : EventKind :=
  .outputTruncated (stream = .stdout) (stream = .stderr)

/-- `record_capped_stream_bytes`: the events that it records, and its state. -/
def recordCappedStreamBytes (stream : ProcessStream) (bytes : List UInt8) (maxOutputBytes : Nat)
    (state : StreamCapState) : List EventKind × StreamCapState :=
  if state.written ≥ maxOutputBytes then
    if !state.truncated then ([stream.outputTruncated], { state with truncated := true })
    else ([], state)
  else
    let take := min (maxOutputBytes - state.written) bytes.length
    let recorded := if take > 0 then [stream.event (bytes.take take)] else []
    let state := { state with written := state.written + take }
    if take < bytes.length && !state.truncated then
      (recorded ++ [stream.outputTruncated], { state with truncated := true })
    else (recorded, state)

/-- The loop of `spawn_reader` over what its reads return: an empty read is the end. -/
def spawnReader (stream : ProcessStream) (maxOutputBytes : Nat) :
    StreamCapState → List (List UInt8) → List EventKind
  | _, []                 => []
  | state, bytes :: reads =>
    if bytes.isEmpty then []
    else
      let (recorded, state) := recordCappedStreamBytes stream bytes maxOutputBytes state
      recorded ++ spawnReader stream maxOutputBytes state reads

/-! ### What a stream records -/

variable {stream : ProcessStream} {cap : Nat}

def StreamCapState.after (cap read : Nat) : StreamCapState := ⟨min cap read, cap < read⟩

/-- Events that record the bytes, one piece after the other, and that there were more. -/
def Records (stream : ProcessStream) (bytes : List UInt8) (more : Prop) [Decidable more]
    (events : List EventKind) : Prop :=
  ∃ pieces : List (List UInt8), [] ∉ pieces ∧ pieces.flatten = bytes ∧
    events = pieces.map stream.event ++ if more then [stream.outputTruncated] else []

/-- **An empty chunk** is not recorded; where the cap is reached, it is taken for more.  No read but the last
is empty. -/
theorem recordCappedStreamBytes_nil (state : StreamCapState) :
    recordCappedStreamBytes stream [] cap state =
      if state.written < cap ∨ state.truncated = true then ([], state)
      else ([stream.outputTruncated], { state with truncated := true }) := by
  by_cases hopen : state.written < cap
  · simp [recordCappedStreamBytes, hopen]
  · cases htruncated : state.truncated <;> simp [recordCappedStreamBytes, hopen, htruncated]

theorem recordCappedStreamBytes_after {bytes : List UInt8} (hbytes : bytes ≠ []) (read : Nat) :
    (recordCappedStreamBytes stream bytes cap (.after cap read)).2 = .after cap (read + bytes.length) ∧
      Records stream (bytes.take (cap - read)) (read ≤ cap ∧ cap < read + bytes.length)
        (recordCappedStreamBytes stream bytes cap (.after cap read)).1 := by
  have hpos := List.length_pos_of_ne_nil hbytes
  rcases Nat.lt_trichotomy cap read with hover | rfl | hunder
  · have hfull : min cap read = cap := Nat.min_eq_left hover.le
    have hlater : min cap (read + bytes.length) = cap := by omega
    have hstays : cap < read + bytes.length := by omega
    refine ⟨?_, [], by simp, by simp [Nat.sub_eq_zero_of_le hover.le], ?_⟩
    · simp [recordCappedStreamBytes, StreamCapState.after, hfull, hlater, hover, hstays]
    · simp [recordCappedStreamBytes, StreamCapState.after, hfull, hover, Nat.not_le.mpr hover]
  · have hstays : cap < cap + bytes.length := by omega
    refine ⟨?_, [], by simp, by simp, ?_⟩
    · simp [recordCappedStreamBytes, StreamCapState.after, hstays]
    · simp [recordCappedStreamBytes, StreamCapState.after, hstays]
  · have hnone : min cap read = read := Nat.min_eq_right hunder.le
    have hopen := Nat.not_le.mpr hunder
    have hquiet := Nat.not_lt.mpr hunder.le
    have htake : 0 < min (cap - read) bytes.length := by omega
    have hmore : min (cap - read) bytes.length < bytes.length ↔ cap < read + bytes.length := by omega
    have hsum : read + min (cap - read) bytes.length = min cap (read + bytes.length) := by omega
    refine ⟨?_, [bytes.take (min (cap - read) bytes.length)], ?_, by simp, ?_⟩
    · by_cases hlong : cap < read + bytes.length <;>
        simp [recordCappedStreamBytes, StreamCapState.after, hnone, hopen, hquiet, hmore, hsum, hlong]
    · rw [List.mem_singleton, eq_comm, List.take_eq_nil_iff]
      exact not_or.mpr ⟨by omega, hbytes⟩
    · by_cases hlong : cap < read + bytes.length <;>
        simp [recordCappedStreamBytes, StreamCapState.after, hopen, hquiet, htake, hmore, hlong,
          hunder.le]

theorem records_spawnReader {reads : List (List UInt8)} (hreads : [] ∉ reads) (read : Nat) :
    Records stream (reads.flatten.take (cap - read)) (read ≤ cap ∧ cap < read + reads.flatten.length)
      (spawnReader stream cap (.after cap read) reads) := by
  induction reads generalizing read with
  | nil => exact ⟨[], by simp, by simp, by simp [spawnReader]⟩
  | cons bytes reads ih =>
    obtain ⟨hne, hrest⟩ := not_or.mp (mt List.mem_cons.mpr hreads)
    obtain ⟨hstate, first, hsolid, hfirst, hevents⟩ :=
      @recordCappedStreamBytes_after stream cap bytes (Ne.symm hne) read
    obtain ⟨later, hsolid', hlater, hevents'⟩ := ih hrest (read + bytes.length)
    have hpos := List.length_pos_of_ne_nil (Ne.symm hne)
    refine ⟨first ++ later, by simp [hsolid, hsolid'], ?_, ?_⟩
    · rw [List.flatten_append, hfirst, hlater, List.flatten_cons, List.take_append, Nat.sub_sub]
    · rw [spawnReader, if_neg (by simpa using Ne.symm hne)]
      dsimp only
      rw [hstate, hevents, hevents', List.map_append, List.flatten_cons, List.length_append]
      rw [List.append_assoc]
      by_cases hlong : read + bytes.length ≤ cap
      · have hquiet : ¬(read ≤ cap ∧ cap < read + bytes.length) := by omega
        have hsame : read + bytes.length ≤ cap ∧ cap < read + bytes.length + reads.flatten.length ↔
            read ≤ cap ∧ cap < read + (bytes.length + reads.flatten.length) := by omega
        rw [if_neg hquiet, List.nil_append, if_congr hsame rfl rfl, List.append_assoc]
      · -- the cap is reached, and nothing is recorded after it
        rw [Nat.sub_eq_zero_of_le (by omega), List.take_zero, List.flatten_eq_nil_iff] at hlater
        have hnil : later = [] := List.eq_nil_iff_forall_not_mem.mpr fun piece hpiece =>
          hsolid' (hlater piece hpiece ▸ hpiece)
        have hquiet : ¬(read + bytes.length ≤ cap ∧
            cap < read + bytes.length + reads.flatten.length) := by omega
        have hsame : read ≤ cap ∧ cap < read + bytes.length ↔
            read ≤ cap ∧ cap < read + (bytes.length + reads.flatten.length) := by omega
        rw [if_neg hquiet, if_congr hsame rfl rfl, hnil]
        simp

end Verlet.Process
