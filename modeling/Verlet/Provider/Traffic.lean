import Mathlib.Data.List.Lemmas
import Mathlib.Data.List.Pairwise
import Verlet.Provider.Context

/-!
# Provider — The traffic of tool calls

Of a list of messages, the calls that are issued in it and the calls that are answered, in order; and
what a provider asks of them.

* `traffic_recent`, `traffic_compile`: a context policy only takes from it.
-/

namespace Verlet.Provider
open History

/-- A call issued, or answered. -/
inductive Mark where
  | call (id : String)
  | result (id : String)
deriving DecidableEq

def Mark.id : Mark → String
  | .call id   => id
  | .result id => id

/-- The calls a message issues, and the one it answers. -/
def marks (message : CanonicalMessage) : List Mark :=
  (callIds message).map .call ++ (answeredId message).toList.map .result

variable (messages : List CanonicalMessage)

/-- The calls issued and answered, in order. -/
def traffic : List Mark := messages.flatMap marks

/-- What the traffic says of one call. -/
def about (id : String) (t : List Mark) : List Mark := t.filter fun mark => mark.id = id

/-- No call is issued after it was answered. -/
def Ordered (t : List Mark) : Prop := t.Pairwise fun a b => ∀ id, a = .result id → b ≠ .call id

/-- **Pair-complete**: of every call id the messages say nothing, or that it was issued, once, and
then answered, once. -/
def PairComplete : Prop :=
  ∀ id, about id (traffic messages) = [] ∨ about id (traffic messages) = [.call id, .result id]

/-! ### Traffic -/

@[simp] theorem traffic_nil : traffic [] = [] := rfl

@[simp] theorem traffic_cons (message : CanonicalMessage) (messages : List CanonicalMessage) :
    traffic (message :: messages) = marks message ++ traffic messages := List.flatMap_cons

@[simp] theorem traffic_append (messages later : List CanonicalMessage) :
    traffic (messages ++ later) = traffic messages ++ traffic later := List.flatMap_append

theorem traffic_sublist {messages kept : List CanonicalMessage} (h : kept.Sublist messages) :
    (traffic kept).Sublist (traffic messages) := by
  induction h with
  | slnil => exact List.Sublist.refl []
  | cons message _ ih => exact ih.trans (List.sublist_append_right _ _)
  | cons_cons message _ ih => exact List.Sublist.append (List.Sublist.refl _) ih

@[simp] theorem marks_user (content : List CanonicalContent) (timestampMs : Int) :
    marks (.user content timestampMs) = [] := rfl

/-! ### Byte budgets -/

@[simp] theorem calledId_truncateBlock (block : CanonicalContent) (remaining : Nat) :
    calledId (truncateBlock block remaining).2 = calledId block := by
  cases block <;> rfl

theorem calledId_of_not_solid {block : CanonicalContent} (h : isSolid block = false) :
    calledId block = none := by
  cases block with
  | text text cacheControl => rfl
  | image data mimeType => rfl
  | thinking text provider metadata => rfl
  | toolCall id name arguments => cases h

theorem filterMap_calledId_solid (blocks : List CanonicalContent) :
    (blocks.filter isSolid).filterMap calledId = blocks.filterMap calledId := by
  induction blocks with
  | nil => rfl
  | cons block blocks ih =>
    by_cases hsolid : isSolid block
    · rw [List.filter_cons_of_pos hsolid, List.filterMap_cons, List.filterMap_cons, ih]
    · rw [List.filter_cons_of_neg hsolid, List.filterMap_cons, ih,
        calledId_of_not_solid (Bool.not_eq_true _ ▸ hsolid)]

theorem filterMap_mapAccumr (blocks : List CanonicalContent) (remaining : Nat) :
    (List.mapAccumr truncateBlock blocks remaining).2.filterMap calledId =
      blocks.filterMap calledId := by
  induction blocks with
  | nil => rfl
  | cons block blocks ih =>
    simp only [List.mapAccumr, List.filterMap_cons, calledId_truncateBlock, ih]

theorem marks_truncateMessage (message : CanonicalMessage) (remaining : Nat) :
    marks (truncateMessage message remaining).2 = marks message := by
  cases message with
  | user content timestampMs => rfl
  | toolResult toolCallId toolName content isError cacheControl timestampMs => rfl
  | assistant content api provider model usage stopReason errorMessage timestampMs =>
    have hcalls : ((List.mapAccumr truncateBlock content remaining).2.filter isSolid).filterMap
        calledId = content.filterMap calledId := by
      rw [filterMap_calledId_solid, filterMap_mapAccumr]
    simp only [truncateMessage, truncateContentToRecentTextBytes, contentOf, withContent, marks,
      callIds, answeredId, hcalls]

/-- **Byte budgets** leave the traffic as it is. -/
theorem traffic_truncate (maxBytes : Nat) :
    traffic (truncateMessagesToRecentTextBytes messages maxBytes) = traffic messages := by
  unfold truncateMessagesToRecentTextBytes
  induction messages with
  | nil => rfl
  | cons message messages ih =>
    simp only [List.mapAccumr, traffic_cons, marks_truncateMessage, ih]

/-! ### The policy of a provider -/

theorem recent_sublist (maxMessages : Nat) :
    (recentMessagesPreservingToolResultIssuers messages maxMessages).Sublist messages := by
  unfold recentMessagesPreservingToolResultIssuers
  split
  · exact List.Sublist.refl messages
  · have h := (List.filter_sublist (l := messages.zipIdx) (p := fun indexed =>
    decide (messages.length - maxMessages ≤ indexed.2) || decide (indexed.2 ∈
      (messages.drop (messages.length - maxMessages)).filterMap fun message =>
        (answeredId message).bind (lastIssuer messages)))).map Prod.fst
    rwa [List.zipIdx_map_fst] at h

/-- **A context policy** only takes from the traffic. -/
theorem traffic_compile (policy : ProviderContextPolicy) :
    (traffic (compileProviderContext messages policy).messages).Sublist (traffic messages) := by
  have htruncated : (traffic (compileProviderContext messages policy).messages).Sublist
      (traffic (compileProviderContext messages { policy with maxTextBytes := none }).messages) := by
    unfold compileProviderContext
    cases policy.maxTextBytes with
    | none => exact List.Sublist.refl _
    | some maxTextBytes => simp only [traffic_truncate, List.Sublist.refl]
  refine htruncated.trans ?_
  unfold compileProviderContext
  cases policy.maxMessages with
  | none => exact List.Sublist.refl _
  | some maxMessages => exact traffic_sublist (recent_sublist messages maxMessages)

/-! ### Order -/

theorem Ordered.sublist {t t' : List Mark} (h : Ordered t) (hsub : t'.Sublist t) : Ordered t' :=
  List.Pairwise.sublist hsub h

/-- **A call that is issued once** in an ordered traffic: what is said of it is that it is issued,
and the answers after that. -/
theorem Ordered.about_eq {t : List Mark} (h : Ordered t) {id : String}
    (hone : t.count (.call id) = 1) :
    ∃ answers, about id t = .call id :: List.replicate answers (.result id) := by
  have hordered : Ordered (about id t) := h.sublist List.filter_sublist
  have hcount : (about id t).count (.call id) = 1 := by
    rw [about, List.count_filter (by simp [Mark.id]), hone]
  have hid : ∀ mark ∈ about id t, mark.id = id := fun mark hmark => by
    simpa using (List.mem_filter.mp hmark).2
  generalize about id t = said at hordered hcount hid
  cases said with
  | nil => simp at hcount
  | cons first rest =>
    obtain ⟨hfirst, -⟩ := List.pairwise_cons.mp hordered
    obtain ⟨hname, hnames⟩ := List.forall_mem_cons.mp hid
    cases first with
    | result i =>
      obtain rfl : i = id := hname
      have hnone : rest.count (.call i) = 0 :=
        List.count_eq_zero.mpr fun hmem => hfirst _ hmem i rfl rfl
      rw [List.count_cons_of_ne (by simp), hnone] at hcount
      cases hcount
    | call i =>
      obtain rfl : i = id := hname
      rw [List.count_cons_self, Nat.add_eq_right] at hcount
      refine ⟨rest.length, congrArg _ (List.eq_replicate_iff.mpr ⟨rfl, fun mark hmark => ?_⟩)⟩
      have hmarked : mark.id = i := hnames mark hmark
      cases mark with
      | call j => exact absurd (hmarked ▸ hmark) (List.count_eq_zero.mp hcount)
      | result j => exact congrArg Mark.result hmarked

end Verlet.Provider
