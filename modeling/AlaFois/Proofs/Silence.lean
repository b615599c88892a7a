import AlaFois.Proofs.Opening

/-!
# Disposed containers

`dispose` takes away the two listeners for broadcasts. The others go on: they send a join when the
client has connected again, and start a sync on a join response, a request or a new token.
-/

namespace AlaFois.LiveContainer

open Stepper

variable {Doc A : Type*} {y : Yjs Doc} {aw : AwarenessProtocol A} {s : LiveContainer Doc A}
  {e : MessengerEvent}

/-- The events whose listeners `dispose` leaves and that make them send. -/
def wakes : MessengerEvent → Bool
  | .connected => true
  | .message (.joinResponse _ status) => status = .ok
  | .message (.requestSync _) => true
  | .message (.updateToken _ _) => true
  | _ => false

/-- A disposed container for which no join and no sync waits. -/
structure Dormant (s : LiveContainer Doc A) : Prop where
  disposed : s.disposed = true
  joins : s.joins = 0
  init : s.init ≠ .pending
  syncing : s.container.syncing = false

lemma sent_advance (s : LiveContainer Doc A) (r : DocContainer Doc × List ClientMessage) :
    s.sent <+: (s.advance r).sent := List.prefix_append _ _

/-- What has been sent has been sent. -/
lemma sent_emit (y : Yjs Doc) (aw : AwarenessProtocol A) (s : LiveContainer Doc A)
    (e : MessengerEvent) : s.sent <+: (s.emit y aw e).sent := by
  cases e with
  | connected => exact List.prefix_append _ _
  | message m =>
    cases m with
    | joinResponse docId status =>
      simp only [emit, onJoinResponse]
      split
      · exact (sent_advance s _).trans (List.prefix_append _ _)
      · exact List.prefix_append _ _
    | requestSync syncNeeded => exact sent_advance s _
    | updateToken token docs => exact sent_advance s _
    | syncResponse docId vector changes =>
      simp only [emit, onSyncResponse]
      split
      · exact sent_advance s _
      · exact List.prefix_rfl
    | broadcastChanges docId changes =>
      simp only [emit, handleReceiveChanges]
      split
      · exact List.prefix_rfl
      · split
        · exact sent_advance s _
        · exact List.prefix_rfl
    | broadcastAwareness docId awareness =>
      simp only [emit, handleReceiveAwareness]
      split
      · exact List.prefix_rfl
      · split <;> exact List.prefix_rfl
    | _ => exact List.prefix_rfl

lemma sent_foldl (y : Yjs Doc) (aw : AwarenessProtocol A) (s : LiveContainer Doc A)
    (es : List MessengerEvent) : s.sent <+: (es.foldl (emit y aw) s).sent := by
  induction es generalizing s with
  | nil => exact List.prefix_rfl
  | cons e es ih => exact (sent_emit y aw s e).trans (ih _)

namespace Dormant

/-- Any other event passes the container by. -/
lemma emit_eq (h : s.Dormant) (he : wakes e = false) : s.emit y aw e = s := by
  have hsame : s.advance (s.container, []) = s := by simp [advance]
  cases e with
  | connected => cases he
  | message m =>
    cases m with
    | joinResponse docId status =>
      cases status with
      | ok => cases he
      | err message =>
        have hjoins := h.joins
        simp [emit, onJoinResponse, joined, CallState.settle_of_ne_pending h.init, ← hjoins]
    | requestSync syncNeeded => cases he
    | updateToken token docs => cases he
    | syncResponse docId vector changes =>
      simp only [emit, onSyncResponse, DocContainer.syncResponse, h.syncing, Bool.false_eq_true,
        if_false, hsame, ite_self]
    | broadcastChanges docId changes => exact if_pos h.disposed
    | broadcastAwareness docId awareness => exact if_pos h.disposed
    | _ => rfl

/-- An event of one of the other kinds makes it send. -/
lemma lt_sent (y : Yjs Doc) (aw : AwarenessProtocol A) (h : s.Dormant) (he : wakes e = true) :
    s.sent.length < (s.emit y aw e).sent.length := by
  have hsync : s.sent.length < (s.sync y).sent.length := by
    simp [sync, advance, DocContainer.sync, h.syncing]
  cases e with
  | connected => simp [emit, handleConnected]
  | message m =>
    cases m with
    | joinResponse docId status =>
      obtain rfl : status = .ok := by simpa [wakes] using he
      have hjoined : (s.sync y).sent <+: ((s.sync y).joined aw .ok).sent := List.prefix_append _ _
      exact hsync.trans_le hjoined.length_le
    | requestSync syncNeeded => exact hsync
    | updateToken token docs => exact hsync
    | _ => cases he

end Dormant

/-- A disposed container for which no join and no sync waits is silent if and only if none of the
four kinds of events comes. -/
theorem disposed_silent_iff (s : LiveContainer Doc A) (hinit : s.init ≠ .pending)
    (hjoins : s.joins = 0) (hsync : s.container.syncing = false) (es : List MessengerEvent) :
    ((es.foldl (emit y aw) (s.dispose aw)).sent = (s.dispose aw).sent ∧
      (es.foldl (emit y aw) (s.dispose aw)).container.doc = (s.dispose aw).container.doc) ↔
      ∀ e ∈ es, wakes e = false := by
  have hdormant : (s.dispose aw).Dormant := ⟨rfl, hjoins, hinit, hsync⟩
  induction es with
  | nil => simp
  | cons e es ih =>
    rw [List.foldl_cons, List.forall_mem_cons]
    cases he : wakes e with
    | false =>
      rw [hdormant.emit_eq he]
      exact ih.trans (and_iff_right rfl).symm
    | true =>
      refine iff_of_false (fun hsilent => ?_) (by simp)
      have hwoken := hdormant.lt_sent y aw he
      have hbegin := (sent_foldl y aw ((s.dispose aw).emit y aw e) es).length_le
      rw [hsilent.1] at hbegin
      omega

/-- A container of a document with no change and no request to come. -/
theorem disposed_silent_of_broadcasts : ∃ s, run (step Yjs.oneEdit alone)
      (opening Yjs.oneEdit alone "doc") [.event (.message (.joinResponse "doc" .ok)),
        .event (.message (.syncResponse "doc" "AA==" "AAA="))] = some s ∧
    let t := s.dispose alone
    let u := [.message (.broadcastChanges "doc" "AQE="),
      .message (.syncResponse "doc" "AQEB" "AQE=")].foldl (emit Yjs.oneEdit alone) t
    u.sent = t.sent ∧ u.container.doc = t.container.doc := by
  refine ⟨_, rfl, ?_⟩
  exact (disposed_silent_iff _ (by decide) rfl rfl _).mpr (by decide)

/-- A request for a sync that another document has set off reaches the disposed container, which
takes in the response. -/
theorem disposed_container_syncs : ∃ s, run (step Yjs.oneEdit alone)
      (opening Yjs.oneEdit alone "doc") [.event (.message (.joinResponse "doc" .ok)),
        .event (.message (.syncResponse "doc" "AA==" "AAA="))] = some s ∧
    s.init = .resolved ∧ s.joins = 0 ∧ s.container.syncing = false ∧
    let t := s.dispose alone
    let u := [.message (.requestSync true),
      .message (.syncResponse "doc" "AQEB" "AQE=")].foldl (emit Yjs.oneEdit alone) t
    u.sent = t.sent ++ [.syncStart "doc" "AA==", .syncComplete "doc" "AAA="] ∧
      t.container.doc = false ∧ u.container.doc = true :=
  ⟨_, rfl, rfl, rfl, rfl, rfl, rfl, rfl⟩

end AlaFois.LiveContainer
