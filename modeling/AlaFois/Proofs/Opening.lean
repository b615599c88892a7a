import AlaFois.Lib.Stepper
import AlaFois.Model.Listeners
import AlaFois.Proofs.SyncSpec

/-!
# What getDoc waits for

The promise of `init` resolves with the join response, while the sync that the response sets off
still waits for its own. What the document holds by then has come in before.
-/

namespace AlaFois.LiveContainer

open Stepper

variable {Doc A : Type*} {y : Yjs Doc} {aw : AwarenessProtocol A} {content : Bytes → Doc}
  {s t : LiveContainer Doc A} {a : ContainerAction}

/-- The update that the container takes in. -/
def taken (y : Yjs Doc) (s : LiveContainer Doc A) : ContainerAction → Option Bytes
  | .event (.message (.broadcastChanges docId changes)) =>
    if docId = s.container.id ∧ s.disposed = false then some (y.toUint8Array changes) else none
  | .event (.message (.syncResponse docId _ changes)) =>
    if docId = s.container.id ∧ s.container.syncing = true then some (y.toUint8Array changes)
    else none
  | .edit update => some update
  | _ => none

/-- All that the container takes in. -/
def received (y : Yjs Doc) (aw : AwarenessProtocol A) :
    LiveContainer Doc A → List ContainerAction → List Bytes
  | _, [] => []
  | s, a :: as =>
    match s.step y aw a with
    | none => []
    | some t => (s.taken y a).toList ++ received y aw t as

@[simp] lemma doc_sync (s : DocContainer Doc) : (s.sync y).1.doc = s.doc := by
  unfold DocContainer.sync
  split <;> rfl

@[simp] lemma doc_joined (s : LiveContainer Doc A) (status : Status) :
    (s.joined aw status).container = s.container := rfl

lemma doc_onJoinResponse (s : LiveContainer Doc A) (status : Status) :
    (s.onJoinResponse y aw status).container.doc = s.container.doc := by
  unfold onJoinResponse
  split <;> simp [sync, advance]

section

variable [SemilatticeSup Doc]

lemma doc_handleReceiveChanges (hy : y.Joins content) (s : DocContainer Doc) (changes : Changes) :
    (s.handleReceiveChanges y changes).1.doc = s.doc ⊔ y.value content changes := by
  unfold DocContainer.handleReceiveChanges
  dsimp only
  split <;> simp [hy.applyUpdate_eq, Yjs.value]

lemma doc_syncResponse (hy : y.Joins content) (s : DocContainer Doc) (vector : StateVector)
    (changes : Changes) (hsync : s.syncing = true) :
    (s.syncResponse y vector changes).1.doc = s.doc ⊔ y.value content changes := by
  unfold DocContainer.syncResponse
  rw [if_pos hsync]
  dsimp only
  split
  · simp [hy.applyUpdate_eq, DocContainer.syncFailed, Yjs.value]
  · split <;> simp [hy.applyUpdate_eq, DocContainer.syncFailed, Yjs.value]

/-- The document grows by what the container takes in. -/
lemma doc_step (hy : y.Joins content) (h : s.step y aw a = some t) :
    t.container.doc =
      (s.taken y a).toList.foldl (fun doc update => doc ⊔ content update) s.container.doc := by
  cases a with
  | event e =>
    cases h
    cases e with
    | connected => rfl
    | message m =>
      cases m with
      | joinResponse docId status => exact doc_onJoinResponse s status
      | requestSync syncNeeded => exact doc_sync s.container
      | updateToken token docs => exact doc_sync s.container
      | broadcastChanges docId changes =>
        simp only [emit, handleReceiveChanges, taken]
        by_cases hlive : s.disposed = true
        · simp [hlive]
        · by_cases hid : docId = s.container.id
          · simp [hlive, hid, advance, doc_handleReceiveChanges hy, Yjs.value]
          · simp [hlive, hid]
      | syncResponse docId vector changes =>
        simp only [emit, onSyncResponse, taken]
        by_cases hid : docId = s.container.id
        · by_cases hsync : s.container.syncing = true
          · simp [hid, hsync, advance, doc_syncResponse hy _ _ _ hsync, Yjs.value]
          · simp [hid, hsync, advance, DocContainer.syncResponse]
        · simp [hid]
      | broadcastAwareness docId awareness =>
        simp only [emit, handleReceiveAwareness, taken]
        split
        · rfl
        · split <;> rfl
      | _ => rfl
  | edit update =>
    obtain ⟨-, h⟩ := Option.ite_none_right_eq_some.mp h
    split at h
    · cases h
      simp [DocContainer.edit, hy.applyUpdate_eq, taken]
    · cases h
      simp [DocContainer.edit, hy.applyUpdate_eq, taken, advance]
  | initTimeout =>
    obtain ⟨-, h⟩ := Option.ite_none_right_eq_some.mp h
    cases h
    rfl
  | joinTimeout =>
    obtain ⟨-, h⟩ := Option.ite_none_right_eq_some.mp h
    cases h
    rfl
  | syncTimeout =>
    obtain ⟨-, h⟩ := Option.ite_none_right_eq_some.mp h
    cases h
    rfl
  | dispose =>
    obtain ⟨-, h⟩ := Option.ite_none_right_eq_some.mp h
    cases h
    rfl

lemma doc_run (hy : y.Joins content) {as : List ContainerAction}
    (h : run (step y aw) s as = some t) :
    t.container.doc =
      (received y aw s as).foldl (fun doc update => doc ⊔ content update) s.container.doc := by
  induction as generalizing s with
  | nil =>
    cases h
    rfl
  | cons a as ih =>
    obtain ⟨u, hu, hrun⟩ := run_cons_eq_some.mp h
    rw [ih hrun, doc_step hy hu]
    simp [received, hu]

end

lemma init_advance (s : LiveContainer Doc A) (r : DocContainer Doc × List ClientMessage) :
    (s.advance r).init = s.init := rfl

/-- With the join response of any document, the promise of `init` resolves; the document is the
one that was there. -/
lemma onJoinResponse_spec (s : LiveContainer Doc A) (hpending : s.init = .pending)
    (docId : DocKey) (h : s.step y aw (.event (.message (.joinResponse docId .ok))) = some t) :
    t.init = .resolved ∧ t.container.doc = s.container.doc := by
  cases h
  refine ⟨?_, doc_onJoinResponse s .ok⟩
  simp [emit, onJoinResponse, joined, sync, init_advance, hpending, CallState.settle,
    CallState.ofStatus]

variable [SemilatticeSup Doc]

/-- When `getDoc` resolves, its document contains that of the actor if and only if what came in
before the join response does. -/
theorem getDoc_synchronized_iff (hy : y.Joins content) {id : DocKey} {as : List ContainerAction}
    (hrun : run (step y aw) (opening y aw id) as = some s) (hpending : s.init = .pending)
    {docId : DocKey} (h : s.step y aw (.event (.message (.joinResponse docId .ok))) = some t)
    (actor : DocHandler Doc) :
    t.init = .resolved ∧ (actor.ydoc ≤ t.container.doc ↔ actor.ydoc ≤
      (received y aw (opening y aw id) as).foldl (fun doc update => doc ⊔ content update)
        y.newDoc) := by
  obtain ⟨hresolved, hdoc⟩ := onJoinResponse_spec s hpending docId h
  refine ⟨hresolved, ?_⟩
  rw [hdoc, doc_run hy hrun]
  rfl

/-- The awareness protocol with no other client, for concrete runs. -/
def alone : AwarenessProtocol Bool where
  new := true
  clientID _ := 0
  hasLocalState present := present
  states present := if present then [0] else []
  encodeAwarenessUpdate present _ := if present then "AQAAAnt9" else "AQABBG51bGw="
  applyAwarenessUpdate present _ := present
  destroy _ := false

/-- The document is still joined from before, so that its edit is broadcast while the new container
waits for its join. -/
theorem getDoc_synchronized_of_broadcast : ∃ s t, ∃ actor : DocHandler Bool,
    run (step Yjs.oneEdit alone) (opening Yjs.oneEdit alone "doc")
      [.event (.message (.broadcastChanges "doc" "AQE="))] = some s ∧ s.init = .pending ∧
    s.step Yjs.oneEdit alone (.event (.message (.joinResponse "doc" .ok))) = some t ∧
    actor.ydoc = true ∧ t.init = .resolved ∧ actor.ydoc ≤ t.container.doc := by
  obtain ⟨s, hrun⟩ : ∃ s, run (step Yjs.oneEdit alone) (opening Yjs.oneEdit alone "doc")
      [.event (.message (.broadcastChanges "doc" "AQE="))] = some s := ⟨_, rfl⟩
  have hpending : s.init = .pending := by
    cases hrun
    rfl
  obtain ⟨t, ht⟩ : ∃ t, s.step Yjs.oneEdit alone (.event (.message (.joinResponse "doc" .ok))) =
      some t := ⟨_, rfl⟩
  have hiff := getDoc_synchronized_iff joins_oneEdit hrun hpending ht
    (⟨"doc", true, .empty, [], none⟩ : DocHandler Bool)
  exact ⟨s, t, _, hrun, hpending, ht, rfl, hiff.1, hiff.2.mpr (by decide)⟩

/-- The document of the actor holds an edit, and `getDoc` resolves with a new one; only the sync
that has begun by then brings the edit. -/
theorem getDoc_before_sync : ∃ actor s t,
    DocHandler.onActivate Yjs.oneEdit "doc" (some [1, 1]) = some actor ∧ actor.ydoc = true ∧
    run (step Yjs.oneEdit alone) (opening Yjs.oneEdit alone "doc")
      [.event (.message (.joinResponse "doc" .ok))] = some s ∧
    s.init = .resolved ∧ ¬actor.ydoc ≤ s.container.doc ∧
    actor.syncStart Yjs.oneEdit "AA==" = .syncStart "AQEB" "AQE=" ∧
    s.step Yjs.oneEdit alone (.event (.message (.syncResponse "doc" "AQEB" "AQE="))) = some t ∧
    actor.ydoc ≤ t.container.doc :=
  ⟨_, _, _, rfl, rfl, rfl, rfl, by decide, rfl, rfl, by decide⟩

end AlaFois.LiveContainer
