import AlaFois.Model.Platform
import AlaFois.Proofs.Durability
import AlaFois.Proofs.SyncSpec

/-!
# What the history keeps

Every completed call should leave its update in the history, unless it is a sync that brings
nothing. `saveDiff` records each update of `applyDiff`; of `syncComplete` it records those that
leave the state vector as it was, which an update with new structs never does, and an empty one
always.
-/

namespace AlaFois.DocStore

open Stepper

variable {Doc : Type*} {y : Yjs Doc} {content : Bytes → Doc}

/-- Between the calls, merging the records of the document gives what the completed calls have
brought. -/
def Exact (y : Yjs Doc) (s : DocStore Doc) : Prop :=
  s.handler.saving = none →
    replay y y.newDoc (s.updates.map UpdateRecord.state) = replay y y.newDoc s.completed

/-- However the call goes on, it creates no record. -/
def Unrecorded (y : Yjs Doc) (s : DocStore Doc) (call : ActorCall) : Prop :=
  ∀ cs, (∀ call', DocStoreAction.call call' ∉ cs) → ∀ t,
    run (step y) s (.call call :: cs) = some t → t.updates = s.updates

/-- The update adds nothing to the document. -/
def AddsNothing (y : Yjs Doc) (s : DocStore Doc) (changes : Changes) : Prop :=
  (y.applyUpdate s.handler.ydoc (y.toUint8Array changes)).doc = s.handler.ydoc

def SkipsEmpty (y : Yjs Doc) (s : DocStore Doc) : DocStoreAction → Prop
  | .call (.syncComplete changes userId) =>
    s.AddsNothing y changes → s.Unrecorded y (.syncComplete changes userId)
  | _ => True

/-- What a sync brings is new and does not show in the state vector. -/
def SyncOk (y : Yjs Doc) (s : DocStore Doc) : DocStoreAction → Prop
  | .call (.syncComplete changes _) =>
    let applied := y.applyUpdate s.handler.ydoc (y.toUint8Array changes)
    y.encodeStateVector applied.doc = y.encodeStateVector s.handler.ydoc ∧
      ¬s.AddsNothing y changes
  | _ => True

instance [DecidableEq Doc] (y : Yjs Doc) (s : DocStore Doc) (changes : Changes) :
    Decidable (s.AddsNothing y changes) :=
  inferInstanceAs (Decidable (_ = _))

instance [DecidableEq Doc] (y : Yjs Doc) (s : DocStore Doc) (a : DocStoreAction) :
    Decidable (s.SyncOk y a) := by
  unfold SyncOk
  split <;> infer_instance

/-- The records, with the one that is being created, make up the document. -/
structure Listed (y : Yjs Doc) (s : DocStore Doc) : Prop where
  listed : (∀ w, s.handler.saving = some w → w.created = true) →
    replay y y.newDoc (s.updates.map UpdateRecord.state) = s.handler.ydoc
  creating : ∀ w, s.handler.saving = some w → w.created = false →
    replay y y.newDoc (s.updates.map UpdateRecord.state ++ [w.update.state]) = s.handler.ydoc

lemma Listed.of_idle {s : DocStore Doc} (hidle : s.handler.saving = none)
    (h : replay y y.newDoc (s.updates.map UpdateRecord.state) = s.handler.ydoc) :
    s.Listed y where
  listed _ := h
  creating w hw := by rw [hidle] at hw; cases hw

lemma Listed.idle {s : DocStore Doc} (h : s.Listed y) (hidle : s.handler.saving = none) :
    replay y y.newDoc (s.updates.map UpdateRecord.state) = s.handler.ydoc :=
  h.listed fun w hw => by rw [hidle] at hw; cases hw

/-- What holds of a document whose history has been exact so far. -/
structure Kept (y : Yjs Doc) (s : DocStore Doc) : Prop where
  recorded : s.Recorded y
  stored : s.Stored y
  accounted : s.Accounted y y.newDoc
  listed : s.Listed y

lemma Kept.exact {s : DocStore Doc} (h : s.Kept y) : s.Exact y :=
  fun hidle => (h.listed.idle hidle).trans (h.accounted.idle hidle)

/-- The calls that check for an empty update. -/
lemma eq_syncComplete {call : ActorCall} {changes : Changes} (hcall : call.changes = some changes)
    (hcheck : call.checkEmpty = true) : ∃ userId, call = .syncComplete changes userId := by
  cases call with
  | applyDiff changes' userId => cases hcheck
  | syncStart vector => cases hcall
  | syncComplete changes' userId =>
    cases hcall
    exact ⟨userId, rfl⟩

variable [SemilatticeSup Doc]

lemma callOk_of_syncOk (hy : y.Joins content) {s : DocStore Doc} {a : DocStoreAction}
    (h : s.SyncOk y a) : s.CallOk y a := by
  cases a with
  | call call =>
    cases call with
    | applyDiff changes userId =>
      simp [CallOk, ActorCall.changes, ActorCall.checkEmpty, hy.applyUpdate_eq]
    | syncStart vector => trivial
    | syncComplete changes userId =>
      have hsame := h.1
      simpa [CallOk, ActorCall.changes, hy.applyUpdate_eq] using fun _ => hsame
  | _ => trivial

lemma listed_step (hy : y.Joins content) (hfull : y.Rebuilds) {s s' : DocStore Doc}
    {a : DocStoreAction} (hstored : s.Stored y) (hs : s.Listed y) (hok : s.SyncOk y a)
    (h : s.step y a = some s') : s'.Listed y := by
  cases step_cases hfull h with
  | asked vector => exact hs
  | threw call changes doc hcall happly hidle =>
    rw [hy.applyUpdate_eq] at happly
    cases happly
  | returned call changes doc handler hcall hcheck happly hvec hidle hdoc hsaving =>
    obtain ⟨userId, rfl⟩ := eq_syncComplete hcall hcheck
    refine absurd ?_ hvec
    simpa [SyncOk, happly] using hok.1
  | saving call changes doc w hcall hvec happly hstate hupdate hupdated hcreated hidle =>
    refine ⟨fun hdone => ?_, fun w' hw' _ => ?_⟩
    · rw [hdone w rfl] at hcreated
      cases hcreated
    · cases hw'
      rw [replay_append, hs.idle hidle, hupdate, happly]
  | updated w hw =>
    refine ⟨fun hdone => ?_, fun w' hw' hnew => ?_⟩
    · exact hs.listed fun w' hw' => by
        cases hw.symm.trans hw'
        exact hdone { w with updated := true } rfl
    · cases hw'
      exact hs.creating w hw hnew
  | created w hw hnew =>
    refine ⟨fun _ => ?_, fun w' hw' hnew' => ?_⟩
    · simpa using hs.creating w hw hnew
    · cases hw'
      cases hnew'
  | resumed w handler hw hupdated hcreated hdoc hsaving =>
    refine .of_idle hsaving ?_
    rw [hdoc]
    exact hs.listed fun w' hw' => by cases hw.symm.trans hw'; exact hcreated
  | expired userId handler hdoc hsaving =>
    exact ⟨fun hdone => hdoc ▸ hs.listed (hsaving ▸ hdone),
      fun w hw hnew => hdoc ▸ hs.creating w (hsaving ▸ hw) hnew⟩
  | reactivated handler hidle hact =>
    obtain ⟨state, hstate, hdecode⟩ := hstored hidle
    rw [hstate] at hact
    have hnew := onActivate_spec hact
    refine .of_idle hnew.1 ?_
    have hsame : handler.ydoc = s.handler.ydoc :=
      congrArg Applied.doc (hnew.2.symm.trans hdecode)
    rw [hsame]
    exact hs.idle hidle

lemma kept_step (hy : y.Joins content) (hfull : y.Rebuilds) {s s' : DocStore Doc}
    {a : DocStoreAction} (hs : s.Kept y) (hok : s.SyncOk y a) (h : s.step y a = some s') :
    s'.Kept y where
  recorded := recorded_step hfull hs.recorded h
  stored := (stored_step_iff hfull hs.recorded hs.stored h).mpr (callOk_of_syncOk hy hok)
  accounted := accounted_step hfull hs.stored hs.accounted (callOk_of_syncOk hy hok) h
  listed := listed_step hy hfull hs.stored hs.listed hok h

/-- A sync that changes the state vector is missing in the history. -/
lemma not_exact_of_vector (hy : y.Joins content) (hfull : y.Rebuilds) {s s' : DocStore Doc}
    {changes : Changes} {userId : UserId} (hs : s.Kept y)
    (h : s.step y (.call (.syncComplete changes userId)) = some s')
    (hvec : y.encodeStateVector (y.applyUpdate s.handler.ydoc (y.toUint8Array changes)).doc ≠
      y.encodeStateVector s.handler.ydoc) : ¬s'.Exact y := by
  cases step_cases hfull h with
  | threw call changes' doc hcall happly hidle =>
    rw [hy.applyUpdate_eq] at happly
    cases happly
  | returned call changes' doc handler hcall hcheck happly hvec' hidle hdoc hsaving =>
    cases hcall
    intro hexact
    have hrecords := hs.listed.idle hidle
    have hcompleted : replay y y.newDoc (s.completed ++ [y.toUint8Array changes]) = doc := by
      rw [replay_append, ← hs.accounted.idle hidle, happly]
    have hsame : s.handler.ydoc = doc := hrecords.symm.trans ((hexact hsaving).trans hcompleted)
    exact hvec' (by rw [hsame])
  | saving call changes' doc w hcall hvec' happly hstate hupdate hupdated hcreated hidle =>
    cases hcall
    rw [happly] at hvec
    exact absurd (hvec' rfl) hvec

/-- A sync that adds nothing is recorded. -/
lemma not_unrecorded (hy : y.Joins content) (hfull : y.Rebuilds) {s s' : DocStore Doc}
    {changes : Changes} {userId : UserId}
    (h : s.step y (.call (.syncComplete changes userId)) = some s')
    (hempty : s.AddsNothing y changes) : ¬s.Unrecorded y (.syncComplete changes userId) := by
  intro hnone
  have hstep := h
  cases step_cases hfull h with
  | threw call changes' doc hcall happly hidle =>
    rw [hy.applyUpdate_eq] at happly
    cases happly
  | returned call changes' doc handler hcall hcheck happly hvec hidle hdoc hsaving =>
    cases hcall
    rw [AddsNothing, happly] at hempty
    exact hvec (by rw [← hempty])
  | saving call changes' doc w hcall hvec happly hstate hupdate hupdated hcreated hidle =>
    let created : DocStore Doc := { s with
      handler := { s.handler with ydoc := doc, saving := some { w with created := true } }
      updates := s.updates ++ [w.update] }
    have hcreate : run (step y) s [.call (.syncComplete changes userId), .create] =
        some created := by
      rw [run, hstep]
      simp [run, step, hcreated, created]
    have hsame : s.updates ++ [w.update] = s.updates := hnone [.create] (by simp) created hcreate
    simp at hsame

/-- A call is good if the history is exact when it has completed, and if it creates no record of
a sync that adds nothing. -/
lemma exact_step_iff (hy : y.Joins content) (hfull : y.Rebuilds) {s s' : DocStore Doc}
    {a : DocStoreAction} (hs : s.Kept y) (h : s.step y a = some s') :
    (s.SkipsEmpty y a ∧ s'.Exact y) ↔ s.SyncOk y a := by
  constructor
  · rintro ⟨hskips, hexact⟩
    cases a with
    | call call =>
      cases call with
      | syncComplete changes userId =>
        refine ⟨by_contra fun hvec => ?_, fun hempty => ?_⟩
        · exact not_exact_of_vector hy hfull hs h hvec hexact
        · exact not_unrecorded hy hfull h hempty (hskips hempty)
      | _ => trivial
    | _ => trivial
  · intro hok
    refine ⟨?_, (kept_step hy hfull hs hok h).exact⟩
    cases a with
    | call call =>
      cases call with
      | syncComplete changes userId => exact fun hempty => absurd hempty hok.2
      | _ => trivial
    | _ => trivial

lemma kept_activate (hy : y.Joins content)
    (hempty : content DocRecord.defaultState ≤ y.newDoc) {id : DocKey} {s₀ : DocStore Doc}
    (hact : activate y id (some DocRecord.defaultState) = some s₀) : s₀.Kept y := by
  obtain ⟨hrecorded, hstored, -⟩ := activate_spec hact
  simp only [activate, Option.map_eq_some_iff] at hact
  obtain ⟨handler, hact, rfl⟩ := hact
  obtain ⟨hidle, hdoc⟩ := onActivate_spec hact
  have hnew : handler.ydoc = y.newDoc := by
    rw [hy.applyUpdate_eq] at hdoc
    exact (congrArg Applied.doc hdoc).symm.trans (sup_eq_left.mpr hempty)
  exact ⟨hrecorded, hstored, .of_idle hidle (by simp [replay, hnew]),
    .of_idle hidle (by simp [replay, hnew])⟩

/-- In a run of calls on a new document the history stays exact, and no sync that adds nothing is
recorded, exactly when every sync brings something new that does not show in the state vector. -/
theorem history_exact_iff (hy : y.Joins content) (hfull : y.Rebuilds)
    (hempty : content DocRecord.defaultState ≤ y.newDoc) {id : DocKey} {s₀ : DocStore Doc}
    (hact : activate y id (some DocRecord.defaultState) = some s₀) (as : List DocStoreAction) :
    (∀ bs a, bs ++ [a] <+: as → ∀ s s', run (step y) s₀ bs = some s → s.step y a = some s' →
      s.SkipsEmpty y a ∧ s'.Exact y) ↔ Guarded (step y) (SyncOk y) s₀ as :=
  steps_iff_guarded (Kept y) (fun s a s' => s.SkipsEmpty y a ∧ s'.Exact y)
    (fun _ _ _ hs hok h => kept_step hy hfull hs hok h)
    (fun _ _ _ hs h => exact_step_iff hy hfull hs h) as (kept_activate hy hempty hact)

/-- Yjs on the documents in which at most one deletion has been made, which the state vector does
not show. -/
def oneDeletion : Yjs Bool := { Yjs.oneEdit with encodeStateVector := fun _ => [0] }

lemma joins_oneDeletion : oneDeletion.Joins fun update => update == [1, 1] where
  applyUpdate_eq doc update := rfl
  encode D E := by
    cases D <;> cases E <;> exact ⟨_, rfl, by unfold DeltaSync.IsDelta; decide⟩
  base64 := joins_oneEdit.base64

lemma rebuilds_oneDeletion : oneDeletion.Rebuilds := rebuilds_oneEdit

/-- The first sync brings a deletion, and the edit after it nothing new. -/
theorem history_exact_of_deletion :
    ∃ s₀ s, activate oneDeletion "doc" (some DocRecord.defaultState) = some s₀ ∧
      run (step oneDeletion) s₀ [.call (.syncComplete "AQE=" "conn"), .create, .updateOne, .resume,
        .reactivate, .call (.applyDiff "AQE=" "conn"), .updateOne, .create, .resume] = some s ∧
      s.completed = [[1, 1], [1, 1]] ∧ s.Exact oneDeletion := by
  obtain ⟨s₀, hact⟩ : ∃ s₀, activate oneDeletion "doc" (some DocRecord.defaultState) = some s₀ :=
    ⟨_, rfl⟩
  obtain ⟨s, hrun⟩ : ∃ s, run (step oneDeletion) s₀ [.call (.syncComplete "AQE=" "conn"), .create,
      .updateOne, .resume, .reactivate, .call (.applyDiff "AQE=" "conn"), .updateOne, .create] =
      some s := by
    cases hact
    exact ⟨_, rfl⟩
  obtain ⟨s', hs'⟩ : ∃ s', s.step oneDeletion .resume = some s' := by
    cases hact
    cases hrun
    exact ⟨_, rfl⟩
  have hok : Guarded (step oneDeletion) (SyncOk oneDeletion) s₀
      [.call (.syncComplete "AQE=" "conn"), .create, .updateOne, .resume, .reactivate,
        .call (.applyDiff "AQE=" "conn"), .updateOne, .create, .resume] := by
    cases hact
    decide
  have hgood := (history_exact_iff joins_oneDeletion rebuilds_oneDeletion (by decide) hact _).mpr
    hok _ .resume List.prefix_rfl s s' hrun hs'
  refine ⟨s₀, s', hact, ?_, ?_, hgood.2⟩
  · cases hact
    cases hrun
    exact hs'
  · cases hact
    cases hrun
    cases hs'
    rfl

/-- A sync that brings an edit leaves no record, and one that brings nothing leaves one. -/
theorem history_of_syncs :
    (∃ content, Yjs.oneEdit.Joins content) ∧ Yjs.oneEdit.Rebuilds ∧ ∃ s₀ s t,
      activate Yjs.oneEdit "doc" (some DocRecord.defaultState) = some s₀ ∧
      run (step Yjs.oneEdit) s₀ [.call (.syncComplete "AQE=" "conn")] = some s ∧
      s.completed = [[1, 1]] ∧ s.updates = [] ∧ ¬s.Exact Yjs.oneEdit ∧
      run (step Yjs.oneEdit) s [.call (.syncComplete "AAA=" "conn"), .create, .updateOne,
        .resume] = some t ∧
      s.AddsNothing Yjs.oneEdit "AAA=" ∧ t.updates = [⟨"doc", [0, 0], "conn"⟩] := by
  refine ⟨⟨_, joins_oneEdit⟩, rebuilds_oneEdit, _, _, _, rfl, rfl, rfl, rfl, fun hexact => ?_, rfl,
    rfl, rfl⟩
  have hsame := hexact rfl
  revert hsame
  decide

end AlaFois.DocStore
