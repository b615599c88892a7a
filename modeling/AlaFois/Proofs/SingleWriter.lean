import AlaFois.Lib.Stepper
import AlaFois.Model.Platform
import AlaFois.Proofs.Convergence

/-!
# One writer for each stored document

An actor overwrites the whole state of its record with its own document, which loses nothing only
as long as no other live actor writes the same record. Dapr tells actors apart by the spelling of
the docId, and Mongo does not.
-/

namespace AlaFois

open Stepper

variable {I Doc : Type*}

/-- The document that a stored state stands for. -/
def Yjs.decode (y : Yjs Doc) (state : Bytes) : Doc := (y.applyUpdate y.newDoc state).doc

/-- The document of the stored state has the update already. -/
def Yjs.Contains (y : Yjs Doc) (state update : Bytes) : Prop :=
  (y.applyUpdate (y.decode state) update).doc = y.decode state

/-- What a waiting call is going to store is the document. -/
def DocHandler.Encoded (y : Yjs Doc) (s : DocHandler Doc) : Prop :=
  ∀ w, s.saving = some w → y.decode w.state = s.ydoc

namespace Platform

/-- Every update in a stored state is still in the state stored later. -/
def Keeps (y : Yjs Doc) (s t : Platform I Doc) : Prop :=
  ∀ id doc, s.docs id = some doc →
    ∃ doc', t.docs id = some doc' ∧ ∀ update, y.Contains doc.state update →
      y.Contains doc'.state update

/-- An actor is activated when no live one reads and writes the same record. -/
def ActivateOk (objectId : DocKey → Option ObjectId) (s : Platform I Doc) :
    PlatformAction I → Prop
  | .activate _ request => ∀ k a, s.actors k = some a → objectId request.docId ≠ some a.docId
  | _ => True

lemma Keeps.refl {y : Yjs Doc} (s : Platform I Doc) : Keeps y s s :=
  fun _ doc hdoc => ⟨doc, hdoc, fun _ h => h⟩

lemma Keeps.trans {y : Yjs Doc} {s t u : Platform I Doc} (h : Keeps y s t) (h' : Keeps y t u) :
    Keeps y s u := by
  intro id doc hdoc
  obtain ⟨doc', hdoc', hkeep⟩ := h id doc hdoc
  obtain ⟨doc'', hdoc'', hkeep'⟩ := h' id doc' hdoc'
  exact ⟨doc'', hdoc'', fun update hu => hkeep' update (hkeep update hu)⟩

lemma invoked_spec (s : Platform I Doc) (i : I) (request : ActorRequest) (actor : Actor I Doc)
    (reply : Option ActorReply) : ∃ actor' : Actor I Doc, actor'.handler = actor.handler ∧
      actor'.docId = actor.docId ∧ (s.invoked i request actor reply).docs = s.docs ∧
      (s.invoked i request actor reply).actors =
        Function.update s.actors request.docId (some actor') := by
  cases reply with
  | none => exact ⟨{ actor with serving := some (i, request) }, rfl, rfl, rfl, rfl⟩
  | some reply => exact ⟨actor, rfl, rfl, rfl, rfl⟩

end Platform

/-! ### One step -/

variable [SemilatticeSup Doc] {y : Yjs Doc} {content : Bytes → Doc}

lemma Yjs.Joins.contains_iff (hy : y.Joins content) (state update : Bytes) :
    y.Contains state update ↔ content update ≤ y.decode state := by
  rw [Yjs.Contains, hy.applyUpdate_eq]
  exact sup_eq_left

namespace DocHandler

/-- The document only grows, and what is to be stored is the document. -/
structure Moved (y : Yjs Doc) (s t : DocHandler Doc) : Prop where
  le : s.ydoc ≤ t.ydoc
  encoded : s.Encoded y → t.Encoded y

lemma Moved.of_saving {s t : DocHandler Doc} (hdoc : t.ydoc = s.ydoc)
    (hsaving : ∀ w, t.saving = some w → ∃ w', s.saving = some w' ∧ w'.state = w.state) :
    s.Moved y t where
  le := hdoc.ge
  encoded hs w hw := by
    obtain ⟨w', hw', hstate⟩ := hsaving w hw
    rw [← hstate, hs w' hw', hdoc]

/-- A call of `saveDiff` takes the update in and is going to store all of the document. -/
lemma moved_awaitSaveDiff (hy : y.Joins content) (hfull : y.Rebuilds) {s : DocHandler Doc}
    (hidle : s.saving = none) (awaiting : Awaiting) (changes : Changes) (userId : UserId)
    (checkEmpty : Bool) :
    s.Moved y (s.awaitSaveDiff y awaiting changes userId checkEmpty).1 where
  le := by
    rw [awaitSaveDiff_ydoc, hy.applyUpdate_eq]
    exact le_sup_left
  encoded _ w hw := by
    have hout := awaitSaveDiff_cases hfull s awaiting changes userId checkEmpty
    generalize s.awaitSaveDiff y awaiting changes userId checkEmpty = result at hout hw
    cases hout with
    | threw doc _ => simp [hidle] at hw
    | returned doc _ _ _ => simp [hidle] at hw
    | saving doc state _ _ hstate =>
      cases hw
      rw [Yjs.decode, hstate]

lemma moved_invoke (hy : y.Joins content) (hfull : y.Rebuilds) {s : DocHandler Doc}
    (hidle : s.saving = none) (call : ActorCall) : s.Moved y (s.invoke y call).1 := by
  cases call with
  | applyDiff changes userId => exact moved_awaitSaveDiff hy hfull hidle _ _ _ _
  | syncStart vector => exact ⟨le_rfl, fun h => h⟩
  | syncComplete changes userId => exact moved_awaitSaveDiff hy hfull hidle _ _ _ _

lemma moved_resume {s t : DocHandler Doc} {reply : ActorReply}
    (h : s.resume y = some (t, reply)) : s.Moved y t := by
  refine Moved.of_saving (resume_spec h).1 fun w hw => ?_
  unfold resume at h
  split at h
  · cases h
  · rename_i w' _
    split at h
    · have hsaved := saved_saving (y := y) { s with saving := none } w'.awaiting
      rw [Option.some.inj h] at hsaved
      rw [hsaved] at hw
      cases hw
    · cases h

lemma moved_syncAwaitExpired {s t : DocHandler Doc} {userId : UserId}
    (h : s.syncAwaitExpired userId = some t) : s.Moved y t := by
  unfold syncAwaitExpired at h
  split at h
  · cases h
    exact Moved.of_saving rfl fun w hw => ⟨w, hw, rfl⟩
  · cases h

/-- A new actor has the document that is stored, or an empty one. -/
lemma onActivate_joins (hy : y.Joins content) (id : DocKey) (state : Option Bytes) :
    ∃ handler, onActivate y id state = some handler ∧ handler.saving = none ∧
      ∀ b, state = some b → y.decode b = handler.ydoc := by
  cases state with
  | none => exact ⟨_, rfl, rfl, by simp⟩
  | some state =>
    refine ⟨⟨id, y.decode state, .empty, [], none⟩, ?_, rfl, ?_⟩
    · simp [onActivate, Yjs.decode, hy.applyUpdate_eq]
    · rintro b ⟨⟩
      rfl

end DocHandler

namespace Platform

variable {objectId : DocKey → Option ObjectId} {s t : Platform I Doc}

/-- What an action does to the live actors and to the stored documents. -/
inductive Stepped (y : Yjs Doc) (objectId : DocKey → Option ObjectId) (s t : Platform I Doc) :
    PlatformAction I → Prop
  | apart (a : PlatformAction I) (hok : s.ActivateOk objectId a) (actors : t.actors = s.actors)
      (docs : t.docs = s.docs) : Stepped y objectId s t a
  | created (id : ObjectId) (isPublic : Bool) (hnew : s.docs id = none)
      (actors : t.actors = s.actors)
      (docs : t.docs = Function.update s.docs id (some ⟨DocRecord.defaultState, isPublic⟩)) :
      Stepped y objectId s t (.createDoc id isPublic)
  | activated (i : I) (request : ActorRequest) (actor : Actor I Doc)
      (hid : objectId request.docId = some actor.docId) (hnew : s.actors request.docId = none)
      (hidle : actor.handler.saving = none)
      (hdoc : ∀ doc, s.docs actor.docId = some doc → y.decode doc.state = actor.handler.ydoc)
      (actors : t.actors = Function.update s.actors request.docId (some actor))
      (docs : t.docs = s.docs) : Stepped y objectId s t (.activate i request)
  | changed (a : PlatformAction I) (hok : s.ActivateOk objectId a) (k : DocKey)
      (actor actor' : Actor I Doc) (hactor : s.actors k = some actor)
      (hid : actor'.docId = actor.docId) (moved : actor.handler.Moved y actor'.handler)
      (actors : t.actors = Function.update s.actors k (some actor')) (docs : t.docs = s.docs) :
      Stepped y objectId s t a
  | written (k : DocKey) (actor actor' : Actor I Doc) (w : Saving)
      (hactor : s.actors k = some actor) (hw : actor.handler.saving = some w)
      (hid : actor'.docId = actor.docId) (moved : actor.handler.Moved y actor'.handler)
      (actors : t.actors = Function.update s.actors k (some actor'))
      (docs : t.docs = Function.update s.docs actor.docId
        ((s.docs actor.docId).map fun doc => { doc with state := w.state })) :
      Stepped y objectId s t (.updateOne k)
  | dropped (k : DocKey) (actors : t.actors = Function.update s.actors k none)
      (docs : t.docs = s.docs) : Stepped y objectId s t (.deactivate k)

variable [DecidableEq I]

lemma activate_cases (hy : y.Joins content) {i : I} {request : ActorRequest}
    (h : s.step y objectId (.activate i request) = some t) :
    Stepped y objectId s t (.activate i request) := by
  simp only [step, Option.isNone_iff_eq_none, Option.ite_none_right_eq_some] at h
  obtain ⟨⟨-, hnew⟩, h⟩ := h
  cases hid : objectId request.docId with
  | none =>
    simp only [activated, hid, Option.bind_none, Option.some.injEq] at h
    refine .apart _ (fun k a _ => by simp [hid]) ?_ ?_
    · rw [← h]
    · rw [← h]
  | some docId =>
    obtain ⟨handler, hact, hidle, hdecode⟩ :=
      DocHandler.onActivate_joins hy request.docId ((s.docs docId).map DocRecord.state)
    simp only [activated, hid, Option.bind_some, hact, Option.map_some, Option.some.injEq] at h
    refine .activated i request ⟨handler, docId, none⟩ hid hnew hidle (fun doc hdoc => ?_) ?_ ?_
    · exact hdecode _ (by rw [hdoc]; rfl)
    · rw [← h]
      rfl
    · rw [← h]
      rfl

lemma step_cases (hy : y.Joins content) (hfull : y.Rebuilds) {a : PlatformAction I}
    (h : s.step y objectId a = some t) : Stepped y objectId s t a := by
  cases a with
  | gateway i a =>
    simp only [step, Option.ite_none_right_eq_some, Option.map_eq_some_iff] at h
    obtain ⟨-, r, -, rfl⟩ := h
    exact .apart _ trivial rfl rfl
  | createDoc id isPublic =>
    simp only [step, Option.ite_none_right_eq_some, Option.some.injEq] at h
    obtain ⟨hnew, rfl⟩ := h
    exact .created id isPublic hnew rfl rfl
  | activate i request => exact activate_cases hy h
  | invoke i request =>
    simp only [step] at h
    cases hactor : s.actors request.docId with
    | none => simp [hactor] at h
    | some actor =>
      simp only [hactor, Option.ite_none_right_eq_some, Option.some.injEq] at h
      obtain ⟨⟨-, hidle⟩, rfl⟩ := h
      obtain ⟨actor', hhandler, hid, hdocs, hactors⟩ :=
        invoked_spec { s with requests := s.requests.erase (i, request) } i request
          { actor with handler := (actor.handler.invoke y request.call).1 }
          (actor.handler.invoke y request.call).2
      refine .changed _ trivial request.docId actor actor' hactor hid ?_ hactors hdocs
      rw [hhandler]
      exact DocHandler.moved_invoke hy hfull hidle request.call
  | updateOne k =>
    simp only [step] at h
    cases hactor : s.actors k with
    | none => simp [hactor] at h
    | some actor =>
      cases hw : actor.handler.saving with
      | none => simp [hactor, hw] at h
      | some w =>
        simp only [hactor, hw, Option.ite_none_left_eq_some, Option.some.injEq] at h
        obtain ⟨-, rfl⟩ := h
        refine .written k actor
          ⟨{ actor.handler with saving := some { w with updated := true } }, actor.docId,
            actor.serving⟩ w hactor hw rfl (.of_saving rfl ?_) rfl rfl
        rintro w' ⟨⟩
        exact ⟨w, hw, rfl⟩
  | create k =>
    simp only [step] at h
    cases hactor : s.actors k with
    | none => simp [hactor] at h
    | some actor =>
      cases hw : actor.handler.saving with
      | none => simp [hactor, hw] at h
      | some w =>
        simp only [hactor, hw, Option.ite_none_left_eq_some, Option.some.injEq] at h
        obtain ⟨-, rfl⟩ := h
        refine .changed _ trivial k actor
          ⟨{ actor.handler with saving := some { w with created := true } }, actor.docId,
            actor.serving⟩ hactor rfl (.of_saving rfl ?_) rfl rfl
        rintro w' ⟨⟩
        exact ⟨w, hw, rfl⟩
  | resume k =>
    simp only [step] at h
    cases hactor : s.actors k with
    | none => simp [hactor] at h
    | some actor =>
      cases hresume : actor.handler.resume y with
      | none => simp [hactor, hresume] at h
      | some r =>
        simp only [hactor, hresume, Option.some.injEq] at h
        subst h
        exact .changed _ trivial k actor ⟨r.1, actor.docId, none⟩ hactor rfl
          (DocHandler.moved_resume hresume) rfl rfl
  | syncAwaitExpired k userId =>
    simp only [step] at h
    cases hactor : s.actors k with
    | none => simp [hactor] at h
    | some actor =>
      simp only [hactor, Option.map_eq_some_iff] at h
      obtain ⟨handler, hexpired, rfl⟩ := h
      exact .changed _ trivial k actor ⟨handler, actor.docId, actor.serving⟩ hactor rfl
        (DocHandler.moved_syncAwaitExpired hexpired) rfl rfl
  | deactivate k =>
    simp only [step] at h
    cases hactor : s.actors k with
    | none => simp [hactor] at h
    | some actor =>
      simp only [hactor, Option.ite_none_right_eq_some, Option.some.injEq] at h
      obtain ⟨-, rfl⟩ := h
      exact .dropped k rfl rfl

end Platform

end AlaFois
