import AlaFois.Lib.Stepper
import AlaFois.Model.DocHandler

/-!
# What the actor stores

After every call the stored state has to decode to the document in memory. `saveDiff` gives
that for `applyDiff`; for `syncComplete` its early return is taken by the updates that bring
something, so that only those that leave the state vector alone are stored.
-/

namespace AlaFois

open Stepper

variable {Doc : Type*} {y : Yjs Doc}

lemma toInt8_inj {a b : UInt8} : a.toInt8 = b.toInt8 ↔ a = b := by
  constructor
  · intro h
    have hbits : a.toInt8.toUInt8 = b.toInt8.toUInt8 := by rw [h]
    simpa using hbits
  · rintro rfl
    rfl

theorem equalVectors_iff (a b : Bytes) : equalVectors a b = true ↔ a = b := by
  unfold equalVectors
  by_cases hlen : a.length = b.length
  · simp only [hlen, ne_eq, not_true_eq_false, ↓reduceIte, List.length_map, List.all_eq_true,
      List.mem_range, beq_iff_eq]
    constructor
    · intro h
      apply List.ext_getElem? fun i => ?_
      by_cases hi : i < b.length
      · have hget := h i hi
        simpa [hi, hlen ▸ hi, toInt8_inj] using hget
      · rw [List.getElem?_eq_none (by omega), List.getElem?_eq_none (by omega)]
    · rintro rfl i _
      rfl
  · simp only [hlen, ne_eq, not_false_eq_true, ↓reduceIte, Bool.false_eq_true, false_iff]
    rintro rfl
    exact hlen rfl

/-- Applying `encodeStateAsUpdate(doc)` to a fresh document rebuilds `doc`. -/
def Yjs.Rebuilds (y : Yjs Doc) : Prop :=
  ∀ doc, ∃ state, y.encodeStateAsUpdate doc none = some state ∧
    y.applyUpdate y.newDoc state = ⟨doc, false⟩

namespace DocHandler

@[simp] lemma saved_ydoc (s : DocHandler Doc) (awaiting : Awaiting) :
    (s.saved y awaiting).1.ydoc = s.ydoc := by
  unfold saved
  split
  · split <;> rfl
  · rfl

@[simp] lemma saved_saving (s : DocHandler Doc) (awaiting : Awaiting) :
    (s.saved y awaiting).1.saving = s.saving := by
  unfold saved
  split
  · split <;> rfl
  · rfl

@[simp] lemma saved_id (s : DocHandler Doc) (awaiting : Awaiting) :
    (s.saved y awaiting).1.id = s.id := by
  unfold saved
  split
  · split <;> rfl
  · rfl

lemma saved_ne_threw (s : DocHandler Doc) (awaiting : Awaiting) :
    (s.saved y awaiting).2 ≠ .threw := by
  unfold saved
  split
  · split <;> simp
  · simp

/-- The ways in which a method gets past `await this.saveDiff(...)`. -/
inductive SaveOutcome (y : Yjs Doc) (s : DocHandler Doc) (awaiting : Awaiting)
    (changes : Changes) (userId : UserId) (checkEmpty : Bool) :
    DocHandler Doc × Option ActorReply → Prop
  | threw (doc : Doc) (happly : y.applyUpdate s.ydoc (y.toUint8Array changes) = ⟨doc, true⟩) :
    SaveOutcome y s awaiting changes userId checkEmpty ({ s with ydoc := doc }, some .threw)
  | returned (doc : Doc) (happly : y.applyUpdate s.ydoc (y.toUint8Array changes) = ⟨doc, false⟩)
    (hcheck : checkEmpty = true) (hvec : y.encodeStateVector doc ≠ y.encodeStateVector s.ydoc) :
    SaveOutcome y s awaiting changes userId checkEmpty
      (({ s with ydoc := doc }.saved y awaiting).1,
        some ({ s with ydoc := doc }.saved y awaiting).2)
  | saving (doc : Doc) (state : Bytes)
    (happly : y.applyUpdate s.ydoc (y.toUint8Array changes) = ⟨doc, false⟩)
    (hvec : checkEmpty = true → y.encodeStateVector doc = y.encodeStateVector s.ydoc)
    (hstate : y.applyUpdate y.newDoc state = ⟨doc, false⟩) :
    SaveOutcome y s awaiting changes userId checkEmpty
      ({ s with
        ydoc := doc
        saving := some ⟨awaiting, state, ⟨s.id, y.toUint8Array changes, userId⟩, false, false⟩ },
        none)

lemma awaitSaveDiff_cases (hy : y.Rebuilds) (s : DocHandler Doc) (awaiting : Awaiting)
    (changes : Changes) (userId : UserId) (checkEmpty : Bool) :
    SaveOutcome y s awaiting changes userId checkEmpty
      (s.awaitSaveDiff y awaiting changes userId checkEmpty) := by
  cases happly : y.applyUpdate s.ydoc (y.toUint8Array changes) with | mk doc threw
  have hthrew : threw = true → s.saveDiff y changes userId checkEmpty =
      ({ s with ydoc := doc }, .threw) := by
    rintro rfl
    simp [saveDiff, happly]
  cases threw with
  | true =>
    rw [awaitSaveDiff, hthrew rfl]
    exact .threw doc happly
  | false =>
    by_cases hret : checkEmpty = true ∧ y.encodeStateVector doc ≠ y.encodeStateVector s.ydoc
    · have hsave : s.saveDiff y changes userId checkEmpty = ({ s with ydoc := doc }, .returned) := by
        have hdiffer := mt (equalVectors_iff _ _).mp (Ne.symm hret.2)
        simp [saveDiff, happly, hret.1, hdiffer]
      rw [awaitSaveDiff, hsave]
      exact .returned doc happly hret.1 hret.2
    · obtain ⟨state, hencode, hstate⟩ := hy doc
      have hvec : checkEmpty = true → y.encodeStateVector doc = y.encodeStateVector s.ydoc :=
        fun hcheck => by_contra fun hne => hret ⟨hcheck, hne⟩
      have hsave : s.saveDiff y changes userId checkEmpty =
          ({ s with ydoc := doc }, .saving state ⟨s.id, y.toUint8Array changes, userId⟩) := by
        have hcheck : (checkEmpty &&
            !equalVectors (y.encodeStateVector s.ydoc) (y.encodeStateVector doc)) = false := by
          cases checkEmpty with
          | false => rfl
          | true => simp [equalVectors_iff, hvec rfl]
        simp [saveDiff, happly, hcheck, hencode]
      rw [awaitSaveDiff, hsave]
      exact .saving doc state happly hvec hstate

end DocHandler

/-- The argument that the method hands to `saveDiff`. -/
def ActorCall.checkEmpty : ActorCall → Bool
  | .syncComplete _ _ => true
  | _ => false

namespace DocStore

/-- What a step does. Of the calls, one can throw, return early or suspend on its writes. -/
inductive StepOutcome (y : Yjs Doc) (s : DocStore Doc) : DocStoreAction → DocStore Doc → Prop
  | asked (vector : StateVector) : StepOutcome y s (.call (.syncStart vector)) s
  | threw (call : ActorCall) (changes : Changes) (doc : Doc) (hcall : call.changes = some changes)
    (happly : y.applyUpdate s.handler.ydoc (y.toUint8Array changes) = ⟨doc, true⟩)
    (hidle : s.handler.saving = none) :
    StepOutcome y s (.call call) { s with handler := { s.handler with ydoc := doc } }
  | returned (call : ActorCall) (changes : Changes) (doc : Doc) (handler : DocHandler Doc)
    (hcall : call.changes = some changes) (hcheck : call.checkEmpty = true)
    (happly : y.applyUpdate s.handler.ydoc (y.toUint8Array changes) = ⟨doc, false⟩)
    (hvec : y.encodeStateVector doc ≠ y.encodeStateVector s.handler.ydoc)
    (hidle : s.handler.saving = none) (hdoc : handler.ydoc = doc) (hsaving : handler.saving = none) :
    StepOutcome y s (.call call)
      { s with handler := handler, completed := s.completed ++ [y.toUint8Array changes] }
  | saving (call : ActorCall) (changes : Changes) (doc : Doc) (w : Saving)
    (hcall : call.changes = some changes)
    (hvec : call.checkEmpty = true → y.encodeStateVector doc = y.encodeStateVector s.handler.ydoc)
    (happly : y.applyUpdate s.handler.ydoc (y.toUint8Array changes) = ⟨doc, false⟩)
    (hstate : y.applyUpdate y.newDoc w.state = ⟨doc, false⟩)
    (hupdate : w.update.state = y.toUint8Array changes) (hupdated : w.updated = false)
    (hcreated : w.created = false) (hidle : s.handler.saving = none) :
    StepOutcome y s (.call call)
      { s with handler := { s.handler with ydoc := doc, saving := some w } }
  | updated (w : Saving) (hw : s.handler.saving = some w) :
    StepOutcome y s .updateOne
      { s with
        handler := { s.handler with saving := some { w with updated := true } }
        doc := s.doc.map fun _ => w.state }
  | created (w : Saving) (hw : s.handler.saving = some w) (hnew : w.created = false) :
    StepOutcome y s .create
      { s with
        handler := { s.handler with saving := some { w with created := true } }
        updates := s.updates ++ [w.update] }
  | resumed (w : Saving) (handler : DocHandler Doc) (hw : s.handler.saving = some w)
    (hupdated : w.updated = true) (hcreated : w.created = true)
    (hdoc : handler.ydoc = s.handler.ydoc)
    (hsaving : handler.saving = none) :
    StepOutcome y s .resume
      { s with handler := handler, completed := s.completed ++ [w.update.state] }
  | expired (userId : UserId) (handler : DocHandler Doc) (hdoc : handler.ydoc = s.handler.ydoc)
    (hsaving : handler.saving = s.handler.saving) :
    StepOutcome y s (.syncAwaitExpired userId) { s with handler := handler }
  | reactivated (handler : DocHandler Doc) (hidle : s.handler.saving = none)
    (hact : DocHandler.onActivate y s.handler.id s.doc = some handler) :
    StepOutcome y s .reactivate { s with handler := handler }

lemma call_cases (hy : y.Rebuilds) {s : DocStore Doc} (hidle : s.handler.saving = none)
    {call : ActorCall} {awaiting : Awaiting} {changes : Changes} {userId : UserId}
    (hcall : call.changes = some changes)
    (hinvoke : s.handler.invoke y call =
      s.handler.awaitSaveDiff y awaiting changes userId call.checkEmpty) :
    StepOutcome y s (.call call)
      ({ s with handler := (s.handler.invoke y call).1 }.replied y call
        (s.handler.invoke y call).2) := by
  have hout := DocHandler.awaitSaveDiff_cases hy s.handler awaiting changes userId call.checkEmpty
  rw [hinvoke]
  generalize s.handler.awaitSaveDiff y awaiting changes userId call.checkEmpty = result at hout
  cases hout with
  | threw doc happly => exact .threw call changes doc hcall happly hidle
  | returned doc happly hcheck hvec =>
    have hne := DocHandler.saved_ne_threw (y := y) { s.handler with ydoc := doc } awaiting
    have hout := StepOutcome.returned (y := y) (s := s) call changes doc
      ({ s.handler with ydoc := doc }.saved y awaiting).1 hcall hcheck happly hvec hidle
      (by simp) (by simpa using hidle)
    generalize ({ s.handler with ydoc := doc }.saved y awaiting).2 = reply at hne
    cases reply with
    | threw => exact absurd rfl hne
    | _ => simpa [replied, hcall] using hout
  | saving doc state happly hvec hstate =>
    exact .saving call changes doc _ hcall hvec happly hstate rfl rfl rfl hidle

theorem step_cases (hy : y.Rebuilds) {s s' : DocStore Doc} {a : DocStoreAction}
    (h : s.step y a = some s') : StepOutcome y s a s' := by
  cases a with
  | call call =>
    simp only [step] at h
    split at h
    · rename_i hidle
      cases h
      cases call with
      | applyDiff changes userId => exact call_cases hy hidle rfl rfl
      | syncComplete changes userId => exact call_cases hy hidle rfl rfl
      | syncStart vector =>
        have hsame (reply : ActorReply) : s.replied y (.syncStart vector) (some reply) = s := by
          cases reply <;> simp [replied, ActorCall.changes]
        change StepOutcome y s _ (s.replied y (.syncStart vector) (some _))
        rw [hsame]
        exact .asked vector
    · cases h
  | updateOne =>
    simp only [step] at h
    split at h
    · cases h
    · rename_i w hw
      split at h
      · cases h
      · cases h
        exact .updated w hw
  | create =>
    simp only [step] at h
    split at h
    · cases h
    · rename_i w hw
      split at h
      · cases h
      · rename_i hnew
        cases h
        exact .created w hw (Bool.eq_false_iff.mpr hnew)
  | resume =>
    simp only [step] at h
    split at h
    · rename_i w handler reply hw hresume
      cases h
      simp only [DocHandler.resume, hw] at hresume
      split at hresume
      · rename_i hdone
        have hhandler : ({ s.handler with saving := none }.saved y w.awaiting).1 = handler :=
          congrArg Prod.fst (Option.some.inj hresume)
        rw [Bool.and_eq_true] at hdone
        exact .resumed w handler hw hdone.1 hdone.2 (by simp [← hhandler]) (by simp [← hhandler])
      · cases hresume
    · cases h
  | syncAwaitExpired userId =>
    simp only [step, Option.map_eq_some_iff] at h
    obtain ⟨handler, hexp, rfl⟩ := h
    unfold DocHandler.syncAwaitExpired at hexp
    split at hexp
    · cases hexp
      exact .expired userId _ rfl rfl
    · cases hexp
  | reactivate =>
    simp only [step] at h
    split at h
    · rename_i hidle
      obtain ⟨handler, hact, rfl⟩ := Option.map_eq_some_iff.mp h
      exact .reactivated handler hidle hact
    · cases h

/-- The stored state decodes to the document in memory. -/
def Decodes (y : Yjs Doc) (s : DocStore Doc) : Prop :=
  ∃ state, s.doc = some state ∧ y.applyUpdate y.newDoc state = ⟨s.handler.ydoc, false⟩

/-- Between the calls. -/
def Stored (y : Yjs Doc) (s : DocStore Doc) : Prop := s.handler.saving = none → s.Decodes y

/-- A call that throws leaves the document as it was, and an update that `syncComplete` takes
in leaves the state vector as it was. -/
def CallOk (y : Yjs Doc) (s : DocStore Doc) : DocStoreAction → Prop
  | .call call =>
    match call.changes with
    | none => True
    | some changes =>
      let applied := y.applyUpdate s.handler.ydoc (y.toUint8Array changes)
      if applied.threw then applied.doc = s.handler.ydoc
      else call.checkEmpty = true →
        y.encodeStateVector applied.doc = y.encodeStateVector s.handler.ydoc
  | _ => True

instance [DecidableEq Doc] (y : Yjs Doc) (s : DocStore Doc) (a : DocStoreAction) :
    Decidable (s.CallOk y a) := by
  unfold CallOk
  dsimp only
  split
  · split <;> infer_instance
  · infer_instance

/-- The record exists, and the state of a write in progress is that of the document. -/
structure Recorded (y : Yjs Doc) (s : DocStore Doc) : Prop where
  record : ∃ state, s.doc = some state
  encoded : ∀ w, s.handler.saving = some w →
    y.applyUpdate y.newDoc w.state = ⟨s.handler.ydoc, false⟩
  written : ∀ w, s.handler.saving = some w → w.updated = true → s.doc = some w.state

/-- A record without a write in progress. -/
lemma Recorded.of_idle {s : DocStore Doc} (hrec : ∃ state, s.doc = some state)
    (hidle : s.handler.saving = none) : s.Recorded y where
  record := hrec
  encoded w hw := by rw [hidle] at hw; cases hw
  written w hw := by rw [hidle] at hw; cases hw

lemma onActivate_spec {id : DocKey} {state : Bytes} {handler : DocHandler Doc}
    (h : DocHandler.onActivate y id (some state) = some handler) :
    handler.saving = none ∧ y.applyUpdate y.newDoc state = ⟨handler.ydoc, false⟩ := by
  simp only [DocHandler.onActivate] at h
  split at h
  · cases h
  · rename_i hthrew
    cases h
    exact ⟨rfl, by rw [Bool.not_eq_true] at hthrew; rw [← hthrew]⟩

lemma recorded_step (hy : y.Rebuilds) {s s' : DocStore Doc} {a : DocStoreAction}
    (hs : s.Recorded y) (h : s.step y a = some s') : s'.Recorded y := by
  cases step_cases hy h with
  | asked vector => exact hs
  | threw call changes doc hcall happly hidle => exact .of_idle hs.record hidle
  | returned call changes doc handler hcall hcheck happly hvec hidle hdoc hsaving =>
    exact .of_idle hs.record hsaving
  | saving call changes doc w hcall hvec happly hstate hupdate hupdated hcreated hidle =>
    refine ⟨hs.record, fun w' hw' => ?_, fun w' hw' hdone => ?_⟩
    · cases hw'
      exact hstate
    · cases hw'
      rw [hupdated] at hdone
      cases hdone
  | updated w hw =>
    obtain ⟨state, hstate⟩ := hs.record
    refine ⟨⟨w.state, by simp [hstate]⟩, fun w' hw' => ?_, fun w' hw' hdone => ?_⟩
    · cases hw'
      exact hs.encoded w hw
    · cases hw'
      simp [hstate]
  | created w hw hnew =>
    refine ⟨hs.record, fun w' hw' => ?_, fun w' hw' hdone => ?_⟩
    · cases hw'
      exact hs.encoded w hw
    · cases hw'
      exact hs.written w hw hdone
  | resumed w handler hw hupdated hcreated hdoc hsaving => exact .of_idle hs.record hsaving
  | expired userId handler hdoc hsaving =>
    refine ⟨hs.record, fun w hw => ?_, fun w hw hdone => ?_⟩
    · rw [hdoc]
      exact hs.encoded w (hsaving ▸ hw)
    · exact hs.written w (hsaving ▸ hw) hdone
  | reactivated handler hidle hact =>
    obtain ⟨state, hstate⟩ := hs.record
    rw [hstate] at hact
    exact .of_idle hs.record (onActivate_spec hact).1

/-- From a stored document, a step leads to a stored document exactly when its call is in order. -/
lemma stored_step_iff (hy : y.Rebuilds) {s s' : DocStore Doc} {a : DocStoreAction}
    (hrec : s.Recorded y) (hs : s.Stored y) (h : s.step y a = some s') :
    s'.Stored y ↔ s.CallOk y a := by
  cases step_cases hy h with
  | asked vector => exact iff_of_true hs trivial
  | threw call changes doc hcall happly hidle =>
    simp only [Stored, Decodes, CallOk, hcall, happly, hidle, forall_const, ↓reduceIte]
    obtain ⟨state, hstate, hdecode⟩ := hs hidle
    constructor
    · rintro ⟨state', hstate', hdecode'⟩
      cases hstate.symm.trans hstate'
      exact congrArg Applied.doc (hdecode'.symm.trans hdecode)
    · rintro rfl
      exact ⟨state, hstate, hdecode⟩
  | returned call changes doc handler hcall hcheck happly hvec hidle hdoc hsaving =>
    simp only [Stored, Decodes, CallOk, hcall, happly, hcheck, hsaving, hdoc, forall_const,
      Bool.false_eq_true, ↓reduceIte, hvec, iff_false]
    rintro ⟨state', hstate', hdecode'⟩
    obtain ⟨state, hstate, hdecode⟩ := hs hidle
    cases hstate.symm.trans hstate'
    have hsame : doc = s.handler.ydoc := congrArg Applied.doc (hdecode'.symm.trans hdecode)
    exact hvec (by rw [hsame])
  | saving call changes doc w hcall hvec happly hstate hupdate hupdated hcreated hidle =>
    refine iff_of_true (fun hsaving => by cases hsaving) ?_
    simpa [CallOk, hcall, happly] using hvec
  | updated w hw => exact iff_of_true (fun hsaving => by cases hsaving) trivial
  | created w hw hnew => exact iff_of_true (fun hsaving => by cases hsaving) trivial
  | resumed w handler hw hupdated hcreated hdoc hsaving =>
    refine iff_of_true (fun _ => ⟨w.state, hrec.written w hw hupdated, ?_⟩) trivial
    rw [hdoc]
    exact hrec.encoded w hw
  | expired userId handler hdoc hsaving =>
    refine iff_of_true (fun hidle => ?_) trivial
    obtain ⟨state, hstate, hdecode⟩ := hs (hsaving ▸ hidle)
    exact ⟨state, hstate, by rw [hdoc]; exact hdecode⟩
  | reactivated handler hidle hact =>
    obtain ⟨state, hstate⟩ := hrec.record
    rw [hstate] at hact
    exact iff_of_true (fun _ => ⟨state, hstate, (onActivate_spec hact).2⟩) trivial

/-- The updates applied to the document in their order. -/
def replay (y : Yjs Doc) (doc : Doc) (updates : List Bytes) : Doc :=
  updates.foldl (fun doc update => (y.applyUpdate doc update).doc) doc

/-- The document is the first one with every completed update, and the one being saved. -/
structure Accounted (y : Yjs Doc) (first : Doc) (s : DocStore Doc) : Prop where
  idle : s.handler.saving = none → s.handler.ydoc = replay y first s.completed
  saving : ∀ w, s.handler.saving = some w →
    s.handler.ydoc = replay y first (s.completed ++ [w.update.state])

@[simp] lemma replay_append (first : Doc) (updates : List Bytes) (update : Bytes) :
    replay y first (updates ++ [update]) = (y.applyUpdate (replay y first updates) update).doc := by
  simp [replay]

lemma Accounted.of_idle {first : Doc} {s : DocStore Doc} (hidle : s.handler.saving = none)
    (h : s.handler.ydoc = replay y first s.completed) : s.Accounted y first where
  idle _ := h
  saving w hw := by rw [hidle] at hw; cases hw

lemma Accounted.of_saving {first : Doc} {s : DocStore Doc} {w : Saving}
    (hw : s.handler.saving = some w)
    (h : s.handler.ydoc = replay y first (s.completed ++ [w.update.state])) :
    s.Accounted y first where
  idle hidle := by rw [hw] at hidle; cases hidle
  saving w' hw' := by cases hw.symm.trans hw'; exact h

lemma accounted_step (hy : y.Rebuilds) {first : Doc} {s s' : DocStore Doc} {a : DocStoreAction}
    (hstored : s.Stored y) (hs : s.Accounted y first) (hok : s.CallOk y a)
    (h : s.step y a = some s') : s'.Accounted y first := by
  cases step_cases hy h with
  | asked vector => exact hs
  | threw call changes doc hcall happly hidle =>
    simp only [CallOk, hcall, happly, ↓reduceIte] at hok
    exact .of_idle hidle (hok.trans (hs.idle hidle))
  | returned call changes doc handler hcall hcheck happly hvec hidle hdoc hsaving =>
    refine .of_idle hsaving ?_
    simp [← hs.idle hidle, happly, hdoc]
  | saving call changes doc w hcall hvec happly hstate hupdate hupdated hcreated hidle =>
    refine .of_saving rfl ?_
    simp [← hs.idle hidle, happly, hupdate]
  | updated w hw => exact .of_saving rfl (hs.saving w hw)
  | created w hw hnew => exact .of_saving rfl (hs.saving w hw)
  | resumed w handler hw hupdated hcreated hdoc hsaving =>
    exact .of_idle hsaving (hdoc.trans (hs.saving w hw))
  | expired userId handler hdoc hsaving =>
    exact ⟨fun hidle => hdoc.trans (hs.idle (hsaving ▸ hidle)),
      fun w hw => hdoc.trans (hs.saving w (hsaving ▸ hw))⟩
  | reactivated handler hidle hact =>
    obtain ⟨state, hstate, hdecode⟩ := hstored hidle
    rw [hstate] at hact
    have hnew := onActivate_spec hact
    have hsame : handler.ydoc = s.handler.ydoc :=
      congrArg Applied.doc (hnew.2.symm.trans hdecode)
    exact .of_idle hnew.1 (hsame.trans (hs.idle hidle))

/-- What deactivating the actor now would leave. -/
structure Durable (y : Yjs Doc) (first : Doc) (s : DocStore Doc) : Prop where
  decodes : s.Decodes y
  reactivated : ∃ s', s.step y .reactivate = some s' ∧ s'.handler.ydoc = s.handler.ydoc
  nothing_lost : s.handler.ydoc = replay y first s.completed

lemma durable_of_stored {first : Doc} {s : DocStore Doc} (hstored : s.Stored y)
    (hs : s.Accounted y first) (hidle : s.handler.saving = none) : s.Durable y first := by
  obtain ⟨state, hstate, hdecode⟩ := hstored hidle
  have hact : DocHandler.onActivate y s.handler.id s.doc =
      some ⟨s.handler.id, s.handler.ydoc, .empty, [], none⟩ := by
    simp [DocHandler.onActivate, hstate, hdecode]
  have hstep : s.step y .reactivate =
      some { s with handler := ⟨s.handler.id, s.handler.ydoc, .empty, [], none⟩ } := by
    simp [step, hidle, hact]
  exact ⟨hstored hidle, ⟨_, hstep, rfl⟩, hs.idle hidle⟩

lemma activate_spec {id : DocKey} {state : Bytes} {s : DocStore Doc}
    (h : activate y id (some state) = some s) :
    s.Recorded y ∧ s.Stored y ∧ s.Accounted y s.handler.ydoc := by
  simp only [activate, Option.map_eq_some_iff] at h
  obtain ⟨handler, hact, rfl⟩ := h
  have hnew := onActivate_spec hact
  exact ⟨.of_idle ⟨state, rfl⟩ hnew.1, fun _ => ⟨state, rfl, hnew.2⟩, .of_idle hnew.1 rfl⟩

lemma stored_of_guarded (hy : y.Rebuilds) {first : Doc} {s s' : DocStore Doc}
    {as : List DocStoreAction} (hrun : run (step y) s as = some s')
    (hok : Guarded (step y) (CallOk y) s as)
    (h : s.Recorded y ∧ s.Stored y ∧ s.Accounted y first) :
    s'.Recorded y ∧ s'.Stored y ∧ s'.Accounted y first :=
  run_invariant (fun s : DocStore Doc => s.Recorded y ∧ s.Stored y ∧ s.Accounted y first)
    (fun _ _ _ ⟨hrec, hstored, hacc⟩ hok hs =>
      ⟨recorded_step hy hrec hs, (stored_step_iff hy hrec hstored hs).mpr hok,
        accounted_step hy hstored hacc hok hs⟩)
    hrun hok h

/-- Whatever the calls bring and however they are served, the document is durable between any
two of them exactly when every call is in order. -/
theorem document_durable_iff (hy : y.Rebuilds) {id : DocKey} {state : Bytes} {s₀ : DocStore Doc}
    (hact : activate y id (some state) = some s₀) (as : List DocStoreAction) :
    (∀ bs, bs <+: as → ∀ s, run (step y) s₀ bs = some s →
      s.handler.saving = none → s.Durable y s₀.handler.ydoc) ↔
      Guarded (step y) (CallOk y) s₀ as := by
  have h₀ := activate_spec hact
  constructor
  · intro h
    have hiff : (∀ bs, bs <+: as → ∀ s, run (step y) s₀ bs = some s → s.Stored y) ↔
        Guarded (step y) (CallOk y) s₀ as :=
      invariant_iff_guarded (Recorded y) (Stored y) (fun _ _ _ hs => recorded_step hy hs)
        (fun _ _ _ hrec hstored => stored_step_iff hy hrec hstored) as h₀.1 h₀.2.1
    exact hiff.mp fun bs hbs s hrun hidle => (h bs hbs s hrun hidle).decodes
  · rintro hok bs ⟨cs, rfl⟩ s hrun hidle
    have hs := stored_of_guarded hy hrun ((guarded_append hrun).mp hok).1 h₀
    exact durable_of_stored hs.2.1 hs.2.2 hidle

lemma rebuilds_oneEdit : Yjs.oneEdit.Rebuilds := by
  intro doc
  cases doc
  · exact ⟨[0, 0], rfl, rfl⟩
  · exact ⟨[1, 1], rfl, rfl⟩

/-- An edit, then a sync that brings nothing. -/
theorem document_durable_after_edit :
    ∃ s₀ s, activate Yjs.oneEdit "doc" (some [0, 0]) = some s₀ ∧
      run (step Yjs.oneEdit) s₀ [.call (.applyDiff "AQE=" "conn"), .create, .updateOne, .resume,
        .call (.syncStart "AA=="), .call (.syncComplete "AAA=" "conn"), .updateOne, .create,
        .resume] = some s ∧ s.completed = [[1, 1], [0, 0]] ∧
      s.Durable Yjs.oneEdit s₀.handler.ydoc := by
  obtain ⟨s₀, hact⟩ : ∃ s₀, activate Yjs.oneEdit "doc" (some [0, 0]) = some s₀ := ⟨_, rfl⟩
  obtain ⟨s, hrun⟩ : ∃ s, run (step Yjs.oneEdit) s₀ [.call (.applyDiff "AQE=" "conn"), .create,
      .updateOne, .resume, .call (.syncStart "AA=="), .call (.syncComplete "AAA=" "conn"),
      .updateOne, .create, .resume] = some s := by
    cases hact
    exact ⟨_, rfl⟩
  have hidle : s.handler.saving = none ∧ s.completed = [[1, 1], [0, 0]] := by
    cases hact
    cases hrun
    decide
  have hok : Guarded (step Yjs.oneEdit) (CallOk Yjs.oneEdit) s₀ [.call (.applyDiff "AQE=" "conn"),
      .create, .updateOne, .resume, .call (.syncStart "AA=="),
      .call (.syncComplete "AAA=" "conn"), .updateOne, .create, .resume] := by
    cases hact
    decide
  exact ⟨s₀, s, hact, hrun, hidle.2,
    (document_durable_iff rebuilds_oneEdit hact _).mpr hok _ List.prefix_rfl s hrun hidle.1⟩

/-- The edit that a sync brings is only in memory: deactivating the actor loses it. -/
theorem synced_edit_lost :
    ¬∀ y : Yjs Bool, y.Rebuilds → ∀ s₀ as s, activate y "doc" (some [0, 0]) = some s₀ →
      run (step y) s₀ as = some s → s.handler.saving = none → s.Decodes y ∧
        ∀ s', s.step y .reactivate = some s' → s'.handler.ydoc = s.handler.ydoc := by
  intro h
  have hrun := (h Yjs.oneEdit rebuilds_oneEdit _
    [.call (.syncStart "AA=="), .call (.syncComplete "AQE=" "conn")] _ rfl rfl rfl).2 _ rfl
  revert hrun
  decide

end DocStore
end AlaFois
