import AlaFois.Proofs.ApiRuns

/-!
# Consumers that share a server

What a consumer and the admins are answered, and the documents of the consumer, are the same as if
the requests of all other consumers had never been sent.
-/

namespace AlaFois

open Async (Performed PoolAction)

/-- The handlers of `DocsController`. -/
def Endpoint.isDocs : Endpoint → Bool
  | .getDocsByIds _ | .createDoc _ => true
  | _ => false

namespace ApiServer

/-- The consumer that the JWT of a request names by a text. -/
def tenant (env : ServerEnv) (request : HttpRequest) : Option String :=
  request.authorization.bind fun token => (env.parseJWT token).bind fun claims =>
    match claims.consumerId with
    | some (.text id) => env.objectId id
    | _ => none

/-- The JWT of the request names its consumer by a text, and not by a condition that several of them
meet. -/
def NamesByText (env : ServerEnv) (request : HttpRequest) : Prop :=
  ∀ token claims value, request.authorization = some token → env.parseJWT token = some claims →
    claims.consumerId = some value → ∃ id, value = .text id

/-- A request for documents names its consumer by a text. -/
def Named (env : ServerEnv) (request : HttpRequest) : Prop :=
  request.endpoint.isDocs = true → NamesByText env request

/-- The request is neither for an admin nor for the documents of the consumer. -/
def isForeign (env : ServerEnv) (owner : String) (request : HttpRequest) : Bool :=
  !request.endpoint.isAdmin && !(request.endpoint.isDocs && tenant env request = some owner)

/-- The consumers and the documents of one of them are the same, and no id is taken on the right that
is free on the left. -/
structure SameFor (owner : String) (s t : Collections) : Prop where
  consumers : t.consumers = s.consumers
  docs : t.docs.filter (·.owner = some owner) = s.docs.filter (·.owner = some owner)
  ids : ∀ id ∈ t.docs.map (·.id), id ∈ s.docs.map (·.id)

variable {env : ServerEnv} {owner : String} {request : HttpRequest} {told : Told}
  {s s' t : Collections}

lemma SameFor.refl (owner : String) (s : Collections) : SameFor owner s s := ⟨rfl, rfl, fun _ h => h⟩

lemma tenant_of_authenticated {consumer : StoredConsumer} (hnamed : NamesByText env request)
    (h : Authenticated env request told consumer) : tenant env request = some consumer.id := by
  obtain ⟨token, claims, value, hauth, -, ⟨_, _, hparse, -⟩, hsigner, hgiven⟩ := h
  have hvalue := consumerId_of_signer hsigner
  obtain ⟨id, rfl⟩ := hnamed token claims value hauth hparse hvalue
  rcases hgiven with ⟨text, htext, hcast, -⟩ | ⟨hnone, -⟩
  · cases htext
    simp [tenant, hauth, hparse, hvalue, hcast]
  · exact absurd rfl (hnone id)

lemma not_byAdmin_of_isForeign (h : isForeign env owner request = true) : ¬ByAdmin env request := by
  rintro ⟨hadmin, -⟩
  simp [isForeign, hadmin] at h

/-- A foreign request that works on documents names another consumer. -/
lemma tenant_ne_of_isForeign (h : isForeign env owner request = true)
    (hdocs : request.endpoint.isDocs = true) : tenant env request ≠ some owner := by
  simp only [isForeign, hdocs, Bool.true_and, Bool.and_eq_true, Bool.not_eq_true',
    decide_eq_false_iff_not] at h
  exact h.2

lemma tenant_eq_of_not_isForeign (h : isForeign env owner request = false)
    (hdocs : request.endpoint.isDocs = true) : tenant env request = some owner := by
  have hadmin : request.endpoint.isAdmin = false := by
    cases hend : request.endpoint <;> simp_all [Endpoint.isDocs, Endpoint.isAdmin]
  simpa [isForeign, hdocs, hadmin] using h

lemma not_findsAny_of_not_isForeign (h : isForeign env owner request = false) :
    request.endpoint.findsAny = false := by
  cases hend : request.endpoint <;>
    simp_all [isForeign, Endpoint.isDocs, Endpoint.isAdmin, Endpoint.findsAny]

lemma SameFor.insert_right (h : SameFor owner s t) {doc : StoredDoc}
    (howner : doc.owner ≠ some owner) :
    SameFor owner { s with docs := s.docs ++ [doc] } t := by
  refine ⟨h.consumers, ?_, fun id hid => ?_⟩
  · rw [h.docs]
    simp [List.filter_append, howner]
  · rw [List.map_append]
    exact List.mem_append_left _ (h.ids id hid)

lemma SameFor.insert (h : SameFor owner s t) (doc : StoredDoc) :
    SameFor owner { s with docs := s.docs ++ [doc] } { t with docs := t.docs ++ [doc] } := by
  refine ⟨h.consumers, ?_, fun id hid => ?_⟩
  · simp only [List.filter_append, h.docs]
  · rw [List.map_append, List.mem_append] at hid ⊢
    exact hid.imp (h.ids id) fun h => h

/-- An actor writes to the documents of an owner on both sides, or on none. -/
lemma SameFor.write (h : SameFor owner s t) (w : ActorWrite) :
    SameFor owner (s.write w) (t.write w) := by
  cases w with
  | saveState id state =>
    have hfilter : ∀ docs : List StoredDoc,
        (docs.map fun doc => if doc.id = id then { doc with state := state } else doc).filter
            (·.owner = some owner) =
          (docs.filter (·.owner = some owner)).map fun doc =>
            if doc.id = id then { doc with state := state } else doc := by
      intro docs
      rw [List.filter_map]
      congr 1
      refine List.filter_congr fun doc _ => ?_
      simp only [Function.comp_apply]
      split <;> rfl
    have hids : ∀ docs : List StoredDoc,
        (docs.map fun doc => if doc.id = id then { doc with state := state } else doc).map (·.id) =
          docs.map (·.id) := by
      intro docs
      rw [Collections.map_id_of_map_toOwnedDoc, Collections.map_toOwnedDoc_saveState,
        ← Collections.map_id_of_map_toOwnedDoc]
    refine ⟨h.consumers, ?_, fun id' hid => ?_⟩
    · simp only [Collections.write, hfilter, h.docs]
    · simp only [Collections.write, hids] at hid ⊢
      exact h.ids id' hid
  | createUpdate update => exact ⟨h.consumers, h.docs, h.ids⟩

/-- What a foreign request does cannot be seen. -/
lemma SameFor.hidden {call : ApiCall} {outcome : Except ApiError call.Reply}
    (hnamed : Named env request) (hforeign : isForeign env owner request = true)
    (hallowed : Allowed env request told call) (h : SameFor owner s t)
    (hexec : Collections.exec env s call outcome = some s') : SameFor owner s' t := by
  have hnot := not_byAdmin_of_isForeign hforeign
  cases call with
  | insertDoc doc =>
    rcases hallowed with ⟨hadmin, -⟩ | ⟨consumer, field, hauth, hend, -, howner⟩
    · exact absurd hadmin hnot
    · have hdocs : request.endpoint.isDocs = true := by rw [hend]; rfl
      have hne : doc.owner ≠ some owner := by
        rw [howner, ← tenant_of_authenticated (hnamed hdocs) hauth]
        exact tenant_ne_of_isForeign hforeign hdocs
      cases Collections.exec_effect hexec with
      | none => exact h
      | insertDoc doc hnew => exact h.insert_right hne
  | insertConsumer consumer => exact absurd hallowed hnot
  | saveConsumer id publicKey name => exact absurd hallowed hnot
  | _ =>
    cases Collections.exec_effect hexec with
    | none => exact h

lemma docsOf_eq (s : Collections) (owner : String) (ids : List String) :
    s.docsOf owner ids = (s.docs.filter (·.owner = some owner)).filter (·.id ∈ ids) := by
  rw [List.filter_filter, Collections.docsOf]
  refine List.filter_congr fun doc _ => ?_
  simp [and_comm]

/-- What the other requests do, they can do all the same, and with the same outcome. -/
lemma SameFor.shown {call : ApiCall} {outcome : Except ApiError call.Reply}
    (hnamed : Named env request) (hown : isForeign env owner request = false)
    (hallowed : Allowed env request told call) (h : SameFor owner s t)
    (hexec : Collections.exec env s call outcome = some s') :
    ∃ t', Collections.exec env t call outcome = some t' ∧ SameFor owner s' t' := by
  cases outcome with
  | error e =>
    have hs : (if e = .other then some s else none) = some s' := by cases call <;> exact hexec
    obtain ⟨he, hs⟩ := Option.ite_none_right_eq_some.mp hs
    cases hs
    have ht : Collections.exec env t call (.error e) = some t := by cases call <;> exact if_pos he
    exact ⟨t, ht, h⟩
  | ok x =>
    cases call with
    | newObjectId =>
      obtain ⟨hid, hs⟩ := Option.ite_none_right_eq_some.mp hexec
      cases hs
      exact ⟨t, if_pos hid, h⟩
    | generateKeyPair =>
      cases hexec
      exact ⟨t, rfl, h⟩
    | findConsumer id =>
      obtain ⟨hfound, hs⟩ := Option.ite_none_right_eq_some.mp hexec
      cases hs
      exact ⟨t, if_pos (by rw [h.consumers, hfound]), h⟩
    | queryConsumer value =>
      obtain ⟨hfound, hs⟩ := Option.ite_none_right_eq_some.mp hexec
      cases hs
      exact ⟨t, if_pos (by rw [Collections.findConsumer, h.consumers]; exact hfound), h⟩
    | insertConsumer consumer =>
      obtain ⟨hnew, hs⟩ := Option.ite_none_left_eq_some.mp hexec
      cases hs
      exact ⟨_, if_neg (by rw [h.consumers]; exact hnew), by simp only [h.consumers], h.docs, h.ids⟩
    | saveConsumer id publicKey name =>
      obtain ⟨hmem, hs⟩ := Option.ite_none_right_eq_some.mp hexec
      cases hs
      exact ⟨_, if_pos (by rw [h.consumers]; exact hmem), by simp only [h.consumers], h.docs, h.ids⟩
    | findDoc id =>
      have hany : request.endpoint.findsAny = true := hallowed
      rw [not_findsAny_of_not_isForeign hown] at hany
      exact Bool.noConfusion hany
    | findDocs owner' ids =>
      obtain ⟨⟨value, texts, hend, -⟩, consumer, hauth, rfl⟩ := hallowed
      have hdocs : request.endpoint.isDocs = true := by rw [hend]; rfl
      have htenant := tenant_eq_of_not_isForeign hown hdocs
      rw [tenant_of_authenticated (hnamed hdocs) hauth] at htenant
      cases htenant
      obtain ⟨hfound, hs⟩ := Option.ite_none_right_eq_some.mp hexec
      cases hs
      have hsame : t.docsOf consumer.id ids = s.docsOf consumer.id ids := by
        rw [docsOf_eq, docsOf_eq, h.docs]
      have hfound' : x.Perm (t.docsOf consumer.id ids) := by
        rw [hsame]
        exact hfound
      exact ⟨t, if_pos hfound', h⟩
    | insertDoc doc =>
      obtain ⟨hnew, hs⟩ := Option.ite_none_left_eq_some.mp hexec
      cases hs
      exact ⟨_, if_neg fun hmem => hnew (h.ids doc.id hmem), h.insert doc⟩
    | findUpdates docId =>
      have hany := not_findsAny_of_not_isForeign hown
      rw [hallowed.1] at hany
      exact Bool.noConfusion hany

lemma unwinding (env : ServerEnv) (owner : String) :
    (apiServer env).Unwinding (Allowed env) (Named env) (isForeign env owner) (SameFor owner) where
  hidden := fun _ _ _ _ _ _ _ hnamed hforeign hallowed h hexec =>
    h.hidden hnamed hforeign hallowed hexec
  shown := fun _ _ _ _ _ _ _ hnamed hown hallowed h hexec => h.shown hnamed hown hallowed hexec
  outside := fun w s s' t h hs => by
    cases hs
    exact ⟨t.write w, rfl, h.write w⟩

/-- In a run whose requests for documents name their consumers by texts, take the requests of the other
consumers out, and the rest is still a run: the remaining requests have made the same calls with the
same outcomes and are answered alike, and the documents of the consumer are the same. -/
theorem tenants_apart (env : ServerEnv) (owner : String) (store : Collections)
    (as : List ServerAction) (s' : ApiPool)
    (hrun : Stepper.run (apiServer env).step (Async.Server.init store) as = some s')
    (hnamed : ∀ id request, .start id request ∈ as → request.endpoint.isDocs = true →
      NamesByText env request) :
    ∃ t', Stepper.run (apiServer env).step (Async.Server.init store)
        (as.filter fun a => !Async.Server.hides (isForeign env owner) s' a) = some t' ∧
      SameFor owner s'.store t'.store ∧ ∀ id task, s'.tasks.get id = some task →
        isForeign env owner task.request = false → t'.tasks.get id = some task := by
  have hshows : Async.Server.Shows (isForeign env owner) (SameFor owner)
      (Async.Server.init store : ApiPool) (Async.Server.init store) :=
    ⟨SameFor.refl owner store, fun id => rfl⟩
  have hvalid : ∀ id task, s'.tasks.get id = some task → Named env task.request :=
    fun id task hget => hnamed id task.request (Async.Server.start_mem_of_run hrun hget rfl)
  obtain ⟨t', ht', hR, hshow⟩ := Async.Server.exists_purged (unwinding env owner) (handle_obeys env)
    hrun hvalid (Async.Server.obedient_init store) hshows
  refine ⟨t', ht', hR, fun id task hget hown => ?_⟩
  rw [hshow id, hget, Option.filter_some, if_pos (by simp [hown])]

def otherConsumer : StoredConsumer := ⟨⟨"c2", "key2"⟩, "other"⟩

def otherDoc : StoredDoc := ⟨⟨"d2", some "c2", false⟩, DocRecord.defaultState⟩

/-- Two consumers each create a document, at the same time. -/
def tenantsRun : List ServerAction :=
  [.start 0 ⟨some "jwt", .createDoc .absent⟩, .start 1 ⟨some "jwt2", .createDoc .absent⟩] ++
    proceeds 0 2 sampleConsumer sampleDoc ++ proceeds 1 4 otherConsumer otherDoc ++
    proceeds 0 2 sampleConsumer sampleDoc

theorem tenants_apart_sample : ∃ s' t' : ApiPool, Stepper.run (apiServer sampleEnv).step
    (Async.Server.init ⟨[sampleConsumer, otherConsumer], [], []⟩) tenantsRun = some s' ∧
      s'.store.docs = [otherDoc, sampleDoc] ∧ SameFor "c1" s'.store t'.store := by
  have hnamed : ∀ id request, .start id request ∈ tenantsRun → request.endpoint.isDocs = true →
      NamesByText sampleEnv request := by
    intro id request hstart _ token claims value hauth hparse hvalue
    simp only [tenantsRun, proceeds, List.replicate, List.cons_append, List.nil_append, List.mem_cons,
      PoolAction.start.injEq, reduceCtorEq, List.not_mem_nil, or_false] at hstart
    rcases hstart with ⟨-, rfl⟩ | ⟨-, rfl⟩ <;> cases hauth <;> cases hparse <;> cases hvalue <;>
      exact ⟨_, rfl⟩
  obtain ⟨t', -, hsame, -⟩ := tenants_apart sampleEnv "c1"
    ⟨[sampleConsumer, otherConsumer], [], []⟩ tenantsRun _ rfl hnamed
  exact ⟨_, t', rfl, rfl, hsame⟩

end ApiServer

end AlaFois
