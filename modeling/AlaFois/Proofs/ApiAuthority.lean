import AlaFois.Model.ApiServer
import AlaFois.Proofs.ApiSpec

/-!
# On whose authority the API acts

What a request writes, and what it returns, it has checked itself for: its calls are allowed by what
the earlier ones have told it. This is a property of its code, so it holds in every interleaving with
other requests.
-/

namespace AlaFois

open Async (Performed Obeys)

/-- The calls of a request so far. -/
abbrev Told := List (Performed ApiCall ApiCall.Reply ApiError)

def Endpoint.isAdmin : Endpoint → Bool
  | .createConsumer _ | .getConsumer _ | .updateConsumer _ _ | .publicDoc | .devSetup => true
  | _ => false

/-- The handlers that look for a document by its id alone. -/
def Endpoint.findsAny : Endpoint → Bool
  | .getHistory _ | .docIsPublic _ => true
  | _ => false

namespace ApiServer

variable (env : ServerEnv)

/-- The request has the secret, and is for a handler of `AdminController`. -/
def ByAdmin (request : HttpRequest) : Prop :=
  request.endpoint.isAdmin = true ∧ AdminService.isAdmin env request.authorization = true

/-- The database has given the request the consumer as the one with this value for its id. -/
def Given (told : Told) (value : Json) (consumer : StoredConsumer) : Prop :=
  (∃ text, value = .text text ∧ env.objectId text = some consumer.id ∧
    ⟨.findConsumer consumer.id, .ok (some consumer)⟩ ∈ told) ∨
  (∀ text, value ≠ .text text) ∧ ⟨.queryConsumer value, .ok (some consumer)⟩ ∈ told

/-- A key that the database has given for the consumer of the JWT verifies it. -/
def Signed (told : Told) (token : String) (claims : Claims) : Prop :=
  ∃ value found, env.parseJWT token = some claims ∧ claims.signer = some value ∧
    Given env told value found ∧ env.verify token found.publicKey = true

/-- The request comes with a signed JWT, and has been given the consumer for the same value. -/
def Authenticated (request : HttpRequest) (told : Told) (consumer : StoredConsumer) : Prop :=
  ∃ token claims value, request.authorization = some token ∧ token ≠ "" ∧
    Signed env told token claims ∧ claims.signer = some value ∧ Given env told value consumer

/-- The document is public, or the request comes with a signed JWT of its owner that grants the
right to read it. -/
def MayRead (request : HttpRequest) (told : Told) (docId : String) : Prop :=
  ∃ id doc, env.objectId docId = some id ∧ ⟨.findDoc id, .ok (some doc)⟩ ∈ told ∧
    (doc.isPublic = true ∨ ∃ token claims owner, request.authorization = some token ∧ token ≠ "" ∧
      Signed env told token claims ∧ doc.owner = some owner ∧
      claims.consumerId = some (.text owner) ∧ claims.permission docId = some true)

/-- The request asks for the documents with these ids. -/
def Asks (request : HttpRequest) (ids : List String) : Prop :=
  ∃ value texts, request.endpoint = .getDocsByIds value ∧ value.ids = some texts ∧
    texts.mapM env.objectId = some ids

/-- The documents that `devSetup` and `publicDoc` create. -/
def AdminDoc (doc : OwnedDoc) : Prop :=
  (doc.owner = none ∧ doc.isPublic = true) ∨
    (doc.owner = env.objectId SetupService.devConsumerId ∧ doc.isPublic = false)

/-- The calls that a request may make. -/
def Allowed (request : HttpRequest) (told : Told) : ApiCall → Prop
  | .findConsumer _ | .queryConsumer _ => True
  | .newObjectId => request.endpoint.findsAny = false
  | .findDoc _ => request.endpoint.findsAny = true
  | .generateKeyPair | .insertConsumer _ | .saveConsumer _ _ _ => ByAdmin env request
  | .findDocs owner ids => Asks env request ids ∧
      ∃ consumer, Authenticated env request told consumer ∧ consumer.id = owner
  | .insertDoc doc => (ByAdmin env request ∧ AdminDoc env doc.toOwnedDoc) ∨
      ∃ consumer field, Authenticated env request told consumer ∧
        request.endpoint = .createDoc field ∧ field.flag = some doc.isPublic ∧
        doc.owner = some consumer.id
  | .findUpdates docId => request.endpoint = .getHistory docId ∧ MayRead env request told docId

/-- What a request may return. -/
def Response (request : HttpRequest) (told : Told) : Except ApiError ApiResponse → Prop
  | .error _ => True
  | .ok (.consumer _) | .ok (.devSetup _ _ _ _) => ByAdmin env request
  | .ok (.doc id) => ∃ doc : StoredDoc, ⟨.insertDoc doc, .ok ()⟩ ∈ told ∧ doc.id = id
  | .ok (.docs data) => ∃ consumer ids found, Authenticated env request told consumer ∧
      Asks env request ids ∧ ⟨.findDocs consumer.id ids, .ok found⟩ ∈ told ∧
      data = found.map StoredDoc.toDto
  | .ok (.history history) => ∃ docId, request.endpoint = .getHistory docId ∧
      MayRead env request told docId ∧ ⟨.findUpdates docId, .ok history⟩ ∈ told
  | .ok (.isPublic _) => ∃ docId, request.endpoint = .docIsPublic docId

/-- The code of a request obeys these rules. -/
abbrev Rules (request : HttpRequest) {α : Type} (post : Told → α → Prop) (told : Told)
    (a : ApiPromise α) : Prop :=
  Obeys (apiServer env).Possible (Allowed env request) (fun told r => ∀ x, r = .ok x → post told x)
    told a

variable {env} {request : HttpRequest} {told told' : Told} {α β : Type}

lemma Given.learn {value : Json} {consumer : StoredConsumer} (h : Given env told value consumer)
    (hsub : told ⊆ told') : Given env told' value consumer := by
  rcases h with ⟨text, hvalue, hcast, hfound⟩ | ⟨hvalue, hfound⟩
  · exact .inl ⟨text, hvalue, hcast, hsub hfound⟩
  · exact .inr ⟨hvalue, hsub hfound⟩

lemma Signed.learn {token : String} {claims : Claims} (h : Signed env told token claims)
    (hsub : told ⊆ told') : Signed env told' token claims := by
  obtain ⟨value, found, hparse, hsigner, hfound, hverify⟩ := h
  exact ⟨value, found, hparse, hsigner, hfound.learn hsub, hverify⟩

lemma Authenticated.learn {consumer : StoredConsumer}
    (h : Authenticated env request told consumer) (hsub : told ⊆ told') :
    Authenticated env request told' consumer := by
  obtain ⟨token, claims, value, hauth, hne, hsigned, hsigner, hfound⟩ := h
  exact ⟨token, claims, value, hauth, hne, hsigned.learn hsub, hsigner, hfound.learn hsub⟩

lemma MayRead.learn {docId : String} (h : MayRead env request told docId) (hsub : told ⊆ told') :
    MayRead env request told' docId := by
  obtain ⟨id, doc, hcast, hdoc, hpublic | ⟨token, claims, owner, hauth, hne, hsigned, hrest⟩⟩ := h
  · exact ⟨id, doc, hcast, hsub hdoc, .inl hpublic⟩
  · exact ⟨id, doc, hcast, hsub hdoc,
      .inr ⟨token, claims, owner, hauth, hne, hsigned.learn hsub, hrest⟩⟩

lemma Allowed.learn {call : ApiCall} (h : Allowed env request told call) (hsub : told ⊆ told') :
    Allowed env request told' call := by
  cases call with
  | findDocs owner ids =>
    obtain ⟨hasks, consumer, hconsumer, hid⟩ := h
    exact ⟨hasks, consumer, hconsumer.learn hsub, hid⟩
  | insertDoc doc =>
    rcases h with hadmin | ⟨consumer, field, hconsumer, hrest⟩
    · exact .inl hadmin
    · exact .inr ⟨consumer, field, hconsumer.learn hsub, hrest⟩
  | findUpdates docId => exact ⟨h.1, h.2.learn hsub⟩
  | _ => exact h

/-! ### Rules for the operations -/

lemma rules_pure {post : Told → α → Prop} {x : α} (h : ∀ told', told ⊆ told' → post told' x) :
    Rules env request post told (pure x) := by
  intro told' hsub y hy
  cases hy
  exact h told' hsub

lemma rules_throw {post : Told → α → Prop} {e : ApiError} :
    Rules env request post told (Async.throw e) := by
  intro told' hsub y hy
  cases hy

lemma rules_bind {mid : Told → α → Prop} {post : Told → β → Prop} {a : ApiPromise α}
    {f : α → ApiPromise β} (ha : Rules env request mid told a)
    (hf : ∀ told' x, told ⊆ told' → mid told' x → Rules env request post told' (f x)) :
    Rules env request post told (a >>= f) :=
  Obeys.andThen (fun _ _ _ h => by cases h) ha hf

/-- An operation returns what the database has told. -/
lemma rules_await (call : ApiCall) (h : ∀ told', told ⊆ told' → Allowed env request told' call) :
    Rules env request (fun told x => ⟨call, .ok x⟩ ∈ told ∧ (apiServer env).Possible call (.ok x))
      told (Async.await call) := by
  refine Obeys.await h fun told' outcome hsub hpossible hmem x hx => ?_
  subst hx
  exact ⟨hmem, hpossible⟩

lemma rules_castId {id : String} :
    Rules env request (fun _ x => env.objectId id = some x) told (castId env id) := by
  unfold castId
  split
  · exact rules_throw
  · rename_i x hx
    exact rules_pure fun _ _ => hx

lemma rules_chooseId {id : Option String} (hany : request.endpoint.findsAny = false) :
    Rules env request (fun _ x => id = none ∨ id = some "" ∨ ∃ text, id = some text ∧
      env.objectId text = some x) told (chooseId env id) := by
  refine rules_bind (rules_await .newObjectId fun _ _ => hany) fun told' fresh _ _ => ?_
  cases id with
  | none => exact rules_pure fun _ _ => .inl rfl
  | some text =>
    by_cases hempty : text = ""
    · simp only [if_pos hempty]
      exact rules_pure fun _ _ => .inr (.inl (congrArg some hempty))
    · simp only [if_neg hempty]
      exact rules_castId.mono fun _ r _ h x hx => .inr (.inr ⟨text, rfl, h x hx⟩)

/-! ### Rules for the services -/

/-- A consumer that is found has the id. -/
lemma id_of_possible {id : String} {consumer : StoredConsumer}
    (h : (apiServer env).Possible (.findConsumer id) (.ok (some consumer))) : consumer.id = id := by
  obtain ⟨s, s', h⟩ := h
  obtain ⟨h, -⟩ := Option.ite_none_right_eq_some.mp h
  simpa using List.find?_some h.symm

lemma rules_queryConsumer {value : Json} (hvalue : ∀ text, value ≠ .text text) :
    Rules env request (fun told r => ∀ consumer, r = some consumer → Given env told value consumer)
      told (if (env.operators value).isNone then .throw .other
        else Async.await (ApiCall.queryConsumer value)) := by
  split
  · exact rules_throw
  · refine (rules_await (.queryConsumer value) fun _ _ => trivial).mono fun told' r _ h x hx => ?_
    rintro consumer rfl
    exact .inr ⟨hvalue, (h _ hx).1⟩

lemma rules_findOne {value : Json} :
    Rules env request (fun told r => ∀ consumer, r = some consumer → Given env told value consumer)
      told (ConsumerModel.findOne env value) := by
  cases value with
  | text text =>
    refine rules_bind rules_castId fun told' id _ hcast => ?_
    refine (rules_await (.findConsumer id) fun _ _ => trivial).mono fun told'' r _ h x hx => ?_
    rintro consumer rfl
    obtain ⟨hmem, hpossible⟩ := h _ hx
    obtain rfl := id_of_possible hpossible
    exact .inl ⟨text, rfl, hcast, hmem⟩
  | null => exact rules_queryConsumer nofun
  | boolean => exact rules_queryConsumer nofun
  | number => exact rules_queryConsumer nofun
  | array => exact rules_queryConsumer nofun
  | object => exact rules_queryConsumer nofun

lemma rules_checkJWT {token : String} :
    Rules env request (fun told r => ∀ claims, r = some claims → Signed env told token claims) told
      (AuthService.checkJWT env token) := by
  unfold AuthService.checkJWT
  split
  · exact rules_pure fun _ _ _ h => by cases h
  · rename_i claims hparse
    split
    · exact rules_pure fun _ _ _ h => by cases h
    · rename_i value hsigner
      refine rules_bind rules_findOne fun told' found _ hfound => ?_
      refine rules_pure fun told'' hsub claims' hclaims => ?_
      obtain ⟨hparse', c, hc, hverify⟩ := checkJWT_eq_some hclaims
      rw [hparse] at hparse'
      cases hparse'
      obtain ⟨consumer, rfl, rfl⟩ := Option.map_eq_some_iff.mp hc
      exact ⟨value, consumer, hparse, hsigner, (hfound consumer rfl).learn hsub, hverify⟩

lemma consumerId_of_signer {claims : Claims} {value : Json} (h : claims.signer = some value) :
    claims.consumerId = some value := (Option.filter_eq_some_iff.mp h).1

lemma rules_getCurrentConsumer :
    Rules env request (fun told r => ∀ consumer, r = some consumer →
      Authenticated env request told consumer) told
      (ConsumerService.getCurrentConsumer env request.authorization) := by
  unfold ConsumerService.getCurrentConsumer
  split
  · exact rules_pure fun _ _ _ h => by cases h
  · rename_i token hauth
    by_cases hempty : token = ""
    · simp only [if_pos hempty]
      exact rules_pure fun _ _ _ h => by cases h
    · simp only [if_neg hempty]
      refine rules_bind rules_checkJWT fun told' payload _ hpayload => ?_
      cases payload with
      | none => exact rules_throw
      | some claims =>
        have hsigned := hpayload claims rfl
        obtain ⟨value, found, hparse, hsigner, hrest⟩ := id hsigned
        simp only [consumerId_of_signer hsigner, Option.getD_some]
        refine rules_findOne.mono fun told'' r hsub h x hx => ?_
        intro consumer hconsumer
        exact ⟨token, claims, value, hauth, hempty, hsigned.learn hsub, hsigner,
          h x hx consumer hconsumer⟩

lemma rules_getClientCredentials :
    Rules env request (fun told r => ∀ claims, r = some claims → ∃ token,
      request.authorization = some token ∧ token ≠ "" ∧ Signed env told token claims) told
      (ClientService.getClientCredentials env request.authorization) := by
  unfold ClientService.getClientCredentials
  split
  · exact rules_pure fun _ _ _ h => by cases h
  · rename_i token hauth
    by_cases hempty : token = ""
    · simp only [if_pos hempty]
      exact rules_pure fun _ _ _ h => by cases h
    · simp only [if_neg hempty]
      refine rules_bind rules_checkJWT fun told' payload _ hpayload => ?_
      cases payload with
      | none => exact rules_throw
      | some claims =>
        refine rules_pure fun told'' hsub claims' h => ?_
        cases h
        exact ⟨token, hauth, hempty, (hpayload claims rfl).learn hsub⟩

/-! ### Rules for the endpoints -/

lemma rules_consumerGuard {post : Told → α → Prop} {handler : StoredConsumer → ApiPromise α}
    (h : ∀ told' consumer, told ⊆ told' → Authenticated env request told' consumer →
      Rules env request post told' (handler consumer)) :
    Rules env request post told (ConsumerGuard.guarded env request.authorization handler) := by
  refine rules_bind rules_getCurrentConsumer fun told' consumer hsub hconsumer => ?_
  cases consumer with
  | none => exact rules_throw
  | some consumer => exact h told' consumer hsub (hconsumer consumer rfl)

lemma rules_adminGuard {post : Told → α → Prop} {handler : ApiPromise α}
    (hendpoint : request.endpoint.isAdmin = true)
    (h : ByAdmin env request → Rules env request post told handler) :
    Rules env request post told (AdminGuard.guarded env request.authorization handler) := by
  unfold AdminGuard.guarded
  split
  · rename_i hadmin
    exact h ⟨hendpoint, hadmin⟩
  · exact rules_throw

lemma findsAny_of_byAdmin (h : ByAdmin env request) : request.endpoint.findsAny = false := by
  obtain ⟨hadmin, -⟩ := h
  cases hend : request.endpoint <;> simp_all [Endpoint.isAdmin, Endpoint.findsAny]

lemma rules_adminGetConsumer {id : String} :
    Rules env request (fun _ _ => True) told (AdminService.getConsumer env id) :=
  rules_bind rules_castId fun _ _ _ _ =>
    (rules_await (.findConsumer _) fun _ _ => trivial).mono fun _ _ _ _ _ _ => trivial

section Admin

variable (hadmin : ByAdmin env request)

include hadmin

lemma rules_createConsumer {name publicKey : String} {id : Option String} :
    Rules env request (fun _ _ => True) told (AdminService.createConsumer env name publicKey id) :=
  rules_bind (rules_chooseId (findsAny_of_byAdmin hadmin)) fun _ _ _ _ =>
    rules_bind (rules_await (.insertConsumer _) fun _ _ => hadmin) fun _ _ _ _ =>
      rules_pure fun _ _ => trivial

lemma rules_updateConsumer {id : String} {publicKey name : Option String} :
    Rules env request (fun _ _ => True) told
      (AdminService.updateConsumer env id publicKey name) := by
  refine rules_bind rules_adminGetConsumer fun told' consumer _ _ => ?_
  cases consumer with
  | none => exact rules_pure fun _ _ => trivial
  | some consumer =>
    by_cases hgiven : AdminService.given publicKey = none ∧ AdminService.given name = none
    · simp only [if_pos hgiven]
      exact rules_pure fun _ _ => trivial
    · simp only [if_neg hgiven]
      exact rules_bind (rules_await (.saveConsumer _ _ _) fun _ _ => hadmin) fun _ _ _ _ =>
        rules_pure fun _ _ => trivial

lemma rules_createConsumerWithKey {name : String} {id : Option String} :
    Rules env request (fun _ _ => True) told (AdminService.createConsumerWithKey env name id) :=
  rules_bind (rules_await .generateKeyPair fun _ _ => hadmin) fun _ _ _ _ =>
    rules_bind (rules_createConsumer hadmin) fun _ _ _ _ => rules_pure fun _ _ => trivial

lemma rules_regenerateKeys {id : String} :
    Rules env request (fun _ _ => True) told (AdminService.regenerateKeys env id) := by
  refine rules_bind rules_adminGetConsumer fun told' consumer _ _ => ?_
  cases consumer with
  | none => exact rules_pure fun _ _ => trivial
  | some consumer =>
    exact rules_bind (rules_await .generateKeyPair fun _ _ => hadmin) fun _ _ _ _ =>
      rules_bind (rules_await (.saveConsumer _ _ _) fun _ _ => hadmin) fun _ _ _ _ =>
        rules_pure fun _ _ => trivial

/-- What is created is what is returned. -/
lemma rules_createPublicDoc {id : Option String} :
    Rules env request (fun told doc => ⟨.insertDoc doc, .ok ()⟩ ∈ told) told
      (AdminService.createPublicDoc env id) := by
  refine rules_bind (rules_chooseId (findsAny_of_byAdmin hadmin)) fun told' id _ _ => ?_
  refine rules_bind (rules_await (.insertDoc _) fun _ _ => .inl ⟨hadmin, .inl ⟨rfl, rfl⟩⟩)
    fun told'' u _ hmem => rules_pure fun _ hsub => hsub hmem.1

lemma rules_createPrivateDoc {id : String} :
    Rules env request (fun told doc => ⟨.insertDoc doc, .ok ()⟩ ∈ told) told
      (AdminService.createPrivateDoc env SetupService.devConsumerId id) := by
  refine rules_bind rules_castId fun told' id _ _ => ?_
  refine rules_bind rules_castId fun told'' owner _ howner => ?_
  refine rules_bind (rules_await (.insertDoc _) fun _ _ =>
    .inl ⟨hadmin, .inr ⟨howner.symm, rfl⟩⟩) fun told₃ u _ hmem => rules_pure fun _ hsub => hsub hmem.1

lemma rules_setupConsumer :
    Rules env request (fun _ _ => True) told (SetupService.setupConsumer env) := by
  refine Obeys.orElse (rules_createConsumerWithKey hadmin) fun told' e _ => ?_
  refine rules_bind (rules_regenerateKeys hadmin) fun told'' result _ _ => ?_
  cases result with
  | none => exact rules_throw
  | some result => exact rules_pure fun _ _ => trivial

lemma rules_setupDoc {id : String} {isPublic : Bool} :
    Rules env request (fun _ _ => True) told (SetupService.setupDoc env id isPublic) := by
  refine Obeys.orElse ?_ fun told' e _ => rules_pure fun _ _ => trivial
  cases isPublic with
  | true =>
    exact rules_bind (rules_createPublicDoc hadmin) fun _ _ _ _ => rules_pure fun _ _ => trivial
  | false =>
    exact rules_bind (rules_createPrivateDoc hadmin) fun _ _ _ _ => rules_pure fun _ _ => trivial

lemma rules_devSetup : Rules env request (fun told x => Response env request told (.ok x)) told
    (AdminController.devSetup env) := by
  refine rules_bind (rules_setupConsumer hadmin) fun told₁ result _ _ => ?_
  refine rules_bind (rules_setupDoc hadmin) fun told₂ editorDoc _ _ => ?_
  refine rules_bind (rules_setupDoc hadmin) fun told₃ editorPrivateDoc _ _ => ?_
  refine rules_bind (rules_setupDoc hadmin) fun told₄ canvasDoc _ _ => ?_
  refine rules_bind (rules_setupDoc hadmin) fun told₅ switch1Doc _ _ => ?_
  refine rules_bind (rules_setupDoc hadmin) fun told₆ switch2Doc _ _ => ?_
  exact rules_pure fun _ _ => hadmin

lemma rules_publicDoc : Rules env request (fun told x => Response env request told (.ok x)) told
    (AdminController.publicDoc env) :=
  rules_bind (rules_createPublicDoc hadmin) fun _ doc _ hmem =>
    rules_pure fun _ hsub => ⟨doc, hsub hmem, rfl⟩

lemma rules_adminCreateConsumer {payload : CreateConsumerDto} :
    Rules env request (fun told x => Response env request told (.ok x)) told
      (AdminController.createConsumer env payload) := by
  unfold AdminController.createConsumer
  split
  · exact rules_bind (rules_createConsumer hadmin) fun _ _ _ _ => rules_pure fun _ _ => hadmin
  · exact rules_throw

lemma rules_adminGet {id : String} :
    Rules env request (fun told x => Response env request told (.ok x)) told
      (AdminController.getConsumer env id) := by
  refine rules_bind rules_adminGetConsumer fun told' consumer _ _ => ?_
  cases consumer with
  | none => exact rules_throw
  | some consumer => exact rules_pure fun _ _ => hadmin

lemma rules_adminUpdate {id : String} {payload : UpdateConsumerDto} :
    Rules env request (fun told x => Response env request told (.ok x)) told
      (AdminController.updateConsumer env id payload) := by
  unfold AdminController.updateConsumer
  split
  · refine rules_bind (rules_updateConsumer hadmin) fun told' consumer _ _ => ?_
    cases consumer with
    | none => exact rules_throw
    | some consumer => exact rules_pure fun _ _ => hadmin
  · exact rules_throw

end Admin

lemma rules_getDocsByIds {value : QueryValue} {consumer : StoredConsumer}
    (hendpoint : request.endpoint = .getDocsByIds value)
    (hconsumer : Authenticated env request told consumer) :
    Rules env request (fun told x => Response env request told (.ok x)) told
      (DocsController.getDocsByIds env value consumer) := by
  unfold DocsController.getDocsByIds
  split
  · exact rules_throw
  · rename_i texts htexts
    unfold DocsService.getDocsByIds
    split
    · exact rules_throw
    · rename_i ids hids
      have hasks : Asks env request ids := ⟨value, texts, hendpoint, htexts, hids⟩
      refine rules_bind (rules_await (.findDocs consumer.id ids) fun told' hsub =>
        ⟨hasks, consumer, hconsumer.learn hsub, rfl⟩) fun told' docs hsub hdocs => ?_
      exact rules_pure fun told'' hsub' => ⟨consumer, ids, docs,
        hconsumer.learn (List.Subset.trans hsub hsub'), hasks, hsub' hdocs.1, rfl⟩

lemma rules_docsCreateDoc {field : BodyField} {isPublic : Bool} {consumer : StoredConsumer}
    (hendpoint : request.endpoint = .createDoc field) (hflag : field.flag = some isPublic)
    (hconsumer : Authenticated env request told consumer) :
    Rules env request (fun told id => ∃ doc : StoredDoc, ⟨.insertDoc doc, .ok ()⟩ ∈ told ∧
      doc.id = id) told (DocsService.createDoc env consumer.id isPublic) := by
  have hany : request.endpoint.findsAny = false := by rw [hendpoint]; rfl
  refine rules_bind (rules_chooseId hany) fun told₁ id hsub₁ _ => ?_
  refine rules_bind (rules_await (.insertDoc _) fun told₂ hsub₂ => .inr ⟨consumer, field,
    hconsumer.learn (List.Subset.trans hsub₁ hsub₂), hendpoint, hflag, rfl⟩) fun told₂ u _ hmem => ?_
  exact rules_pure fun told₃ hsub => ⟨_, hsub hmem.1, rfl⟩

lemma rules_createDoc {field : BodyField} {consumer : StoredConsumer}
    (hendpoint : request.endpoint = .createDoc field)
    (hconsumer : Authenticated env request told consumer) :
    Rules env request (fun told x => Response env request told (.ok x)) told
      (DocsController.createDoc env field consumer) := by
  unfold DocsController.createDoc
  split
  · exact rules_throw
  · rename_i isPublic hflag
    refine rules_bind (rules_docsCreateDoc hendpoint hflag hconsumer) fun told' id _ hid => ?_
    obtain ⟨doc, hmem, hdoc⟩ := hid
    exact rules_pure fun told'' hsub => ⟨doc, hsub hmem, hdoc⟩

lemma rules_served {docId : String} (hendpoint : request.endpoint = .getHistory docId)
    (h : MayRead env request told docId) :
    Rules env request (fun told x => Response env request told (.ok x)) told
      (HistoryController.served docId) := by
  refine rules_bind (rules_await (.findUpdates docId) fun told' hsub =>
    ⟨hendpoint, h.learn hsub⟩) fun told' history hsub hmem => ?_
  exact rules_pure fun told'' hsub' =>
    ⟨docId, hendpoint, h.learn (List.Subset.trans hsub hsub'), hsub' hmem.1⟩

lemma rules_getHistory {docId : String} (hendpoint : request.endpoint = .getHistory docId) :
    Rules env request (fun told x => Response env request told (.ok x)) told
      (HistoryController.getHistory env docId request.authorization) := by
  refine rules_bind rules_castId fun told₁ id _ hcast => ?_
  have hany : request.endpoint.findsAny = true := by rw [hendpoint]; rfl
  refine rules_bind (rules_await (.findDoc id) fun _ _ => hany) fun told₂ doc _ hdoc => ?_
  cases doc with
  | none => exact rules_throw
  | some doc =>
    dsimp only
    by_cases hpublic : doc.isPublic = true
    · rw [if_pos hpublic]
      exact rules_served hendpoint ⟨id, doc, hcast, hdoc.1, .inl hpublic⟩
    · rw [if_neg hpublic]
      refine rules_bind rules_getClientCredentials fun told₃ credentials hsub hclaims => ?_
      cases credentials with
      | none => exact rules_throw
      | some claims =>
        obtain ⟨token, hauth, hne, hsigned⟩ := hclaims claims rfl
        cases howner : doc.owner with
        | none => exact rules_throw
        | some owner =>
          dsimp only
          split
          · exact rules_throw
          · rename_i hsame
            split
            · exact rules_throw
            · rename_i granted hperm
              cases granted with
              | false => exact rules_throw
              | true =>
                exact rules_served hendpoint ⟨id, doc, hcast, hsub hdoc.1, .inr ⟨token, claims, owner,
                  hauth, hne, hsigned, howner, not_not.mp hsame, hperm⟩⟩

lemma rules_docIsPublic {docId : String} (hendpoint : request.endpoint = .docIsPublic docId) :
    Rules env request (fun told x => Response env request told (.ok x)) told
      (MicroserviceController.docIsPublic env docId) := by
  have hany : request.endpoint.findsAny = true := by rw [hendpoint]; rfl
  refine rules_bind rules_castId fun told₁ id _ _ => ?_
  refine rules_bind (rules_await (.findDoc id) fun _ _ => hany) fun told₂ doc _ _ => ?_
  exact rules_pure fun _ _ => ⟨docId, hendpoint⟩

/-- The code of every request obeys the rules. -/
theorem handle_obeys (env : ServerEnv) (request : HttpRequest) :
    Obeys (apiServer env).Possible (Allowed env request) (Response env request) []
      (handle env request) := by
  have h : Rules env request (fun told x => Response env request told (.ok x)) []
      (handle env request) := by
    unfold handle
    split
    · rename_i payload hendpoint
      exact rules_adminGuard (by rw [hendpoint]; rfl) fun hadmin => rules_adminCreateConsumer hadmin
    · rename_i id hendpoint
      exact rules_adminGuard (by rw [hendpoint]; rfl) fun hadmin => rules_adminGet hadmin
    · rename_i id payload hendpoint
      exact rules_adminGuard (by rw [hendpoint]; rfl) fun hadmin => rules_adminUpdate hadmin
    · rename_i hendpoint
      exact rules_adminGuard (by rw [hendpoint]; rfl) fun hadmin => rules_publicDoc hadmin
    · rename_i hendpoint
      exact rules_adminGuard (by rw [hendpoint]; rfl) fun hadmin => rules_devSetup hadmin
    · rename_i value hendpoint
      exact rules_consumerGuard fun told' consumer _ hconsumer =>
        rules_getDocsByIds hendpoint hconsumer
    · rename_i field hendpoint
      exact rules_consumerGuard fun told' consumer _ hconsumer => rules_createDoc hendpoint hconsumer
    · rename_i docId hendpoint
      exact rules_getHistory hendpoint
    · rename_i docId hendpoint
      exact rules_docIsPublic hendpoint
  refine h.mono fun told' r _ hr => ?_
  cases r with
  | error e => trivial
  | ok x => exact hr x rfl

end ApiServer

end AlaFois
