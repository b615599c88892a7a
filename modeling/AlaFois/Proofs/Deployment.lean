import AlaFois.Model.Deployment
import AlaFois.Proofs.ApiRuns
import AlaFois.Proofs.ApiSpec
import AlaFois.Proofs.Disconnection
import AlaFois.Proofs.Ownership

/-!
# Rights come from the owners

Every table of rights that a connection has goes back to the owner of its documents: the owner has
signed the JWT that `checkClientToken` has accepted, or is the consumer whose request `updateToken`
has published. And no connection has a token that lives longer than a token may.
-/

namespace AlaFois

/-- The payload that a `checkClientToken` call has admitted. -/
def CheckStage.admitted : CheckStage → Option (JWTPayload Json)
  | .admitting => none
  | .finding payload | .found payload _ => some payload

/-- The caller meets `A`, and the tokens that are left to the second loop meet `Q`. -/
def UpdateCall.Vouched (A : ConsumerId → Prop) (Q : ConsumerId → ParsedToken → Prop)
    (call : UpdateCall) : Prop :=
  A call.consumer ∧ ∀ t ∈ call.todo, Q call.consumer t

namespace Api

/-- What is true of a token since it has been admitted: `P` in `checkClientToken` and `Q` in
`updateToken`, whose callers meet `A`. -/
structure Vouched (P : String → JWTPayload Json → Prop) (A : ConsumerId → Prop)
    (Q : ConsumerId → ParsedToken → Prop) (s : Api) : Prop where
  checks : ∀ id call, s.checks.get id = some call → ∀ payload ∈ call.stage.admitted,
    P call.jwt payload
  responses : ∀ id jwt payload, (id, jwt, .ok payload) ∈ s.checkResponses → P jwt payload
  updates : ∀ id call, s.updates.get id = some call → call.Vouched A Q
  published : ∀ m ∈ s.published, ∃ t, m.message = t.message ∧ Q m.consumer t

variable {env : ApiEnv} {s s' : Api} {P P' : String → JWTPayload Json → Prop}
  {A A' : ConsumerId → Prop} {Q Q' : ConsumerId → ParsedToken → Prop}

lemma vouched_init : init.Vouched P A Q where
  checks id call h := by simp [init] at h
  responses id jwt payload h := by simp [init] at h
  updates id call h := by simp [init] at h
  published m h := by simp [init] at h

lemma Vouched.mono (h : s.Vouched P A Q) (hP : ∀ jwt payload, P jwt payload → P' jwt payload)
    (hA : ∀ consumer, A consumer → A' consumer)
    (hQ : ∀ consumer t, Q consumer t → Q' consumer t) : s.Vouched P' A' Q' where
  checks id call hget payload hp := hP _ _ (h.checks id call hget payload hp)
  responses id jwt payload hr := hP _ _ (h.responses id jwt payload hr)
  updates id call hget :=
    (h.updates id call hget).imp (hA _) fun hall t ht => hQ _ _ (hall t ht)
  published m hm := by
    obtain ⟨t, hmessage, ht⟩ := h.published m hm
    exact ⟨t, hmessage, hQ _ _ ht⟩

lemma Vouched.checkStart (h : s.Vouched P A Q) (jwt : String) :
    (s.checkStart jwt).Vouched P A Q := by
  refine ⟨fun id' call hget payload hp => ?_, h.responses, h.updates, h.published⟩
  simp only [Api.checkStart, JsMap.get_set] at hget
  split at hget
  · cases hget
    cases hp
  · exact h.checks id' call hget payload hp

lemma Vouched.updateStart (h : s.Vouched P A Q) {consumer : ConsumerId} (hA : A consumer)
    (tokens : List String) : (s.updateStart consumer tokens).Vouched P A Q := by
  refine ⟨h.checks, h.responses, fun id' call hget => ?_, h.published⟩
  simp only [Api.updateStart, JsMap.get_set] at hget
  split at hget
  · cases hget
    exact ⟨hA, fun t ht => by cases ht⟩
  · exact h.updates id' call hget

lemma Vouched.setCheck (h : s.Vouched P A Q) {id : Nat} {jwt : String} {stage : CheckStage}
    (hstage : ∀ payload ∈ stage.admitted, P jwt payload) :
    (s.setCheck id jwt stage).Vouched P A Q := by
  refine ⟨fun id' call hget payload hp => ?_, h.responses, h.updates, h.published⟩
  simp only [Api.setCheck, JsMap.get_set] at hget
  split at hget
  · cases hget
    exact hstage payload hp
  · exact h.checks id' call hget payload hp

lemma Vouched.respond (h : s.Vouched P A Q) {id : Nat} {jwt : String}
    {response : CheckClientTokenResponse (JWTPayload Json)}
    (hok : ∀ payload, response = .ok payload → P jwt payload) :
    (s.respond id jwt response).Vouched P A Q := by
  refine ⟨fun id' call hget payload hp => ?_, fun id' jwt' payload hr => ?_, h.updates, h.published⟩
  · simp only [Api.respond, JsMap.get_delete] at hget
    split at hget
    · cases hget
    · exact h.checks id' call hget payload hp
  · rcases List.mem_append.mp hr with hr | hr
    · exact h.responses id' jwt' payload hr
    · cases List.mem_singleton.mp hr
      exact hok payload rfl

lemma Vouched.setUpdate (h : s.Vouched P A Q) {id : Nat} {call : UpdateCall}
    (hcall : call.Vouched A Q) : (s.setUpdate id call).Vouched P A Q := by
  refine ⟨h.checks, h.responses, fun id' call' hget => ?_, h.published⟩
  simp only [Api.setUpdate, JsMap.get_set] at hget
  split at hget
  · cases hget
    exact hcall
  · exact h.updates id' call' hget

lemma Vouched.reply (h : s.Vouched P A Q) (id : Nat) (response : UpdateTokenResponse) :
    (s.reply id response).Vouched P A Q := by
  refine ⟨h.checks, h.responses, fun id' call hget => ?_, h.published⟩
  simp only [Api.reply, JsMap.get_delete] at hget
  split at hget
  · cases hget
  · exact h.updates id' call hget

lemma Vouched.nextToken (h : s.Vouched P A Q) {id : Nat} {call : UpdateCall}
    (hcall : call.Vouched A Q) : (s.nextToken id call).Vouched P A Q := by
  unfold Api.nextToken
  split
  · have hs : Vouched P A Q { s with returned := s.returned ++ call.done } :=
      ⟨h.checks, h.responses, h.updates, h.published⟩
    exact hs.reply id .ok
  · exact h.setUpdate hcall

/-- What is true of every token that is admitted is true of what is answered and published. -/
lemma Vouched.step (h : s.Vouched P A Q) {a : ApiAction} (hs : s.step env a = some s')
    (hcheck : ∀ id consumer now owned, a = .checkAdmit id consumer now owned →
      ∀ call, s.checks.get id = some call → ∀ payload,
        admitClientToken env call.jwt consumer now owned = .ok payload → P call.jwt payload)
    (hstart : ∀ consumer tokens, a = .updateStart consumer tokens → A consumer)
    (hupdate : ∀ id consumer now owned, a = .updateAdmit id consumer now owned →
      ∀ call, s.updates.get id = some call → ∀ jwt tokens, call.stage = .checking (jwt :: tokens) →
        A call.consumer → ∀ t, admitUpdate env jwt consumer now owned = .ok t → Q call.consumer t) :
    s'.Vouched P A Q := by
  cases a with
  | checkAdmit id consumer now owned =>
    obtain ⟨call, hget, hs⟩ := Option.bind_eq_some_iff.mp hs
    obtain ⟨status, rfl⟩ | ⟨payload, hadmitted, rfl⟩ := checkAdmit_eq_some hs
    · exact h.respond fun payload hp => by cases hp
    · refine h.setCheck fun payload' hp => ?_
      cases hp
      exact hcheck id consumer now owned rfl call hget payload hadmitted
  | updateAdmit id consumer now owned =>
    obtain ⟨call, hget, hs⟩ := Option.bind_eq_some_iff.mp hs
    obtain rfl | ⟨response, rfl⟩ | ⟨jwt, tokens, t, hstage, hadmitted, rfl⟩ :=
      updateAdmit_eq_some hs
    · exact h.nextToken (h.updates id call hget)
    · exact h.reply id response
    · obtain ⟨hcaller, hall⟩ := h.updates id call hget
      refine h.setUpdate ⟨hcaller, fun t' ht' => ?_⟩
      rcases List.mem_append.mp ht' with ht' | ht'
      · exact hall t' ht'
      · cases List.mem_singleton.mp ht'
        exact hupdate id consumer now owned rfl call hget jwt tokens hstage hcaller t hadmitted
  | checkStart jwt =>
    cases hs
    exact h.checkStart jwt
  | checkFind id token =>
    cases step_cases hs with
    | checkFound _ call payload _ hget hstage hfind =>
      refine h.setCheck fun payload' hp => h.checks id call hget payload' ?_
      rw [hstage]
      exact hp
  | checkFinish id =>
    cases step_cases hs with
    | checkInserting _ call payload hget hstage =>
      have hs : Vouched P A Q { s with creates := recordOf payload :: s.creates } :=
        ⟨h.checks, h.responses, h.updates, h.published⟩
      refine hs.respond fun payload' hp => ?_
      cases hp
      exact h.checks id call hget payload (by rw [hstage]; rfl)
    | checkFailed _ call status hget => exact h.respond fun payload hp => by cases hp
    | checkAccepted _ call payload token hget hstage htaint =>
      refine h.respond fun payload' hp => ?_
      cases hp
      exact h.checks id call hget payload (by rw [hstage]; rfl)
  | created record =>
    cases step_cases hs with
    | created _ hmem => exact ⟨h.checks, h.responses, h.updates, h.published⟩
  | updateStart consumer tokens =>
    cases hs
    exact h.updateStart (hstart consumer tokens rfl) tokens
  | updateFind id token =>
    cases step_cases hs with
    | updateConflict _ record => exact h.reply id _
    | updateNew _ call t rest hget htodo hfind => exact h.setUpdate (h.updates id call hget)
  | updateTaint id =>
    cases step_cases hs with
    | updateTainted _ call t rest hget hstage htodo =>
      have hs : Vouched P A Q { s with tokens := s.tokens.map (taintOld t) } :=
        ⟨h.checks, h.responses, h.updates, h.published⟩
      exact hs.setUpdate (h.updates id call hget)
  | updateCreate id =>
    cases step_cases hs with
    | updateCreated _ call t rest hget hstage htodo =>
      have hs : Vouched P A Q { s with tokens := s.tokens ++ [t.record] } :=
        ⟨h.checks, h.responses, h.updates, h.published⟩
      exact hs.setUpdate (h.updates id call hget)
  | updatePublish id =>
    cases step_cases hs with
    | updatePublished _ call t rest hget hstage htodo =>
      obtain ⟨hcaller, hall⟩ := h.updates id call hget
      rw [htodo] at hall
      have hs : Vouched P A Q
          { s with published := s.published ++ [⟨call.consumer, t.message⟩] } := by
        refine ⟨h.checks, h.responses, h.updates, fun m hm => ?_⟩
        rcases List.mem_append.mp hm with hm | hm
        · exact h.published m hm
        · cases List.mem_singleton.mp hm
          exact ⟨t, rfl, hall t List.mem_cons_self⟩
      exact hs.nextToken ⟨hcaller, fun t' ht' => hall t' (List.mem_cons_of_mem _ ht')⟩

end Api

/-- The connection has no rights and no token, or those of a token for which `T` holds. -/
def WebSocketConnection.Bears (T : List AccessData → Int → Prop) (conn : WebSocketConnection) :
    Prop :=
  (conn.access.getD .empty = .empty ∧ conn.tokenExpiredAt = none ∧ conn.tokenId = none) ∨
    ∃ docs ms, conn.access = some (createAccessObject docs) ∧
      conn.tokenExpiredAt = some (.time ms) ∧ T docs ms

namespace Node

/-- `T` holds for every token of a connection, and for every one that a handler is to apply. -/
structure Vouched (T : List AccessData → Int → Prop) (n : Node) : Prop where
  calls : ∀ call ∈ n.calls, ∀ payload, call.payload = some payload →
    ∃ ms, payload.expiredAt = some (.time ms) ∧ T payload.docs ms
  conns : ∀ c, (n.proxy.conns c).Bears T

variable {n n' : Node} {T T' : List AccessData → Int → Prop}

lemma vouched_init : init.Vouched T where
  calls call h := by cases h
  conns c := .inl ⟨rfl, rfl, rfl⟩

lemma Vouched.mono (h : n.Vouched T) (hT : ∀ docs ms, T docs ms → T' docs ms) : n.Vouched T' where
  calls call hcall payload hp := by
    obtain ⟨ms, hms, ht⟩ := h.calls call hcall payload hp
    exact ⟨ms, hms, hT _ _ ht⟩
  conns c := by
    rcases h.conns c with hnone | ⟨docs, ms, haccess, hms, ht⟩
    · exact .inl hnone
    · exact .inr ⟨docs, ms, haccess, hms, hT _ _ ht⟩

/-- A proxy whose connections have the tokens they had. -/
lemma Vouched.withProxy (h : n.Vouched T) {q : Proxy} {calls : List HandlerCall}
    (hcalls : ∀ call ∈ calls, call ∈ n.calls)
    (hconns : ∀ c, (q.conns c).access = (n.proxy.conns c).access ∧
      (q.conns c).tokenExpiredAt = (n.proxy.conns c).tokenExpiredAt ∧
      (q.conns c).tokenId = (n.proxy.conns c).tokenId) :
    (⟨q, calls⟩ : Node).Vouched T where
  calls call hcall := h.calls call (hcalls call hcall)
  conns c := by
    obtain ⟨haccess, hexpired, htoken⟩ := hconns c
    unfold WebSocketConnection.Bears
    rw [haccess, hexpired, htoken]
    exact h.conns c

lemma Vouched.step {a : NodeAction} (hw : n.WF) (h : n.Vouched T) (hs : n.step a = some n')
    (hanswer : ∀ call answered, a = .apiAnswers call answered → ∀ payload,
      answered.payload = some payload →
        ∃ ms, payload.expiredAt = some (.time ms) ∧ T payload.docs ms)
    (hmessage : ∀ m, a = .onUpdateTokenMessage m →
      ∃ ms, m.expiredAt = some (.time ms) ∧ T m.docs ms) : n'.Vouched T := by
  cases step_cases hs with
  | opening c hc =>
    refine ⟨fun call hcall payload hp => ?_, fun c' => ?_⟩
    · rcases List.mem_cons.mp hcall with rfl | hcall
      · cases hp
      · exact h.calls call hcall payload hp
    · rw [Proxy.conns_openConnection]
      split
      · exact .inl ⟨rfl, rfl, rfl⟩
      · exact h.conns c'
  | opened c hc =>
    refine ⟨h.calls, fun c' => ?_⟩
    by_cases he : c' = c
    · subst he
      left
      simp [Proxy.handleConnection, Proxy.initClient, Proxy.conns_openConnection,
        WebSocketConnection.new, JsMap.empty]
    · rw [(Proxy.handleConnection_eq n.proxy c none).2 c' he]
      exact h.conns c'
  | failed c d => exact h
  | joined c d status hc =>
    exact h.withProxy (fun _ hcall => hcall) fun c' => by simp [Proxy.finishJoin_eq]
  | suspended a call hc hpay ha =>
    refine ⟨fun call' hcall payload hp => ?_, h.conns⟩
    rcases List.mem_cons.mp hcall with rfl | hcall
    · rw [hpay] at hp
      cases hp
    · exact h.calls call' hcall payload hp
  | answered call answered hcall hans =>
    refine ⟨fun call' hcall' payload hp => ?_, h.conns⟩
    rcases List.mem_cons.mp hcall' with rfl | hcall'
    · exact hanswer call _ rfl payload hp
    · exact h.calls call' (List.mem_of_mem_erase hcall') payload hp
  | resumed call q hcall hq =>
    rcases Proxy.resume_accept hq with ⟨-, hconns, -⟩ | ⟨payload, hp, hconns, -⟩
    · exact h.withProxy (fun _ => List.mem_of_mem_erase) fun c => by simp [hconns]
    · obtain ⟨ms, hms, ht⟩ := h.calls call hcall payload hp
      refine ⟨fun call' hcall' => h.calls call' (List.mem_of_mem_erase hcall'), fun c => ?_⟩
      simp only [hconns, Proxy.conns_accept]
      split
      · exact .inr ⟨payload.docs, ms, rfl, by simp [hms], ht⟩
      · exact h.conns c
  | updated m =>
    obtain ⟨ms, hms, ht⟩ := hmessage m rfl
    rcases hw.proxy.onUpdateTokenMessage_cases m with ⟨heq, -⟩ | ⟨cs, rights, hup⟩
    · rw [heq]
      exact h
    · refine ⟨h.calls, fun c => ?_⟩
      rw [hup.conns]
      split
      · exact .inr ⟨m.docs, ms, rfl, by simp [Proxy.updated, newDate, hms], ht⟩
      · exact h.conns c
  | checked now =>
    refine h.withProxy (fun _ hcall => hcall) fun c => ?_
    rcases (Proxy.checkTokenExpiration_checkedBy n.proxy now).conns c with hc | hc
    · simp [hc]
    · simp [hc]
  | disconnected c hc =>
    refine h.withProxy (fun _ hcall => hcall) fun c' => ?_
    rw [Proxy.conns_handleDisconnect]
    split
    · rename_i he
      simp [he]
    · exact ⟨rfl, rfl, rfl⟩

end Node

namespace Collections

variable {env : QueryEnv} {s s' : Collections} {owner : ConsumerId} {docs : List AccessData}

/-- A table stays one of the owner of its documents. -/
lemma Keeps.faithfulAccess (h : Keeps s s')
    (ht : (s.toDatabase []).FaithfulAccess env owner docs) :
    (s'.toDatabase []).FaithfulAccess env owner docs where
  keys := ht.keys
  entries := ht.entries
  distinct := ht.distinct
  owned d hd := by
    obtain ⟨doc, hdoc, howner⟩ := ht.owned d hd
    exact ⟨doc, h.docs.subset hdoc, howner⟩

lemma Unique.toDatabase (h : s.Unique) : ((s.toDatabase []).docs.map OwnedDoc.id).Nodup := by
  simp only [Collections.toDatabase, List.map_map]
  exact h.docs

end Collections

namespace Deployment

open Collections

variable {env : ServerEnv} {s s' : Deployment} {as : List DeploymentAction}

/-- The consumer has, or had, a key that verifies the JWT. -/
def Signs (env : ServerEnv) (s : Deployment) (consumer : ConsumerId) (jwt : String) : Prop :=
  ∃ c ∈ s.past, ∃ stored ∈ c.consumers, env.objectId consumer = some stored.id ∧
    env.verify jwt stored.publicKey = true

/-- A request with this JWT is one of the owner: a consumer that the JWT names has, or had, a key that
verifies it, and the owner is one that it names as well. It can name several by a condition; if it names
one by a text, the key is the owner's. -/
structure Authenticates (env : ServerEnv) (s : Deployment) (owner : ConsumerId)
    (authorization : String) : Prop where
  named : ∃ claims value, env.parseJWT authorization = some claims ∧ claims.signer = some value ∧
    (∃ c ∈ s.past, ∃ signer, c.findConsumer env.toQueryEnv value = some (some signer) ∧
      env.verify authorization signer.publicKey = true) ∧
    ∃ c ∈ s.past, ∃ stored, c.findConsumer env.toQueryEnv value = some (some stored) ∧
      env.objectId owner = some stored.id
  text : ∀ claims id, env.parseJWT authorization = some claims →
    claims.consumerId = some (.text id) → s.Signs env owner authorization

/-- The JWT lists the documents and is signed by the consumer whose it is; there has been a request of
the owner, whose they are if they are what their type says. -/
structure Granted (env : ServerEnv) (s : Deployment) (owner : ConsumerId) (jwt : String)
    (listed : Json) (ms : Int) : Prop where
  issued : ∃ claims signer, env.parseJWT jwt = some claims ∧ claims.docs = some listed ∧
    claims.expiredAt = some (.time ms) ∧ claims.consumerId = some (.text signer) ∧
    s.Signs env signer jwt
  owned : ∀ docs, declaredDocs listed = some docs →
    (s.server.store.toDatabase []).FaithfulAccess env.toQueryEnv owner docs
  requested : ∃ authorization, s.Authenticates env owner authorization
  ends : ms ≤ s.clock + env.ttl

/-- The same of a payload. -/
def Grants (env : ServerEnv) (s : Deployment) (owner : ConsumerId) (jwt : String)
    (payload : JWTPayload Json) : Prop :=
  ∃ ms, payload.expiredAt = some (.time ms) ∧ s.Granted env owner jwt payload.docs ms

/-- Nothing that the steps have made true is undone. -/
structure Later (s s' : Deployment) : Prop where
  past : ∀ c ∈ s.past, c ∈ s'.past
  store : Keeps s.server.store s'.server.store
  clock : s.clock ≤ s'.clock

lemma Signs.later {consumer : ConsumerId} {jwt : String} (h : s.Signs env consumer jwt)
    (hlater : s.Later s') : s'.Signs env consumer jwt := by
  obtain ⟨c, hc, hstored⟩ := h
  exact ⟨c, hlater.past c hc, hstored⟩

lemma Authenticates.later {owner : ConsumerId} {authorization : String}
    (h : s.Authenticates env owner authorization) (hlater : s.Later s') :
    s'.Authenticates env owner authorization where
  named := by
    obtain ⟨claims, value, hparse, hsigner, ⟨c, hc, hkey⟩, d, hd, howner⟩ := h.named
    exact ⟨claims, value, hparse, hsigner, ⟨c, hlater.past c hc, hkey⟩, d, hlater.past d hd, howner⟩
  text claims id hparse hid := (h.text claims id hparse hid).later hlater

lemma Granted.later {owner : ConsumerId} {jwt : String} {listed : Json} {ms : Int}
    (h : s.Granted env owner jwt listed ms) (hlater : s.Later s') :
    s'.Granted env owner jwt listed ms where
  issued := by
    obtain ⟨claims, signer, hparse, hlisted, hends, hsigner, hsigns⟩ := h.issued
    exact ⟨claims, signer, hparse, hlisted, hends, hsigner, hsigns.later hlater⟩
  owned docs hdocs := hlater.store.faithfulAccess (h.owned docs hdocs)
  requested := h.requested.imp fun _ hrequest => hrequest.later hlater
  ends := h.ends.trans (Int.add_le_add_right hlater.clock _)

lemma Grants.later {owner : ConsumerId} {jwt : String} {payload : JWTPayload Json}
    (h : s.Grants env owner jwt payload) (hlater : s.Later s') :
    s'.Grants env owner jwt payload :=
  h.imp fun _ hms => hms.imp_right fun hgranted => hgranted.later hlater

/-- The tokens of the API have been granted. -/
def ApiSound (env : ServerEnv) (s : Deployment) (api : Api) : Prop :=
  api.Vouched (fun jwt payload => s.Grants env payload.consumerId jwt payload)
    (fun consumer => ∃ authorization, s.Authenticates env consumer authorization)
    fun consumer t => s.Grants env consumer t.token t.payload.payload

lemma ApiSound.later {api : Api} (h : s.ApiSound env api) (hlater : s.Later s') :
    s'.ApiSound env api :=
  h.mono (fun _ _ hp => hp.later hlater)
    (fun _ hsigned => hsigned.imp fun _ hrequest => hrequest.later hlater)
    fun _ _ ht => ht.later hlater

/-- The tokens of a message proxy have been granted. -/
def NodeSound (env : ServerEnv) (s : Deployment) (n : Node) : Prop :=
  n.WF ∧ n.Vouched fun docs ms => ∃ owner jwt listed, s.Granted env owner jwt listed ms ∧
    takenAs listed docs = true

lemma NodeSound.later {n : Node} (h : s.NodeSound env n) (hlater : s.Later s') :
    s'.NodeSound env n := by
  refine h.imp_right fun hnode => hnode.mono fun docs ms => ?_
  rintro ⟨owner, jwt, listed, hgranted, htaken⟩
  exact ⟨owner, jwt, listed, hgranted.later hlater, htaken⟩

structure Sound (env : ServerEnv) (s : Deployment) : Prop where
  unique : s.server.store.Unique
  past : ∀ c ∈ s.past, c.Unique ∧ Keeps c s.server.store
  api : s.ApiSound env s.api
  nodes : ∀ i, s.NodeSound env (s.nodes i)

lemma sound_init {store : Collections} (hunique : store.Unique) : (init store).Sound env where
  unique := hunique
  past c hc := by
    cases List.mem_singleton.mp hc
    exact ⟨hunique, Keeps.refl _⟩
  api := Api.vouched_init
  nodes i := ⟨Node.wf_init, Node.vouched_init⟩

/-! ### What an admitted token has shown -/

lemma consumerOf_eq_some {c : Collections} {jwt : String} {stored : StoredConsumer}
    (h : consumerOf env c jwt = some (some stored)) : ∃ claims value,
      env.parseJWT jwt = some claims ∧ claims.signer = some value ∧
      c.findConsumer env.toQueryEnv value = some (some stored) := by
  unfold consumerOf at h
  split at h
  · cases h
  · rename_i claims hparse
    split at h
    · cases h
    · rename_i value hsigner
      exact ⟨claims, value, hparse, hsigner, h⟩

/-- A JWT that passes `checkJWT` is verified with the key of the consumer that has been found. -/
lemma found_of_checkJWT {c : Collections} {jwt : String} {consumer : Option Consumer}
    {claims : Claims} (hread : (consumerOf env c jwt).map (·.map (·.toConsumer)) = some consumer)
    (hcheck : checkJWT env.toApiEnv jwt consumer = some claims) :
    env.parseJWT jwt = some claims ∧ ∃ value stored, claims.signer = some value ∧
      c.findConsumer env.toQueryEnv value = some (some stored) ∧
      env.verify jwt stored.publicKey = true := by
  obtain ⟨hparse, found, rfl, hverify⟩ := checkJWT_eq_some hcheck
  obtain ⟨stored?, hstored, hmap⟩ := Option.map_eq_some_iff.mp hread
  obtain ⟨stored, rfl, rfl⟩ := Option.map_eq_some_iff.mp hmap
  obtain ⟨claims', value, hparse', hsigner, hfound⟩ := consumerOf_eq_some hstored
  rw [hparse] at hparse'
  cases hparse'
  exact ⟨hparse, value, stored, hsigner, hfound, hverify⟩

/-- If the payload names its consumer by a text, it is this consumer that has signed it. -/
lemma signs_of_checkJWT {keys : Collections} (hkeys : keys ∈ s.past) {consumer : Option Consumer}
    {jwt : String} (hread : (consumerOf env keys jwt).map (·.map (·.toConsumer)) = some consumer)
    {claims : Claims} {signer : ConsumerId}
    (hcheck : checkJWT env.toApiEnv jwt consumer = some claims)
    (hsigner : claims.consumerId = some (.text signer)) :
    s.Signs env signer jwt ∧ s.Authenticates env signer jwt := by
  obtain ⟨hparse, value, stored, hvalue, hfound, hverify⟩ := found_of_checkJWT hread hcheck
  obtain ⟨hmem, hcast⟩ := ApiServer.mem_of_findConsumer hfound
  have hsame := ApiServer.consumerId_of_signer hvalue
  rw [hsigner] at hsame
  have hid := hcast signer (Option.some.inj hsame).symm
  have hsigns : s.Signs env signer jwt := ⟨keys, hkeys, stored, hmem, hid, hverify⟩
  exact ⟨hsigns, ⟨claims, value, hparse, hvalue, ⟨keys, hkeys, stored, hfound, hverify⟩,
    keys, hkeys, stored, hfound, hid⟩, fun _ _ _ _ => hsigns⟩

section Admission

variable {keys docs : Collections} (h : s.Sound env) (hkeys : keys ∈ s.past) (hdocs : docs ∈ s.past)
  {consumer : Option Consumer} {owned : Nat} {jwt : String}
  (hread : (consumerOf env keys jwt).map (·.map (·.toConsumer)) = some consumer)

include h hkeys hdocs hread

/-- A token that is valid at the time of the clock, and lists documents of the owner. -/
lemma Sound.grants {claims : Claims} {payload : JWTPayload Json} {owner : ConsumerId}
    (hcheck : checkJWT env.toApiEnv jwt consumer = some claims)
    (hvalid : validate env.toApiEnv s.clock claims = some payload)
    (howned : ∀ elements, payload.docs = .array elements →
      (docs.toDatabase []).OwnsAll env.toQueryEnv owner elements)
    (hsigned : ∃ authorization, s.Authenticates env owner authorization) :
    s.Grants env owner jwt payload := by
  obtain ⟨-, hsigner, hclaimed, hends, ms, hms, hle⟩ := validate_eq_some hvalid
  have hparse := (found_of_checkJWT hread hcheck).1
  have hsigns := (signs_of_checkJWT hkeys hread hcheck hsigner).1
  rw [hms] at hends
  refine ⟨ms, hms, ⟨claims, _, hparse, hclaimed, hends, hsigner, hsigns⟩,
    fun declared hdeclared => ?_, hsigned, hle⟩
  cases hlist : payload.docs with
  | array elements =>
    rw [hlist] at hdeclared
    exact (h.past docs hdocs).2.faithfulAccess ((howned elements hlist).faithfulAccess hdeclared)
  | _ =>
    rw [hlist] at hdeclared
    cases hdeclared

lemma Sound.grants_of_check {payload : JWTPayload Json}
    (hcount : ((checkJWT env.toApiEnv jwt consumer).bind (validate env.toApiEnv s.clock)).all
      fun payload => !hasDocs env.toApiEnv payload.docs ||
        counts env docs payload.consumerId payload.docs owned)
    (hadmitted : admitClientToken env.toApiEnv jwt consumer s.clock owned = .ok payload) :
    s.Grants env payload.consumerId jwt payload := by
  obtain ⟨claims, hcheck, hvalid, howns⟩ := admitClientToken_eq_ok hadmitted
  have hsigner := (validate_eq_some hvalid).2.1
  refine h.grants hkeys hdocs hread hcheck hvalid (fun elements hlist => ?_)
    ⟨jwt, (signs_of_checkJWT hkeys hread hcheck hsigner).2⟩
  by_cases hsome : hasDocs env.toApiEnv payload.docs = true
  · obtain ⟨elements', hlist', howns⟩ := howns hsome
    cases hlist.symm.trans hlist'
    rw [hlist] at hsome
    simp only [hcheck, Option.bind_some, hvalid, Option.all_some, hlist, hsome, Bool.not_true,
      Bool.false_or, counts, decide_eq_true_eq] at hcount
    exact Database.ownsAll_of_counted (h.past docs hdocs).1.toDatabase hcount howns
  · rw [hlist] at hsome
    obtain rfl : elements = [] := by simpa [hasDocs] using hsome
    exact Database.ownsAll_nil

lemma Sound.grants_of_update {t : ParsedToken} {owner : ConsumerId}
    (hcount : ((checkJWT env.toApiEnv jwt consumer).bind (validateUpdate env.toApiEnv s.clock)).all
      fun payload => counts env docs owner payload.payload.docs owned)
    (hsigned : ∃ authorization, s.Authenticates env owner authorization)
    (hadmitted : admitUpdate env.toApiEnv jwt consumer s.clock owned = .ok t) :
    s.Grants env owner t.token t.payload.payload := by
  obtain ⟨claims, elements, hcheck, hvalid, htoken, hlist, howns⟩ := admitUpdate_eq_ok hadmitted
  rw [htoken]
  refine h.grants hkeys hdocs hread hcheck (validateUpdate_eq_some hvalid)
    (fun elements' hlist' => ?_) hsigned
  cases hlist.symm.trans hlist'
  simp only [hcheck, Option.bind_some, hvalid, Option.all_some, counts, hlist, decide_eq_true_eq]
    at hcount
  exact Database.ownsAll_of_counted (h.past docs hdocs).1.toDatabase hcount howns

end Admission

/-! ### Runs -/

lemma later_api (s : Deployment) (api : Api) : s.Later { s with api := api } :=
  ⟨fun _ hc => hc, Keeps.refl _, le_rfl⟩

lemma Sound.withApi (h : s.Sound env) {api : Api} (hapi : s.ApiSound env api) :
    ({ s with api := api } : Deployment).Sound env :=
  ⟨h.unique, h.past, hapi.later (later_api s api), fun i => (h.nodes i).later (later_api s api)⟩

lemma Sound.setNode (h : s.Sound env) {i : Nat} {n : Node} (hn : s.NodeSound env n) :
    (s.setNode i n).Sound env := by
  have hlater : s.Later (s.setNode i n) := ⟨fun _ hc => hc, Keeps.refl _, le_rfl⟩
  refine ⟨h.unique, h.past, h.api.later hlater, fun j => ?_⟩
  simp only [Deployment.setNode, Function.update_apply]
  split
  · exact hn.later hlater
  · exact (h.nodes j).later hlater

lemma Sound.server (h : s.Sound env) {a : ServerAction} {server : ApiPool}
    (hs : (apiServer env).step s.server a = some server) :
    ({ s with server := server, past := s.past ++ [server.store] } : Deployment).Sound env := by
  obtain ⟨hunique, hkeeps⟩ := ApiServer.kept_of_step hs h.unique
  have hlater : s.Later { s with server := server, past := s.past ++ [server.store] } :=
    ⟨fun _ hc => List.mem_append_left _ hc, hkeeps, le_rfl⟩
  refine ⟨hunique, fun c hc => ?_, h.api.later hlater, fun i => (h.nodes i).later hlater⟩
  rcases List.mem_append.mp hc with hc | hc
  · exact (h.past c hc).imp_right fun hold => hold.trans hkeeps
  · cases List.mem_singleton.mp hc
    exact ⟨hunique, Keeps.refl _⟩

lemma Sound.api_step (h : s.Sound env) {keys docs : Collections} (hkeys : keys ∈ s.past)
    (hdocs : docs ∈ s.past) {a : ApiAction} (hreads : s.reads env keys docs a = true) {api : Api}
    (hs : s.api.step env.toApiEnv a = some api) : s.ApiSound env api := by
  refine h.api.step hs ?_ ?_ ?_
  · rintro id consumer now owned rfl call hget payload hadmitted
    simp only [reads, hget, Bool.decide_and, Bool.and_eq_true, decide_eq_true_eq] at hreads
    obtain ⟨rfl, hread, hcount⟩ := hreads
    exact h.grants_of_check hkeys hdocs hread hcount hadmitted
  · rintro consumer tokens rfl
    cases hreads
  · rintro id consumer now owned rfl call hget jwt tokens hstage hcaller t hadmitted
    simp only [reads, hget, hstage, Bool.decide_and, Bool.and_eq_true, decide_eq_true_eq] at hreads
    obtain ⟨rfl, hread, hcount⟩ := hreads
    exact h.grants_of_update hkeys hdocs hread hcount hcaller hadmitted

lemma objectId_of_idOf (hcast : ∀ d id, env.objectId d = some id → env.objectId id = some id)
    {ids : List ConsumerId} {value : Json} {id : ConsumerId}
    (h : env.idOf ids value = some (some id)) : env.objectId id = some id := by
  unfold QueryEnv.idOf at h
  split at h
  · obtain ⟨id', hid, hsame⟩ := Option.map_eq_some_iff.mp h
    cases hsame
    exact hcast _ _ hid
  · obtain ⟨find, hfind, hsame⟩ := Option.map_eq_some_iff.mp h
    exact env.cast_of_found _ find ids id hfind hsame

/-- The two reads of a request that is authenticated find a consumer under the same value. -/
lemma authenticates_of_consumerOf {keys again : Collections} (hkeys : keys ∈ s.past)
    (hagain : again ∈ s.past)
    (hcast : ∀ d id, env.objectId d = some id → env.objectId id = some id) {authorization : String}
    {signer stored : StoredConsumer}
    (hsigner : consumerOf env keys authorization = some (some signer))
    (hstored : consumerOf env again authorization = some (some stored))
    (hverify : env.verify authorization signer.publicKey = true) :
    s.Authenticates env stored.id authorization := by
  obtain ⟨claims, value, hparse, hvalue, hfirst⟩ := consumerOf_eq_some hsigner
  obtain ⟨claims', value', hparse', hvalue', hsecond⟩ := consumerOf_eq_some hstored
  rw [hparse] at hparse'
  cases hparse'
  rw [hvalue] at hvalue'
  cases hvalue'
  have hown : env.objectId stored.id = some stored.id := by
    obtain ⟨id, hid, hsame⟩ := ApiServer.id_of_findConsumer hsecond
    rw [hsame]
    exact objectId_of_idOf hcast hid
  refine ⟨⟨claims, value, hparse, hvalue, ⟨keys, hkeys, signer, hfirst, hverify⟩, again, hagain,
    stored, hsecond, hown⟩, fun claims' id hparse' hid => ?_⟩
  rw [hparse] at hparse'
  cases hparse'
  rw [ApiServer.consumerId_of_signer hvalue] at hid
  have hvalue' := Option.some.inj hid
  obtain ⟨hmem, hnamed⟩ := ApiServer.mem_of_findConsumer hfirst
  have hsame : signer.id = stored.id := Option.some.inj
    ((hnamed id hvalue').symm.trans ((ApiServer.mem_of_findConsumer hsecond).2 id hvalue'))
  exact ⟨keys, hkeys, signer, hmem, by rw [hsame, hown], hverify⟩

lemma NodeSound.step (h : s.Sound env) {n n' : Node} (hn : s.NodeSound env n) {a : NodeAction}
    (hs : n.step a = some n')
    (ha : s.answers env a = true ∨ ∃ m ∈ s.api.published, ∃ docs,
      takenAs m.message.docs docs = true ∧ a = .onUpdateTokenMessage (m.message.withDocs docs)) :
    s.NodeSound env n' := by
  refine ⟨Node.wf_step hn.1 hs, hn.2.step hn.1 hs ?_ ?_⟩
  · rintro call answered rfl payload hp
    rcases ha with ha | ⟨m, -, docs, -, hm⟩
    · obtain ⟨id, jwt, accepted, hmem, haccepted, htaken⟩ : ∃ id jwt accepted,
          (id, jwt, .ok accepted) ∈ s.api.checkResponses ∧
            accepted.withDocs payload.docs = payload ∧
            takenAs accepted.docs payload.docs = true := by
        have hany : (s.api.checkResponses.any fun response =>
            accepts payload response.2.2) = true := by
          unfold HandlerCall.payload at hp
          split at hp
          · cases hp
            exact ha
          · cases hp
            exact ha
          · cases hp
        obtain ⟨⟨id, jwt, response⟩, hmem, hmatch⟩ := List.any_eq_true.mp hany
        cases response with
        | ok accepted => exact ⟨id, jwt, accepted, hmem, of_decide_eq_true hmatch⟩
        | error status => cases hmatch
      obtain ⟨ms, hms, hgranted⟩ := h.api.responses id jwt accepted hmem
      refine ⟨ms, ?_, _, jwt, _, hgranted, htaken⟩
      rw [← haccepted]
      exact hms
    · cases hm
  · rintro m rfl
    rcases ha with ha | ⟨published, hmem, docs, htaken, hm⟩
    · cases ha
    · cases hm
      obtain ⟨t, hsent, ms, hms, hgranted⟩ := h.api.published published hmem
      rw [hsent] at htaken ⊢
      exact ⟨ms, hms, _, t.token, _, hgranted, htaken⟩

theorem Sound.step (h : s.Sound env)
    (hcast : ∀ d id, env.objectId d = some id → env.objectId id = some id) {a : DeploymentAction}
    (hs : s.step env a = some s') : s'.Sound env := by
  cases a with
  | server a =>
    obtain ⟨server, hserver, rfl⟩ := Option.map_eq_some_iff.mp hs
    exact h.server hserver
  | api a keys docs =>
    simp only [Deployment.step] at hs
    split at hs
    · rename_i keys docs hkeys hdocs
      obtain ⟨hreads, hs⟩ := Option.ite_none_right_eq_some.mp hs
      obtain ⟨api, hapi, rfl⟩ := Option.map_eq_some_iff.mp hs
      exact h.withApi
        (h.api_step (List.mem_of_getElem? hkeys) (List.mem_of_getElem? hdocs) hreads hapi)
    · cases hs
  | updateToken authorization tokens keys again =>
    simp only [Deployment.step] at hs
    split at hs
    · rename_i signer consumer hsigner hconsumer
      obtain ⟨⟨-, -, hverify⟩, hs⟩ := Option.ite_none_right_eq_some.mp hs
      cases hs
      obtain ⟨c, hc, hsigner⟩ := Option.bind_eq_some_iff.mp hsigner
      obtain ⟨d, hd, hconsumer⟩ := Option.bind_eq_some_iff.mp hconsumer
      have hrequest := authenticates_of_consumerOf (List.mem_of_getElem? hc) (List.mem_of_getElem? hd)
        hcast hsigner hconsumer hverify
      have hstart : s.api.step env.toApiEnv (.updateStart consumer.id tokens) =
          some (s.api.updateStart consumer.id tokens) := rfl
      refine h.withApi (h.api.step hstart ?_ ?_ ?_)
      · nofun
      · rintro _ _ heq
        cases heq
        exact ⟨authorization, hrequest⟩
      · nofun
    · cases hs
  | node i a =>
    obtain ⟨ha, hs⟩ := Option.ite_none_right_eq_some.mp hs
    obtain ⟨n, hn, rfl⟩ := Option.map_eq_some_iff.mp hs
    exact h.setNode ((h.nodes i).step h hn (.inl ha))
  | deliver i m docs =>
    obtain ⟨⟨hmem, htaken⟩, hs⟩ := Option.ite_none_right_eq_some.mp hs
    obtain ⟨n, hn, rfl⟩ := Option.map_eq_some_iff.mp hs
    exact h.setNode ((h.nodes i).step h hn (.inr ⟨m, hmem, docs, htaken, rfl⟩))
  | tick ms =>
    cases hs
    have hlater : s.Later { s with clock := s.clock + ms } :=
      ⟨fun _ hc => hc, Keeps.refl _, Int.le_add_of_nonneg_right (Int.natCast_nonneg ms)⟩
    exact ⟨h.unique, h.past, h.api.later hlater, fun i => (h.nodes i).later hlater⟩

lemma sound_run {store : Collections} (hunique : store.Unique)
    (hcast : ∀ d id, env.objectId d = some id → env.objectId id = some id)
    (hrun : Stepper.run (step env) (init store) as = some s) : s.Sound env :=
  Stepper.run_invariant_of_step (Sound env) (fun _ _ _ h hs => h.step hcast hs) hrun
    (sound_init hunique)

/-- The consumer has signed a token for its document, and another one to replace it. -/
def sampleEnv : ServerEnv where
  toQueryEnv :=
    ApiEnv.queriedByText
      { parseJWT := fun token =>
          if token = "jwt" then
            some ⟨some "token", some (.text "c1"), some "user", some (.time 5),
              some (.array [Database.accessData "d1" ["read"]]), none⟩
          else if token = "jwt2" then
            some ⟨some "token2", some (.text "c1"), some "user", some (.time 9),
              some (.array [Database.accessData "d1" ["read", "write"]]), some "token"⟩
          else none
        verify := fun _ key => key = "key"
        ttl := 10 }
      some
  secret := none

def sampleStore : Collections := ⟨[ApiServer.sampleConsumer], [ApiServer.sampleDoc], []⟩

def samplePayload : JWTPayload := ⟨"token", "c1", "user", some (.time 5), [⟨"d1", [.read]⟩]⟩

/-- A client connects with the first token, which the consumer then replaces. -/
def sampleRun : List DeploymentAction :=
  let consumer := some ApiServer.sampleConsumer.toConsumer
  let answered := HandlerCall.handleConnection "conn" (some (.ok samplePayload))
  [.api (.checkStart "jwt") 0 0, .api (.checkAdmit 0 consumer 0 1) 0 0,
    .api (.checkFind 0 none) 0 0, .api (.checkFinish 0) 0 0,
    .node 0 (.handleConnection "conn" true),
    .node 0 (.apiAnswers (.handleConnection "conn" none) answered), .node 0 (.resume answered),
    .updateToken "jwt" ["jwt2"] 0 0, .api (.updateAdmit 1 consumer 0 1) 0 0,
    .api (.updateAdmit 1 none 0 0) 0 0, .api (.updateFind 1 none) 0 0, .api (.updateTaint 1) 0 0,
    .api (.updateCreate 1) 0 0, .api (.updatePublish 1) 0 0,
    .deliver 0 ⟨"c1", "jwt2", "token2", "token", "c1", "user", some (.time 9),
      .array [Database.accessData "d1" ["read", "write"]]⟩ [⟨"d1", [.read, .write]⟩]]

/-- In every run, a connection has no rights, or those of a JWT that is signed by its consumer, where
there has been a request of an owner: with the JWT itself, or to replace a token by it. If the documents
of the JWT are what their type says, they are the owner's and the rights are exactly those that it
lists. -/
theorem rights_granted (env : ServerEnv)
    (hcast : ∀ d id, env.objectId d = some id → env.objectId id = some id) (store : Collections)
    (hunique : store.Unique) (as : List DeploymentAction) (s : Deployment)
    (hrun : Stepper.run (step env) (init store) as = some s) (i : Nat) (c : ConnectionId)
    (access : Access) (haccess : ((s.nodes i).proxy.conns c).access = some access) :
    access = .empty ∨ ∃ owner jwt listed ms,
      ((s.nodes i).proxy.conns c).tokenExpiredAt = some (.time ms) ∧
      s.Granted env owner jwt listed ms ∧
      ∀ docs, declaredDocs listed = some docs → access = createAccessObject docs := by
  rcases ((sound_run hunique hcast hrun).nodes i).2.conns c with
    ⟨hnone, -, -⟩ | ⟨docs, ms, htable, hms, owner, jwt, listed, hgranted, htaken⟩
  · rw [haccess] at hnone
    exact .inl hnone
  · rw [haccess] at htable
    refine .inr ⟨owner, jwt, listed, ms, hms, hgranted, fun declared hdeclared => ?_⟩
    rw [takenAs, hdeclared, Option.all_some, decide_eq_true_eq] at htaken
    rw [htaken, Option.some.inj htable]

theorem rights_granted_sample : ∃ s, Stepper.run (step sampleEnv) (init sampleStore) sampleRun =
    some s ∧ ∃ owner jwt listed ms,
      ((s.nodes 0).proxy.conns "conn").tokenExpiredAt = some (.time ms) ∧
      s.Granted sampleEnv owner jwt listed ms ∧ ∀ docs, declaredDocs listed = some docs →
        createAccessObject [⟨"d1", [.read, .write]⟩] = createAccessObject docs := by
  refine ⟨_, rfl, (rights_granted sampleEnv (fun _ _ _ => rfl) sampleStore ⟨by decide, by decide⟩
    sampleRun _ rfl 0 "conn" _ rfl).resolve_left ?_⟩
  intro hempty
  cases hempty

/-- In every run, each connection in the list of a token has an expiry, at most the longest lifetime
from now; so `checkTokenExpiration` can close any list of connections without an exception. -/
theorem expiry_bounded (env : ServerEnv)
    (hcast : ∀ d id, env.objectId d = some id → env.objectId id = some id) (store : Collections)
    (hunique : store.Unique) (as : List DeploymentAction) (s : Deployment)
    (hrun : Stepper.run (step env) (init store) as = some s) (i : Nat) (t : TokenId)
    (cs : List ConnectionId) (hlist : (s.nodes i).proxy.tokenConnections.get t = some cs) :
    (∀ c ∈ cs, ∃ ms, ((s.nodes i).proxy.conns c).tokenExpiredAt = some (.time ms) ∧
      ms ≤ s.clock + env.ttl) ∧ (Proxy.expireConnections cs (s.nodes i).proxy).2 = false := by
  obtain ⟨hw, hvouched⟩ := (sound_run hunique hcast hrun).nodes i
  have hdated : ∀ c ∈ cs, ∃ ms, ((s.nodes i).proxy.conns c).tokenExpiredAt = some (.time ms) ∧
      ms ≤ s.clock + env.ttl := by
    intro c hc
    have htoken := ((hw.proxy.listed t cs hlist).2 c hc).2.2
    rcases hvouched.conns c with ⟨-, -, hnone⟩ | ⟨docs, ms, -, hms, owner, jwt, listed, hgranted, -⟩
    · exact absurd hnone htoken
    · exact ⟨ms, hms, hgranted.ends⟩
  refine ⟨hdated, Proxy.expireConnections_of_dated cs _ fun c hc => ?_⟩
  obtain ⟨ms, hms, -⟩ := hdated c hc
  rw [hms]
  nofun

theorem expiry_bounded_sample : ∃ s, Stepper.run (step sampleEnv) (init sampleStore) sampleRun =
    some s ∧ (∀ c ∈ ["conn"], ∃ ms, ((s.nodes 0).proxy.conns c).tokenExpiredAt = some (.time ms) ∧
      ms ≤ s.clock + sampleEnv.ttl) ∧
    (Proxy.expireConnections ["conn"] (s.nodes 0).proxy).2 = false :=
  ⟨_, rfl, expiry_bounded sampleEnv (fun _ _ _ => rfl) sampleStore ⟨by decide, by decide⟩ sampleRun
    _ rfl 0 "token2" _ rfl⟩

end Deployment

end AlaFois
