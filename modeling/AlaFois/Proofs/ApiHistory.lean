import AlaFois.Proofs.ApiRuns

/-!
# The history request and the history as one call

While the collections stay as they are, the request of the server and `getHistory` as one call agree.
-/

namespace AlaFois

/-- What a query returns, or that it throws. -/
def ApiServer.ofQuery {α : Type} : Option α → Except ApiError α
  | none => .error .other
  | some x => .ok x

/-- What the operations that only read find in the collections. -/
def Collections.reads (c : Collections) (env : QueryEnv) :
    ∀ call : ApiCall, Except ApiError call.Reply
  | .findConsumer id => .ok (c.consumers.find? (·.id = id))
  | .queryConsumer value => ApiServer.ofQuery (c.findConsumer env value)
  | .findDoc id => .ok (c.docs.find? (·.id = id))
  | .findUpdates docId => .ok ((c.toDatabase []).history docId)
  | _ => .error .other

/-- The answer of the server to what `getHistory` returns. -/
def GetHistoryResponse.toResult : GetHistoryResponse → Except ApiError ApiResponse
  | .ok history => .ok (.history history)
  | .unauthorized message => .error (.http 401 message)
  | .threw => .error .other

namespace ApiServer

variable {env : ServerEnv} {c : Collections} {tokens : List TokenRecord}

lemma result_castId (id : String) :
    (castId env id).result (c.reads env.toQueryEnv) = ofQuery (env.objectId id) := by
  unfold castId
  split <;> rename_i h <;> rw [h] <;> rfl

lemma find_toConsumer (id : String) :
    (c.toDatabase tokens).consumers.find? (·.id = id) =
      (c.consumers.find? (·.id = id)).map (·.toConsumer) := by
  rw [Collections.toDatabase, List.find?_map]
  rfl

lemma findConsumer_toDatabase (value : Json) :
    (c.toDatabase tokens).findConsumer env.toQueryEnv value =
      (c.findConsumer env.toQueryEnv value).map (·.map (·.toConsumer)) := by
  have hids : (c.toDatabase tokens).consumers.map (·.id) = c.consumers.map (·.id) :=
    List.map_map
  rw [Database.findConsumer, Collections.findConsumer, hids, Option.map_map]
  congr 1
  funext id
  cases id with
  | none => rfl
  | some id => exact find_toConsumer id

lemma result_queryConsumer (value : Json) (hvalue : ∀ text, value ≠ .text text) :
    (if (env.operators value).isNone then .throw .other
      else Async.await (ApiCall.queryConsumer value) :
        ApiPromise (Option StoredConsumer)).result (c.reads env.toQueryEnv) =
      ofQuery (c.findConsumer env.toQueryEnv value) := by
  have hids : ∀ ids, env.idOf ids value = (env.operators value).map fun find => find ids := by
    intro ids
    unfold QueryEnv.idOf
    split
    · exact absurd rfl (hvalue _)
    · rfl
  cases hfind : env.operators value with
  | none =>
    rw [Collections.findConsumer, hids, hfind]
    rfl
  | some find => rfl

lemma result_findOne (value : Json) :
    (ConsumerModel.findOne env value).result (c.reads env.toQueryEnv) =
      ofQuery (c.findConsumer env.toQueryEnv value) := by
  cases value with
  | text text =>
    refine (Async.result_bind _ _).trans ?_
    rw [result_castId, Collections.findConsumer, QueryEnv.idOf]
    cases env.objectId text <;> rfl
  | null => exact result_queryConsumer _ (by simp)
  | boolean => exact result_queryConsumer _ (by simp)
  | number => exact result_queryConsumer _ (by simp)
  | array => exact result_queryConsumer _ (by simp)
  | object => exact result_queryConsumer _ (by simp)

lemma find_toOwnedDoc (id : String) :
    (c.toDatabase tokens).docs.find? (·.id = id) =
      (c.docs.find? (·.id = id)).map (·.toOwnedDoc) := by
  rw [Collections.toDatabase, List.find?_map]
  rfl

lemma result_checkJWT (tokens : List TokenRecord) (jwt : String) :
    (AuthService.checkJWT env jwt).result (c.reads env.toQueryEnv) =
      ofQuery ((c.toDatabase tokens).checkJWT env.toQueryEnv jwt) := by
  unfold AuthService.checkJWT Database.checkJWT
  cases hparse : env.parseJWT jwt with
  | none => rfl
  | some claims =>
    dsimp only
    cases hsigner : claims.signer with
    | none => rfl
    | some value =>
      refine (Async.result_bind _ _).trans ?_
      rw [result_findOne]
      dsimp only
      rw [findConsumer_toDatabase]
      cases c.findConsumer env.toQueryEnv value <;> rfl

lemma result_getClientCredentials (tokens : List TokenRecord) (authorization : Option String) :
    (ClientService.getClientCredentials env authorization).result (c.reads env.toQueryEnv) =
      match (c.toDatabase tokens).getClientCredentials env.toQueryEnv authorization with
      | none => .error .other
      | some none =>
        if authorization = none ∨ authorization = some "" then .ok none
        else .error (.http 401 "JWT token is not valid.")
      | some (some claims) => .ok (some claims) := by
  unfold ClientService.getClientCredentials Database.getClientCredentials
  cases authorization with
  | none => rfl
  | some token =>
    dsimp only
    by_cases hempty : token = ""
    · rw [if_pos hempty, if_pos hempty, hempty]
      rfl
    · rw [if_neg hempty, if_neg hempty]
      refine (Async.result_bind _ _).trans ?_
      rw [result_checkJWT tokens]
      cases hcheck : (c.toDatabase tokens).checkJWT env.toQueryEnv token with
      | none => rfl
      | some claims =>
        cases claims with
        | none => simp [ofQuery, Async.follow, hempty, Async.throw]
        | some claims => rfl

lemma result_getHistory (docId : String) (authorization : Option String) :
    (HistoryController.getHistory env docId authorization).result (c.reads env.toQueryEnv) =
      ((c.toDatabase tokens).getHistory env.toQueryEnv docId authorization).toResult := by
  unfold HistoryController.getHistory Database.getHistory
  refine (Async.result_bind _ _).trans ?_
  rw [result_castId]
  cases hcast : env.objectId docId with
  | none => rfl
  | some id =>
    dsimp only
    rw [find_toOwnedDoc]
    refine (Async.result_bind (DocModel.findById id) _).trans ?_
    have hfind : (DocModel.findById id).result (c.reads env.toQueryEnv) =
        .ok (c.docs.find? (·.id = id)) := rfl
    rw [hfind]
    cases c.docs.find? (·.id = id) with
    | none => rfl
    | some doc =>
      dsimp only [Async.follow, Option.map_some]
      by_cases hpublic : doc.isPublic = true
      · rw [if_pos hpublic, if_pos hpublic]
        rfl
      · rw [if_neg hpublic, if_neg hpublic, Database.getPrivateHistory]
        refine (Async.result_bind _ _).trans ?_
        rw [result_getClientCredentials tokens]
        cases hcredentials :
          (c.toDatabase tokens).getClientCredentials env.toQueryEnv authorization with
        | none => rfl
        | some credentials =>
          cases credentials with
          | none =>
            dsimp only
            by_cases habsent : authorization = none ∨ authorization = some ""
            · rw [if_pos habsent, if_pos habsent]
              rfl
            · rw [if_neg habsent, if_neg habsent]
              rfl
          | some claims =>
            dsimp only [Async.follow]
            cases doc.owner with
            | none => rfl
            | some owner =>
              dsimp only
              split
              · rfl
              · cases claims.permission docId with
                | none => rfl
                | some granted => cases granted <;> rfl

/-- A call of a history request that has not failed has found what the collections contain. -/
lemma reads_of_exec {request : HttpRequest} {told : Told} {call : ApiCall}
    {outcome : Except ApiError call.Reply} {c' : Collections}
    (hany : request.endpoint.findsAny = true) (hallowed : Allowed env request told call)
    (hexec : (apiServer env).exec c call outcome = some c')
    (hok : outcome ≠ .error .other) : outcome = c.reads env.toQueryEnv call := by
  have hexec' : Collections.exec env c call outcome = some c' := hexec
  cases outcome with
  | error e =>
    have he : (if e = .other then some c else none) = some c' := by cases call <;> exact hexec'
    obtain ⟨rfl, -⟩ := Option.ite_none_right_eq_some.mp he
    exact absurd rfl hok
  | ok x =>
    have hnot : ¬ByAdmin env request := fun h => by
      rw [findsAny_of_byAdmin h] at hany
      exact Bool.noConfusion hany
    cases call with
    | findConsumer id => exact congrArg Except.ok (Option.ite_none_right_eq_some.mp hexec').1
    | queryConsumer value =>
      have hfound : c.findConsumer env.toQueryEnv value = some x :=
        (Option.ite_none_right_eq_some.mp hexec').1
      change _ = ofQuery (c.findConsumer env.toQueryEnv value)
      rw [hfound]
      rfl
    | findDoc id => exact congrArg Except.ok (Option.ite_none_right_eq_some.mp hexec').1
    | findUpdates docId => exact congrArg Except.ok (Option.ite_none_right_eq_some.mp hexec').1
    | newObjectId =>
      have hfree : request.endpoint.findsAny = false := hallowed
      rw [hfree] at hany
      exact Bool.noConfusion hany
    | generateKeyPair => exact absurd hallowed hnot
    | insertConsumer consumer => exact absurd hallowed hnot
    | saveConsumer id publicKey name => exact absurd hallowed hnot
    | findDocs owner ids =>
      obtain ⟨⟨value, texts, hend, -⟩, -⟩ := hallowed
      rw [hend] at hany
      exact Bool.noConfusion hany
    | insertDoc doc =>
      rcases hallowed with ⟨hadmin, -⟩ | ⟨consumer, field, -, hend, -⟩
      · exact absurd hadmin hnot
      · rw [hend] at hany
        exact Bool.noConfusion hany

/-- A history request whose calls do not fail, in a part of a run where the collections stay as they
are, is answered as `getHistory` on these collections, whatever other requests run meanwhile. -/
theorem history_agrees (env : ServerEnv) (store c : Collections) (as bs : List ServerAction)
    (s s' : ApiPool)
    (hrun : Stepper.run (apiServer env).step (Async.Server.init store) as = some s)
    (hrun' : Stepper.run (apiServer env).step s bs = some s')
    (hsame : ∀ cs t, cs <+: bs → Stepper.run (apiServer env).step s cs = some t → t.store = c)
    (id : Nat) (task : ApiTask) (hget : s'.tasks.get id = some task)
    (hnew : s.tasks.get id = none) (docId : String)
    (hendpoint : task.request.endpoint = .getHistory docId)
    (hok : ∀ e ∈ task.told, e.outcome ≠ .error .other) (tokens : List TokenRecord)
    (r : Except ApiError ApiResponse) (hr : task.response = some r) :
    r = ((c.toDatabase tokens).getHistory env.toQueryEnv docId
      task.request.authorization).toResult := by
  have hall : Stepper.run (apiServer env).step (Async.Server.init store) (as ++ bs) = some s' := by
    rw [Stepper.run_append hrun, hrun']
  have htold : ∀ e ∈ task.told, e.outcome = c.reads env.toQueryEnv e.call := by
    intro e he
    have htoldBy : (apiServer env).ToldBy (fun store => store = c) s s' :=
      Async.Server.toldBy_run hrun' fun cs hcs t ht => hsame cs t hcs ht
    obtain ⟨t, t', rfl, hexec⟩ := htoldBy id task hget hnew e he
    have hany : task.request.endpoint.findsAny = true := by rw [hendpoint]; rfl
    exact reads_of_exec hany (allowed_of_told hall hget e he) hexec (hok e he)
  rw [Async.Server.response_of_told hrun' hget hnew htold hr]
  have hcode : (apiServer env).code task.request =
      HistoryController.getHistory env docId task.request.authorization := by
    change handle env task.request = _
    simp only [handle, hendpoint]
  rw [hcode]
  exact result_getHistory docId task.request.authorization

/-- The consumer asks for the history of a document that is not public. -/
def historyRun : List ServerAction :=
  .start 0 ⟨some "jwt", .getHistory "d1"⟩ :: proceeds 0 3 sampleConsumer sampleDoc

theorem history_agrees_sample : Except.ok (.history []) =
    ((Collections.mk [sampleConsumer] [sampleDoc] []).toDatabase [] |>.getHistory
      sampleEnv.toQueryEnv "d1" (some "jwt")).toResult := by
  refine history_agrees sampleEnv ⟨[sampleConsumer], [sampleDoc], []⟩
    ⟨[sampleConsumer], [sampleDoc], []⟩ [] historyRun _ _ rfl rfl ?_ 0 _ rfl rfl "d1" rfl ?_ [] _ rfl
  · intro cs t hcs ht
    have hcs' : cs ∈ historyRun.inits := (List.mem_inits _ _).mpr hcs
    simp only [historyRun, proceeds, List.replicate, List.inits, List.map_cons, List.map_nil,
      List.mem_cons, List.not_mem_nil, or_false] at hcs'
    rcases hcs' with rfl | rfl | rfl | rfl | rfl <;> cases ht <;> rfl
  · intro e he
    simp only [List.mem_cons, List.not_mem_nil, or_false] at he
    rcases he with rfl | rfl | rfl <;> simp [sampleAnswer]

end ApiServer

end AlaFois
