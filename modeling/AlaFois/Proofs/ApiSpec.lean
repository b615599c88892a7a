import AlaFois.Model.Api

/-!
# What a step of the API does

One case for each way in which an operation of `checkClientToken` or `updateToken` can end, with
what the call knows by then.
-/

namespace AlaFois

/-- The JWT is one of this token. -/
def ApiEnv.JwtOf (env : ApiEnv) (jwt : String) (tokenId : TokenId) (consumerId : ConsumerId) :
    Prop :=
  ∃ claims, env.parseJWT jwt = some claims ∧ claims.tokenId = some tokenId ∧
    claims.consumerId = some (.text consumerId)

/-! ### What an admitted token has shown -/

/-- A valid JWT has been verified with the key of a consumer. -/
lemma checkJWT_eq_some {env : ApiEnv} {jwt : String} {consumer : Option Consumer}
    {claims : Claims} (h : checkJWT env jwt consumer = some claims) :
    env.parseJWT jwt = some claims ∧ ∃ c, consumer = some c ∧ env.verify jwt c.publicKey = true := by
  unfold checkJWT at h
  split at h
  · cases h
  · rename_i parsed hparse
    split at h
    · cases h
    · split at h
      · cases h
      · rename_i c
        obtain ⟨hverify, h⟩ := Option.ite_none_right_eq_some.mp h
        cases h
        exact ⟨hparse, c, rfl, hverify⟩

lemma validate_eq_some {env : ApiEnv} {now : Int} {claims : Claims} {payload : JWTPayload Json}
    (h : validate env now claims = some payload) :
    claims.tokenId = some payload.tokenId ∧ claims.consumerId = some (.text payload.consumerId) ∧
      claims.docs = some payload.docs ∧ claims.expiredAt = payload.expiredAt ∧
      ∃ ms, payload.expiredAt = some (.time ms) ∧ ms ≤ now + env.ttl := by
  unfold validate at h
  split at h
  · rename_i htoken hconsumer huser hends hdocs
    obtain ⟨hms, h⟩ := Option.ite_none_right_eq_some.mp h
    cases h
    exact ⟨htoken, hconsumer, hdocs, hends, _, rfl, hms.2.2⟩
  · cases h

lemma validateUpdate_eq_some {env : ApiEnv} {now : Int} {claims : Claims}
    {payload : UpdateJWTPayload} (h : validateUpdate env now claims = some payload) :
    validate env now claims = some payload.payload := by
  unfold validateUpdate at h
  split at h
  · rename_i hvalid hold
    cases h
    exact hvalid
  · cases h

lemma admitClientToken_eq_ok {env : ApiEnv} {jwt : String} {consumer : Option Consumer} {now : Int}
    {owned : Nat} {payload : JWTPayload Json}
    (h : admitClientToken env jwt consumer now owned = .ok payload) :
    ∃ claims, checkJWT env jwt consumer = some claims ∧ validate env now claims = some payload ∧
      (hasDocs env payload.docs = true → ∃ docs, payload.docs = .array docs ∧
        consumerOwnsDocs owned docs = true) := by
  unfold admitClientToken at h
  split at h
  · cases h
  · rename_i claims hcheck
    split at h
    · cases h
    · rename_i checked hvalid
      split at h
      · split at h
        · rename_i docs hdocs
          split at h
          · rename_i howns
            cases h
            exact ⟨claims, hcheck, hvalid, fun _ => ⟨docs, hdocs, howns⟩⟩
          · cases h
        · cases h
      · rename_i hnone
        cases h
        exact ⟨claims, hcheck, hvalid, fun hsome => absurd hsome hnone⟩

lemma admitUpdate_eq_ok {env : ApiEnv} {jwt : String} {consumer : Option Consumer} {now : Int}
    {owned : Nat} {t : ParsedToken} (h : admitUpdate env jwt consumer now owned = .ok t) :
    ∃ claims docs, checkJWT env jwt consumer = some claims ∧
      validateUpdate env now claims = some t.payload ∧ t.token = jwt ∧
      t.payload.payload.docs = .array docs ∧ consumerOwnsDocs owned docs = true := by
  unfold admitUpdate at h
  split at h
  · cases h
  · rename_i claims hcheck
    split at h
    · cases h
    · rename_i payload hvalid
      split at h
      · rename_i docs hdocs
        split at h
        · rename_i howns
          cases h
          exact ⟨claims, docs, hcheck, hvalid, rfl, hdocs, howns⟩
        · cases h
      · cases h

lemma jwtOf_of_admitted {env : ApiEnv} {jwt : String} {consumer : Option Consumer} {now : Int}
    {owned : Nat} {payload : JWTPayload Json}
    (h : admitClientToken env jwt consumer now owned = .ok payload) :
    env.JwtOf jwt payload.tokenId payload.consumerId := by
  obtain ⟨claims, hcheck, hvalid, -⟩ := admitClientToken_eq_ok h
  obtain ⟨htoken, hconsumer, -⟩ := validate_eq_some hvalid
  exact ⟨claims, (checkJWT_eq_some hcheck).1, htoken, hconsumer⟩

namespace Api

inductive Outcome (env : ApiEnv) (s : Api) : ApiAction → Api → Prop
  | checkStarted (jwt : String) : Outcome env s (.checkStart jwt) (s.checkStart jwt)
  | checkRefused (id : Nat) (call : CheckCall) (consumer : Option Consumer) (now : Int)
    (owned status : Nat) (hget : s.checks.get id = some call) :
    Outcome env s (.checkAdmit id consumer now owned) (s.respond id call.jwt (.error status))
  | checkAdmitted (id : Nat) (call : CheckCall) (consumer : Option Consumer) (now : Int)
    (owned : Nat) (payload : JWTPayload Json) (hget : s.checks.get id = some call)
    (hjwt : env.JwtOf call.jwt payload.tokenId payload.consumerId) :
    Outcome env s (.checkAdmit id consumer now owned) (s.setCheck id call.jwt (.finding payload))
  | checkFound (id : Nat) (call : CheckCall) (payload : JWTPayload Json)
    (token : Option TokenRecord) (hget : s.checks.get id = some call)
    (hstage : call.stage = .finding payload)
    (hfind : s.findOne payload.tokenId payload.consumerId token = true) :
    Outcome env s (.checkFind id token) (s.setCheck id call.jwt (.found payload token))
  | checkInserting (id : Nat) (call : CheckCall) (payload : JWTPayload Json)
    (hget : s.checks.get id = some call) (hstage : call.stage = .found payload none) :
    Outcome env s (.checkFinish id)
      ({ s with creates := recordOf payload :: s.creates }.respond id call.jwt (.ok payload))
  | checkFailed (id : Nat) (call : CheckCall) (status : Nat) (hget : s.checks.get id = some call) :
    Outcome env s (.checkFinish id) (s.respond id call.jwt (.error status))
  | checkAccepted (id : Nat) (call : CheckCall) (payload : JWTPayload Json) (token : TokenRecord)
    (hget : s.checks.get id = some call) (hstage : call.stage = .found payload (some token))
    (htaint : token.taint = false) :
    Outcome env s (.checkFinish id) (s.respond id call.jwt (.ok payload))
  | created (record : TokenRecord) (hmem : record ∈ s.creates) :
    Outcome env s (.created record)
      { s with tokens := s.tokens ++ [record], creates := s.creates.erase record }
  | updateStarted (consumer : ConsumerId) (tokens : List String) :
    Outcome env s (.updateStart consumer tokens) (s.updateStart consumer tokens)
  | updateChecked (id : Nat) (call : UpdateCall) (consumer : Option Consumer) (now : Int)
    (owned : Nat) (hget : s.updates.get id = some call) :
    Outcome env s (.updateAdmit id consumer now owned) (s.nextToken id call)
  | updateRefused (id : Nat) (call : UpdateCall) (consumer : Option Consumer) (now : Int)
    (owned : Nat) (response : UpdateTokenResponse) (hget : s.updates.get id = some call) :
    Outcome env s (.updateAdmit id consumer now owned) (s.reply id response)
  | updateAdmitted (id : Nat) (call : UpdateCall) (consumer : Option Consumer) (now : Int)
    (owned : Nat) (t : ParsedToken) (tokens : List String) (hget : s.updates.get id = some call) :
    Outcome env s (.updateAdmit id consumer now owned)
      (s.setUpdate id { call with todo := call.todo ++ [t], stage := .checking tokens })
  | updateConflict (id : Nat) (record : TokenRecord) :
    Outcome env s (.updateFind id (some record)) (s.reply id .conflict)
  | updateNew (id : Nat) (call : UpdateCall) (t : ParsedToken) (rest : List ParsedToken)
    (hget : s.updates.get id = some call) (htodo : call.todo = t :: rest)
    (hfind : s.findOne t.tokenId t.consumerId none = true) :
    Outcome env s (.updateFind id none) (s.setUpdate id { call with stage := .tainting })
  | updateTainted (id : Nat) (call : UpdateCall) (t : ParsedToken) (rest : List ParsedToken)
    (hget : s.updates.get id = some call) (hstage : call.stage = .tainting)
    (htodo : call.todo = t :: rest) :
    Outcome env s (.updateTaint id)
      ({ s with tokens := s.tokens.map (taintOld t) }.setUpdate id { call with stage := .creating })
  | updateCreated (id : Nat) (call : UpdateCall) (t : ParsedToken) (rest : List ParsedToken)
    (hget : s.updates.get id = some call) (hstage : call.stage = .creating)
    (htodo : call.todo = t :: rest) :
    Outcome env s (.updateCreate id)
      ({ s with tokens := s.tokens ++ [t.record] }.setUpdate id { call with stage := .publishing })
  | updatePublished (id : Nat) (call : UpdateCall) (t : ParsedToken) (rest : List ParsedToken)
    (hget : s.updates.get id = some call) (hstage : call.stage = .publishing)
    (htodo : call.todo = t :: rest) :
    Outcome env s (.updatePublish id)
      (({ s with published := s.published ++ [⟨call.consumer, t.message⟩] } : Api).nextToken id
        { call with done := call.done ++ [t], todo := rest })

variable {env : ApiEnv} {s s' : Api} {id owned : Nat} {consumer : Option Consumer} {now : Int}

lemma checkAdmit_eq_some {call : CheckCall}
    (hs : s.checkAdmit env id call consumer now owned = some s') :
    (∃ status, s' = s.respond id call.jwt (.error status)) ∨
      ∃ payload, admitClientToken env call.jwt consumer now owned = .ok payload ∧
        s' = s.setCheck id call.jwt (.finding payload) := by
  unfold checkAdmit at hs
  split at hs
  · split at hs
    · cases hs
      exact .inl ⟨_, rfl⟩
    · rename_i payload hadmitted
      cases hs
      exact .inr ⟨payload, hadmitted, rfl⟩
  · cases hs

lemma updateAdmit_eq_some {call : UpdateCall}
    (hs : s.updateAdmit env id call consumer now owned = some s') :
    s' = s.nextToken id call ∨ (∃ response, s' = s.reply id response) ∨
      ∃ jwt tokens t, call.stage = .checking (jwt :: tokens) ∧
        admitUpdate env jwt consumer now owned = .ok t ∧
        s' = s.setUpdate id
          { call with todo := call.todo ++ [t], stage := .checking tokens } := by
  unfold updateAdmit at hs
  split at hs
  · cases hs
    exact .inl rfl
  · rename_i jwt tokens hstage
    split at hs
    · cases hs
      exact .inr (.inl ⟨_, rfl⟩)
    · rename_i t hadmitted
      cases hs
      exact .inr (.inr ⟨jwt, tokens, t, hstage, hadmitted, rfl⟩)
  · cases hs

theorem step_cases {a : ApiAction} (hs : s.step env a = some s') : Outcome env s a s' := by
  cases a with
  | checkStart jwt =>
    cases hs
    exact .checkStarted jwt
  | checkAdmit id consumer now owned =>
    obtain ⟨call, hget, hs⟩ := Option.bind_eq_some_iff.mp hs
    obtain ⟨status, rfl⟩ | ⟨payload, hadmitted, rfl⟩ := checkAdmit_eq_some hs
    · exact .checkRefused id call consumer now owned status hget
    · exact .checkAdmitted id call consumer now owned payload hget (jwtOf_of_admitted hadmitted)
  | checkFind id token =>
    obtain ⟨call, hget, hs⟩ := Option.bind_eq_some_iff.mp hs
    unfold checkFind at hs
    split at hs
    · rename_i payload hstage
      simp only [Option.ite_none_right_eq_some, Option.some.injEq] at hs
      obtain ⟨hfind, rfl⟩ := hs
      exact .checkFound id call payload token hget hstage hfind
    · cases hs
  | checkFinish id =>
    obtain ⟨call, hget, hs⟩ := Option.bind_eq_some_iff.mp hs
    unfold checkFinish at hs
    split at hs
    · rename_i payload hstage
      split at hs
      · cases hs
        exact .checkInserting id call payload hget hstage
      · cases hs
        exact .checkFailed id call 500 hget
    · rename_i payload token hstage
      split at hs
      · cases hs
        exact .checkFailed id call 401 hget
      · rename_i htaint
        cases hs
        exact .checkAccepted id call payload token hget hstage (Bool.eq_false_iff.mpr htaint)
    · cases hs
  | created record =>
    simp only [Api.step, Api.created, Option.ite_none_right_eq_some, Option.some.injEq] at hs
    obtain ⟨hmem, rfl⟩ := hs
    exact .created record hmem
  | updateStart consumer tokens =>
    cases hs
    exact .updateStarted consumer tokens
  | updateAdmit id consumer now owned =>
    obtain ⟨call, hget, hs⟩ := Option.bind_eq_some_iff.mp hs
    obtain rfl | ⟨response, rfl⟩ | ⟨jwt, tokens, t, -, -, rfl⟩ := updateAdmit_eq_some hs
    · exact .updateChecked id call consumer now owned hget
    · exact .updateRefused id call consumer now owned response hget
    · exact .updateAdmitted id call consumer now owned t tokens hget
  | updateFind id token =>
    obtain ⟨call, hget, hs⟩ := Option.bind_eq_some_iff.mp hs
    unfold updateFind at hs
    split at hs
    · rename_i t rest hstage htodo
      simp only [Option.ite_none_right_eq_some] at hs
      obtain ⟨hfind, hs⟩ := hs
      cases token with
      | some record =>
        cases hs
        exact .updateConflict id record
      | none =>
        cases hs
        exact .updateNew id call t rest hget htodo hfind
    · cases hs
  | updateTaint id =>
    obtain ⟨call, hget, hs⟩ := Option.bind_eq_some_iff.mp hs
    unfold updateTaint at hs
    split at hs
    · rename_i t rest hstage htodo
      cases hs
      exact .updateTainted id call t rest hget hstage htodo
    · cases hs
  | updateCreate id =>
    obtain ⟨call, hget, hs⟩ := Option.bind_eq_some_iff.mp hs
    unfold updateCreate at hs
    split at hs
    · rename_i t rest hstage htodo
      cases hs
      exact .updateCreated id call t rest hget hstage htodo
    · cases hs
  | updatePublish id =>
    obtain ⟨call, hget, hs⟩ := Option.bind_eq_some_iff.mp hs
    unfold updatePublish at hs
    split at hs
    · rename_i t rest hstage htodo
      cases hs
      exact .updatePublished id call t rest hget hstage htodo
    · cases hs

end Api

end AlaFois
