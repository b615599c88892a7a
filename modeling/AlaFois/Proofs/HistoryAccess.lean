import AlaFois.Lib.Stepper
import AlaFois.Model.History
import AlaFois.Proofs.ApiSpec

/-!
# Two ways to present a token

`getHistory` asks of a token no more than its signature, the owner of the document and the right
to read it. `checkClientToken` refuses it when its payload is not valid at the time, when it lists
a document of somebody else, or when its record is tainted.
-/

namespace AlaFois

/-- What `checkClientToken` checks of a token with these claims beyond its signature. -/
def Database.Accepts (db : Database) (env : QueryEnv) (now : Int) (token : Option TokenRecord)
    (claims : Claims) : Prop :=
  ∃ payload docs owned, validate env.toApiEnv now claims = some payload ∧
    payload.docs = .array docs ∧ db.countOwned env payload.consumerId docs = some owned ∧
    consumerOwnsDocs owned docs = true ∧ ∀ record ∈ token, record.taint = false

/-- `token` is what `findOne` can return for the claims of the JWT. -/
def Database.Finds (db : Database) (env : QueryEnv) (jwt : String) (token : Option TokenRecord) :
    Prop :=
  ∀ claims tokenId consumerId, env.parseJWT jwt = some claims → claims.tokenId = some tokenId →
    claims.consumerId = some (.text consumerId) → db.findOne tokenId consumerId token = true

/-- The document is there and is not public. -/
def Database.PrivateDoc (db : Database) (env : QueryEnv) (docId : String) : Prop :=
  ∃ id doc, env.objectId docId = some id ∧ db.docs.find? (·.id = id) = some doc ∧
    doc.isPublic = false

/-- An entry that is found grants the right to read. -/
lemma exists_of_findPermission {docId : String} {docs : List Json}
    (h : findPermission docId docs = some true) :
    ∃ doc ∈ docs, isFor docId doc = true ∧ mayRead doc = some true := by
  induction docs with
  | nil => cases h
  | cons doc docs ih =>
    have hlater (h : findPermission docId docs = some true) :
        ∃ doc' ∈ doc :: docs, isFor docId doc' = true ∧ mayRead doc' = some true := by
      obtain ⟨doc', hmem, hdoc⟩ := ih h
      exact ⟨doc', List.mem_cons_of_mem _ hmem, hdoc⟩
    unfold findPermission at h
    split at h
    · cases h
    · split at h
      · rename_i hfor
        split at h
        · cases h
        · rename_i hread
          exact ⟨doc, List.mem_cons_self, hfor, hread⟩
        · exact hlater h
      · exact hlater h

/-- Only an entry of an array can grant a right. -/
lemma grants_of_permission {claims : Claims} {payload : JWTPayload Json} {docId : String}
    (hdocs : claims.docs = some payload.docs) (h : claims.permission docId = some true) :
    payload.Grants docId := by
  unfold Claims.permission at h
  split at h
  · cases h
  · cases h
  · rename_i docs harray
    rw [hdocs] at harray
    exact ⟨docs, Option.some.inj harray, exists_of_findPermission h⟩
  · cases h

namespace Database

variable {db : Database} {env : QueryEnv} {now : Int} {jwt docId : String}
  {token : Option TokenRecord} {history : List StoredUpdate}

/-- A private history is served on a signed JWT that grants the right to read. -/
lemma credentials_of_served (hprivate : db.PrivateDoc env docId)
    (hserved : db.getHistory env docId (some jwt) = .ok history) :
    ∃ claims, db.checkJWT env jwt = some (some claims) ∧
      claims.permission docId = some true := by
  obtain ⟨id, doc, hid, hdoc, hpublic⟩ := hprivate
  simp only [getHistory, hid, hdoc, hpublic, Bool.false_eq_true, if_false, getPrivateHistory,
    getClientCredentials] at hserved
  by_cases hempty : jwt = ""
  · simp [hempty, noPermission] at hserved
  · simp only [if_neg hempty] at hserved
    split at hserved
    · cases hserved
    · split at hserved <;> cases hserved
    · rename_i claims hclaims
      split at hserved
      · cases hserved
      · split at hserved
        · cases hserved
        · split at hserved
          · cases hserved
          · rename_i granted hperm
            cases granted with
            | false => cases hserved
            | true => exact ⟨claims, hclaims, hperm⟩

lemma answer_eq_ok_iff {payload payload' : JWTPayload Json} {docs : List Json}
    (hdocs : payload.docs = .array docs) :
    answer payload token = .ok payload' ↔
      payload = payload' ∧ ∀ record ∈ token, record.taint = false := by
  cases token with
  | none => simp [answer, hdocs]
  | some record =>
    by_cases htaint : record.taint = true
    · simp [answer, htaint]
    · simp [answer, htaint]

/-- With the right to read, a token is accepted exactly when it meets the further conditions. -/
lemma checkClientToken_eq_ok_iff {claims : Claims}
    (hclaims : db.checkJWT env jwt = some (some claims))
    (hperm : claims.permission docId = some true) :
    (∃ payload, db.checkClientToken env now jwt token = .ok payload ∧ payload.Grants docId) ↔
      db.Accepts env now token claims := by
  simp only [checkClientToken, hclaims, Accepts]
  cases hvalid : validate env.toApiEnv now claims with
  | none => simp
  | some payload =>
    have hgrants := grants_of_permission (validate_eq_some hvalid).2.2.1 hperm
    obtain ⟨docs, hdocs, data, hmem, -⟩ := id hgrants
    have hpos : hasDocs env.toApiEnv (.array docs) = true :=
      decide_eq_true (List.length_pos_of_mem hmem)
    simp only [hdocs, if_pos hpos]
    cases howned : db.countOwned env payload.consumerId docs with
    | none => simp [hdocs, howned]
    | some owned =>
      by_cases howns : consumerOwnsDocs owned docs = true
      · simp only [if_pos howns, answer_eq_ok_iff hdocs]
        constructor
        · rintro ⟨payload', ⟨rfl, htaint⟩, -⟩
          exact ⟨payload, docs, owned, rfl, hdocs, howned, howns, htaint⟩
        · rintro ⟨payload', docs', owned', hpayload, -, -, -, htaint⟩
          cases hpayload
          exact ⟨payload, ⟨rfl, htaint⟩, hgrants⟩
      · simp only [if_neg howns]
        refine iff_of_false (by simp) ?_
        rintro ⟨payload', docs', owned', hpayload, hdocs', howned', howns', -⟩
        cases hpayload
        rw [hdocs] at hdocs'
        cases hdocs'
        rw [howned] at howned'
        cases howned'
        exact howns howns'

/-- Where the history of a private document is served on a JWT, `checkClientToken` accepts the JWT
with the right to read exactly when the token meets the conditions that only it checks. -/
theorem served_accepted_iff (hprivate : db.PrivateDoc env docId)
    (hserved : db.getHistory env docId (some jwt) = .ok history) :
    (∃ payload, db.checkClientToken env now jwt token = .ok payload ∧ payload.Grants docId) ↔
      ∃ claims, db.checkJWT env jwt = some (some claims) ∧ db.Accepts env now token claims := by
  obtain ⟨claims, hclaims, hperm⟩ := credentials_of_served hprivate hserved
  rw [checkClientToken_eq_ok_iff hclaims hperm]
  constructor
  · intro haccepts
    exact ⟨claims, hclaims, haccepts⟩
  · rintro ⟨claims', hclaims', haccepts⟩
    rw [hclaims] at hclaims'
    cases hclaims'
    exact haccepts

/-! ### checkClientToken as a run of the API -/

lemma run_check_refused {env : ApiEnv} {s : Api} {consumer : Option Consumer} {owned status : Nat}
    (h : admitClientToken env jwt consumer now owned = .error status) :
    ∃ s', Stepper.run (Api.step env) s [.checkStart jwt, .checkAdmit s.nextId consumer now owned] =
      some s' ∧ (s.nextId, jwt, .error status) ∈ s'.checkResponses := by
  refine ⟨(s.checkStart jwt).respond s.nextId jwt (.error status), ?_, ?_⟩
  · simp [Stepper.run, Api.step, Api.checkStart, Api.checkAdmit, h]
  · simp [Api.respond]

lemma checkFinish_found {s : Api} {id : Nat} {payload : JWTPayload Json} :
    ∃ s', s.checkFinish id ⟨jwt, .found payload token⟩ = some s' ∧
      (id, jwt, answer payload token) ∈ s'.checkResponses := by
  cases token with
  | none =>
    by_cases harray : ∃ docs, payload.docs = .array docs
    · obtain ⟨docs, hdocs⟩ := harray
      refine ⟨({ s with creates := Api.recordOf payload :: s.creates } : Api).respond id jwt
        (.ok payload), ?_, ?_⟩
      · simp [Api.checkFinish, hdocs]
      · simp [Api.respond, answer, hdocs]
    · refine ⟨s.respond id jwt (.error 500), ?_, ?_⟩
      · unfold Api.checkFinish
        split <;> simp_all
      · unfold answer
        split <;> simp_all [Api.respond]
  | some record =>
    by_cases htaint : record.taint = true
    · refine ⟨s.respond id jwt (.error 401), if_pos htaint, ?_⟩
      simp [Api.respond, answer, htaint]
    · refine ⟨s.respond id jwt (.ok payload), if_neg htaint, ?_⟩
      simp [Api.respond, answer, htaint]

lemma run_check_admitted {env : ApiEnv} {s : Api} {consumer : Option Consumer} {owned : Nat}
    {payload : JWTPayload Json} (h : admitClientToken env jwt consumer now owned = .ok payload)
    (hfind : s.findOne payload.tokenId payload.consumerId token = true) :
    ∃ s', Stepper.run (Api.step env) s [.checkStart jwt, .checkAdmit s.nextId consumer now owned,
        .checkFind s.nextId token, .checkFinish s.nextId] = some s' ∧
      (s.nextId, jwt, answer payload token) ∈ s'.checkResponses := by
  let finding := (s.checkStart jwt).setCheck s.nextId jwt (.finding payload)
  let found := finding.setCheck s.nextId jwt (.found payload token)
  have hadmit : (s.checkStart jwt).step env (.checkAdmit s.nextId consumer now owned) =
      some finding := by
    simp [Api.step, Api.checkStart, Api.checkAdmit, h, finding]
  have hfound : finding.step env (.checkFind s.nextId token) = some found := by
    have hfind' : finding.findOne payload.tokenId payload.consumerId token = true := by
      cases token <;> exact hfind
    simpa [Api.step, Api.checkFind, finding, Api.setCheck, found] using hfind'
  obtain ⟨s', hfinish, hmem⟩ : ∃ s', found.step env (.checkFinish s.nextId) = some s' ∧
      (s.nextId, jwt, answer payload token) ∈ s'.checkResponses := by
    simpa [Api.step, found, Api.setCheck] using checkFinish_found
  refine ⟨s', ?_, hmem⟩
  refine Stepper.run_cons_eq_some.mpr ⟨s.checkStart jwt, rfl, ?_⟩
  simp [Stepper.run, hadmit, hfound, hfinish]

/-- The consumer that `checkJWT` has found. -/
lemma exists_consumer {claims : Option Claims} (h : db.checkJWT env jwt = some claims) :
    ∃ consumer, AlaFois.checkJWT env.toApiEnv jwt consumer = claims := by
  unfold checkJWT at h
  split at h
  · rename_i hparse
    cases h
    exact ⟨none, by simp [AlaFois.checkJWT, hparse]⟩
  · rename_i parsed hparse
    split at h
    · rename_i hid
      cases h
      exact ⟨none, by simp [AlaFois.checkJWT, hparse, hid]⟩
    · obtain ⟨consumer, -, hconsumer⟩ := Option.map_eq_some_iff.mp h
      exact ⟨consumer, hconsumer⟩

/-- The answer in terms of what the API admits. -/
lemma checkClientToken_admit (hthrew : db.checkClientToken env now jwt token ≠ .error 500) :
    ∃ consumer owned,
      (∃ status, admitClientToken env.toApiEnv jwt consumer now owned = .error status ∧
        db.checkClientToken env now jwt token = .error status) ∨
      ∃ payload, admitClientToken env.toApiEnv jwt consumer now owned = .ok payload ∧
        db.checkClientToken env now jwt token = answer payload token := by
  cases hclaims : db.checkJWT env jwt with
  | none => simp [checkClientToken, hclaims] at hthrew
  | some claims =>
    obtain ⟨consumer, hconsumer⟩ := exists_consumer hclaims
    refine ⟨consumer, ?_⟩
    simp only [checkClientToken, hclaims, admitClientToken, hconsumer] at hthrew ⊢
    cases claims with
    | none => exact ⟨0, .inl ⟨401, rfl, rfl⟩⟩
    | some claims =>
      cases hvalid : validate env.toApiEnv now claims with
      | none => exact ⟨0, .inl ⟨401, by simp [hvalid], by simp [hvalid]⟩⟩
      | some payload =>
        simp only [hvalid] at hthrew ⊢
        by_cases hpos : hasDocs env.toApiEnv payload.docs = true
        · simp only [hpos, if_true] at hthrew ⊢
          cases hdocs : payload.docs with
          | array docs =>
            simp only [hdocs] at hthrew ⊢
            cases howned : db.countOwned env payload.consumerId docs with
            | none => simp [howned] at hthrew
            | some owned =>
              by_cases howns : consumerOwnsDocs owned docs = true
              · exact ⟨owned, .inr ⟨payload, if_pos howns, if_pos howns⟩⟩
              · exact ⟨owned, .inl ⟨403, if_neg howns, if_neg howns⟩⟩
          | _ => simp [hdocs] at hthrew
        · exact ⟨0, .inr ⟨payload, by simp [hpos], by simp [hpos]⟩⟩

/-- Unless a query throws, the call is a run of the API with what it finds in the collections. -/
theorem exists_run_check {s : Api} (htokens : s.tokens = db.tokens)
    (hfinds : db.Finds env jwt token)
    (hthrew : db.checkClientToken env now jwt token ≠ .error 500) :
    ∃ consumer owned rest s', rest <+: [.checkFind s.nextId token, .checkFinish s.nextId] ∧
      Stepper.run (Api.step env.toApiEnv) s
        (.checkStart jwt :: .checkAdmit s.nextId consumer now owned :: rest) = some s' ∧
      (s.nextId, jwt, db.checkClientToken env now jwt token) ∈ s'.checkResponses := by
  obtain ⟨consumer, owned, ⟨status, hadmit, hcheck⟩ | ⟨payload, hadmit, hcheck⟩⟩ :=
    checkClientToken_admit hthrew
  · obtain ⟨s', hrun, hmem⟩ := run_check_refused (s := s) hadmit
    rw [hcheck]
    exact ⟨consumer, owned, [], s', List.nil_prefix, hrun, hmem⟩
  · have hfind : s.findOne payload.tokenId payload.consumerId token = true := by
      obtain ⟨claims, hparse, htoken, hconsumer⟩ := jwtOf_of_admitted hadmit
      have hdb := hfinds claims _ _ hparse htoken hconsumer
      cases token <;> simpa only [Api.findOne, Database.findOne, htokens] using hdb
    obtain ⟨s', hrun, hmem⟩ := run_check_admitted hadmit hfind
    rw [hcheck]
    exact ⟨consumer, owned, _, s', List.prefix_rfl, hrun, hmem⟩

/-! ### Concrete databases -/

/-- An entry as its type declares it. -/
def accessData (id : String) (rights : List String) : Json :=
  .object [("id", .text id), ("rights", .array (rights.map .text))]

/-- Every JWT is one of this token, which may be used until 10 and read one document. -/
def reader : QueryEnv :=
  ApiEnv.queriedByText
    { parseJWT := fun _ => some ⟨some "token", some (.text "64b7f0c2a1b2c3d4e5f60718"),
        some "user", some (.time 10),
        some (.array [accessData "64b7f0c2a1b2c3d4e5f60aaa" ["read"]]), none⟩
      verify := fun _ _ => true
      ttl := 100 }
    fun text => if text.length = 24 then some text else none

/-- One consumer with one document that is not public, and the record of the token. -/
def oneDocument (taint : Bool) : Database where
  consumers := [⟨"64b7f0c2a1b2c3d4e5f60718", "key"⟩]
  docs := [⟨"64b7f0c2a1b2c3d4e5f60aaa", some "64b7f0c2a1b2c3d4e5f60718", false⟩]
  tokens := [⟨"token", "64b7f0c2a1b2c3d4e5f60718", "user", taint, some (.time 10)⟩]
  updates := []

lemma oneDocument_private (taint : Bool) :
    (oneDocument taint).PrivateDoc reader "64b7f0c2a1b2c3d4e5f60aaa" :=
  ⟨_, _, rfl, rfl, rfl⟩

lemma oneDocument_served (taint : Bool) :
    (oneDocument taint).getHistory reader "64b7f0c2a1b2c3d4e5f60aaa" (some "jwt") = .ok [] := rfl

/-- The token is in force, and its consumer owns the document. -/
theorem served_accepted_in_force :
    ∃ payload, (oneDocument false).checkClientToken reader 5 "jwt"
        (some ⟨"token", "64b7f0c2a1b2c3d4e5f60718", "user", false, some (.time 10)⟩) = .ok payload ∧
      payload.Grants "64b7f0c2a1b2c3d4e5f60aaa" := by
  refine (served_accepted_iff (oneDocument_private false) (oneDocument_served false)).mpr ?_
  exact ⟨_, rfl, _, _, _, rfl, rfl, rfl, rfl, by simp⟩

/-- The history is served on a token that has been revoked. -/
theorem tainted_token_served :
    ¬∀ (env : QueryEnv) (db : Database) (now : Int) (jwt docId : String)
      (token : Option TokenRecord) (history : List StoredUpdate), db.PrivateDoc env docId →
      db.Finds env jwt token → db.getHistory env docId (some jwt) = .ok history →
        ∃ payload, db.checkClientToken env now jwt token = .ok payload ∧ payload.Grants docId := by
  intro h
  have hfinds : (oneDocument true).Finds reader "jwt"
      (some ⟨"token", "64b7f0c2a1b2c3d4e5f60718", "user", true, some (.time 10)⟩) := by
    intro claims tokenId consumerId hclaims htoken hconsumer
    cases hclaims
    cases htoken
    cases hconsumer
    decide
  obtain ⟨payload, hpayload, -⟩ := h reader _ 5 "jwt" _ _ _ (oneDocument_private true) hfinds
    (oneDocument_served true)
  cases hpayload

end Database

end AlaFois
