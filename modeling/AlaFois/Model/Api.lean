import AlaFois.Lib.Json
import AlaFois.Model.Types

/-!
# The API

`checkClientToken` and `updateToken` as calls in progress on one `Token` collection. A step is
one operation of the database together with the code up to the next one, so the steps of
different calls interleave. What the calls read from the `Consumer` and `Doc` collections is
given with the step, since nothing here writes them. A call whose query throws takes no more steps,
and a record that is created is created: that no operation on tokens fails is an assumption, also
where a text that the schema requires is empty.
-/

namespace AlaFois

/-- The payload of a JWT as parsed; a field that is absent is `none`. So is one of `tokenId`, `userId`
and `oldTokenId` that is no text, as nothing reads them before they have been checked to be one, and
`expiredAt` is what `new Date` makes of it. -/
structure Claims where
  tokenId : Option TokenId
  consumerId : Option Json
  userId : Option UserId
  expiredAt : Option JsDate
  docs : Option Json
  oldTokenId : Option TokenId

structure UpdateJWTPayload where
  payload : JWTPayload Json
  oldTokenId : TokenId
deriving DecidableEq

structure Consumer where
  id : ConsumerId
  publicKey : String
deriving DecidableEq

structure TokenRecord where
  tokenId : TokenId
  consumerId : ConsumerId
  userId : UserId
  taint : Bool
  expiredAt : Option JsDate
deriving DecidableEq

/-- `parseJWT` reads the middle part of a JWT, `verify` is the one of `jsonwebtoken`, and
`ttl` is the longest lifetime of a token, `config.admin.maxTokenTtlHours` in milliseconds. The tokens
have no fields `exp` and `nbf` of their own, by which `verify` would also depend on the time.
`exceedsZero` is the comparison `> 0` with a value of any type. -/
structure ApiEnv where
  parseJWT : String → Option Claims
  verify : String → String → Bool
  ttl : Int
  exceedsZero : Json → Bool := fun _ => false

/-- The value under which a consumer is looked for; none if it is falsy. -/
def Claims.signer (claims : Claims) : Option Json := claims.consumerId.filter Json.truthy

/-- `consumer` is what `ConsumerModel.findById` finds under the `consumerId` of the payload. -/
def checkJWT (env : ApiEnv) (jwt : String) (consumer : Option Consumer) : Option Claims :=
  match env.parseJWT jwt with
  | none => none
  | some claims =>
    if claims.signer = none then none
    else
      match consumer with
      | none => none
      | some consumer => if env.verify jwt consumer.publicKey then some claims else none

/-- `TokenPayload.validate`: the payload if it has no errors. The documents only have to be defined. -/
def validate (env : ApiEnv) (now : Int) (claims : Claims) : Option (JWTPayload Json) :=
  match claims.tokenId, claims.consumerId, claims.userId, claims.expiredAt, claims.docs with
  | some tokenId, some (.text consumerId), some userId, some (.time ms), some docs =>
    if docs ≠ .null ∧ now ≤ ms ∧ ms ≤ now + env.ttl then
      some ⟨tokenId, consumerId, userId, some (.time ms), docs⟩
    else none
  | _, _, _, _, _ => none

/-- The same with `isUpdateToken`. -/
def validateUpdate (env : ApiEnv) (now : Int) (claims : Claims) : Option UpdateJWTPayload :=
  match validate env now claims, claims.oldTokenId with
  | some payload, some oldTokenId => some ⟨payload, oldTokenId⟩
  | _, _ => none

/-- `owned` is the number of documents found that have one of the ids and the owner. -/
def consumerOwnsDocs (owned : Nat) (docs : List Json) : Bool := owned = docs.length

/-- `docs && docs.length > 0` -/
def hasDocs (env : ApiEnv) : Json → Bool
  | .array docs => docs.length > 0
  | .text docs => docs ≠ ""
  | docs => (docs.property "length").any env.exceedsZero

/-- `checkClientToken` up to its first operation on tokens. Only an array has a method `map`. -/
def admitClientToken (env : ApiEnv) (jwt : String) (consumer : Option Consumer) (now : Int)
    (owned : Nat) : CheckClientTokenResponse (JWTPayload Json) :=
  match checkJWT env jwt consumer with
  | none => .error 401
  | some claims =>
    match validate env now claims with
    | none => .error 401
    | some payload =>
      if hasDocs env payload.docs then
        match payload.docs with
        | .array docs => if consumerOwnsDocs owned docs then .ok payload else .error 403
        | _ => .error 500
      else .ok payload

inductive CheckStage
  | admitting
  | finding (payload : JWTPayload Json)
  | found (payload : JWTPayload Json) (token : Option TokenRecord)

structure CheckCall where
  jwt : String
  stage : CheckStage

inductive UpdateTokenResponse
  | ok
  | badRequest
  | unauthorized
  | conflict
  | internalServerError
deriving DecidableEq

/-- An element of `parsedTokens`. -/
structure ParsedToken where
  token : String
  payload : UpdateJWTPayload
deriving DecidableEq

namespace ParsedToken

def tokenId (t : ParsedToken) : TokenId := t.payload.payload.tokenId
def oldTokenId (t : ParsedToken) : TokenId := t.payload.oldTokenId
def consumerId (t : ParsedToken) : ConsumerId := t.payload.payload.consumerId

def message (t : ParsedToken) : UpdateTokenMessage Json :=
  ⟨t.token, t.tokenId, t.oldTokenId, t.consumerId, t.payload.payload.userId,
    t.payload.payload.expiredAt, t.payload.payload.docs⟩

def record (t : ParsedToken) : TokenRecord :=
  ⟨t.tokenId, t.consumerId, t.payload.payload.userId, false, t.payload.payload.expiredAt⟩

end ParsedToken

/-- One token of the first loop of `updateToken`. -/
def admitUpdate (env : ApiEnv) (jwt : String) (consumer : Option Consumer) (now : Int)
    (owned : Nat) : Except UpdateTokenResponse ParsedToken :=
  match checkJWT env jwt consumer with
  | none => .error .badRequest
  | some claims =>
    match validateUpdate env now claims with
    | none => .error .badRequest
    | some payload =>
      match payload.payload.docs with
      | .array docs =>
        if consumerOwnsDocs owned docs then .ok ⟨jwt, payload⟩ else .error .unauthorized
      | _ => .error .internalServerError

/-- `checking` is the first loop with the tokens left to it; the others are the operations of
the second loop for the first token of `todo`. -/
inductive UpdateStage
  | checking (tokens : List String)
  | finding
  | tainting
  | creating
  | publishing
deriving DecidableEq

/-- `consumer` is the one that the request is authenticated as. -/
structure UpdateCall where
  consumer : ConsumerId
  done : List ParsedToken
  todo : List ParsedToken
  stage : UpdateStage

/-- A message together with the consumer on whose request it was published. -/
structure Published where
  consumer : ConsumerId
  message : UpdateTokenMessage Json
deriving DecidableEq

/-- `creates` are the insertions of `checkClientToken` that nobody waits for. `returned` are
the tokens of the `updateToken` requests that have returned ok. -/
structure Api where
  tokens : List TokenRecord
  creates : List TokenRecord
  checks : JsMap Nat CheckCall
  updates : JsMap Nat UpdateCall
  nextId : Nat
  checkResponses : List (Nat × String × CheckClientTokenResponse (JWTPayload Json))
  updateResponses : List (Nat × UpdateTokenResponse)
  returned : List ParsedToken
  published : List Published

inductive ApiAction
  | checkStart (jwt : String)
  | checkAdmit (id : Nat) (consumer : Option Consumer) (now : Int) (owned : Nat)
  | checkFind (id : Nat) (token : Option TokenRecord)
  | checkFinish (id : Nat)
  | created (record : TokenRecord)
  | updateStart (consumer : ConsumerId) (tokens : List String)
  | updateAdmit (id : Nat) (consumer : Option Consumer) (now : Int) (owned : Nat)
  | updateFind (id : Nat) (token : Option TokenRecord)
  | updateTaint (id : Nat)
  | updateCreate (id : Nat)
  | updatePublish (id : Nat)

namespace Api

def init : Api := ⟨[], [], .empty, .empty, 0, [], [], [], []⟩

/-- `TokenModel.findOne` can return any record that matches. -/
def findOne (s : Api) (tokenId : TokenId) (consumerId : ConsumerId) : Option TokenRecord → Bool
  | some record => record ∈ s.tokens ∧ record.tokenId = tokenId ∧ record.consumerId = consumerId
  | none => ∀ record ∈ s.tokens, ¬(record.tokenId = tokenId ∧ record.consumerId = consumerId)

/-! ### checkClientToken -/

def checkStart (s : Api) (jwt : String) : Api :=
  { s with checks := s.checks.set s.nextId ⟨jwt, .admitting⟩, nextId := s.nextId + 1 }

def setCheck (s : Api) (id : Nat) (jwt : String) (stage : CheckStage) : Api :=
  { s with checks := s.checks.set id ⟨jwt, stage⟩ }

def respond (s : Api) (id : Nat) (jwt : String)
    (response : CheckClientTokenResponse (JWTPayload Json)) : Api :=
  { s with
    checks := s.checks.delete id
    checkResponses := s.checkResponses ++ [(id, jwt, response)] }

def checkAdmit (s : Api) (env : ApiEnv) (id : Nat) (call : CheckCall) (consumer : Option Consumer)
    (now : Int) (owned : Nat) : Option Api :=
  match call.stage with
  | .admitting =>
    match admitClientToken env call.jwt consumer now owned with
    | .error status => some (s.respond id call.jwt (.error status))
    | .ok payload => some (s.setCheck id call.jwt (.finding payload))
  | _ => none

def checkFind (s : Api) (id : Nat) (call : CheckCall) (token : Option TokenRecord) : Option Api :=
  match call.stage with
  | .finding payload =>
    if s.findOne payload.tokenId payload.consumerId token then
      some (s.setCheck id call.jwt (.found payload token))
    else none
  | _ => none

/-- The record that `checkClientToken` creates; its field `docs` is not in the schema. -/
def recordOf (payload : JWTPayload Json) : TokenRecord :=
  ⟨payload.tokenId, payload.consumerId, payload.userId, false, payload.expiredAt⟩

def checkFinish (s : Api) (id : Nat) (call : CheckCall) : Option Api :=
  match call.stage with
  | .found payload none =>
    match payload.docs with
    | .array _ => -- the insertion is not awaited
      let s := { s with creates := recordOf payload :: s.creates }
      some (s.respond id call.jwt (.ok payload))
    | _ => some (s.respond id call.jwt (.error 500))
  | .found payload (some token) =>
    if token.taint then some (s.respond id call.jwt (.error 401))
    else some (s.respond id call.jwt (.ok payload))
  | _ => none

def created (s : Api) (record : TokenRecord) : Option Api :=
  if record ∈ s.creates then
    some { s with tokens := s.tokens ++ [record], creates := s.creates.erase record }
  else none

/-! ### updateToken -/

def updateStart (s : Api) (consumer : ConsumerId) (tokens : List String) : Api :=
  { s with
    updates := s.updates.set s.nextId ⟨consumer, [], [], .checking tokens⟩
    nextId := s.nextId + 1 }

def setUpdate (s : Api) (id : Nat) (call : UpdateCall) : Api :=
  { s with updates := s.updates.set id call }

def reply (s : Api) (id : Nat) (response : UpdateTokenResponse) : Api :=
  { s with
    updates := s.updates.delete id
    updateResponses := s.updateResponses ++ [(id, response)] }

/-- The second loop goes on to its next token, or the request returns ok. -/
def nextToken (s : Api) (id : Nat) (call : UpdateCall) : Api :=
  match call.todo with
  | [] =>
    let s := { s with returned := s.returned ++ call.done }
    s.reply id .ok
  | _ => s.setUpdate id { call with stage := .finding }

def updateAdmit (s : Api) (env : ApiEnv) (id : Nat) (call : UpdateCall)
    (consumer : Option Consumer) (now : Int) (owned : Nat) : Option Api :=
  match call.stage with
  | .checking [] => some (s.nextToken id call)
  | .checking (jwt :: tokens) =>
    match admitUpdate env jwt consumer now owned with
    | .error response => some (s.reply id response)
    | .ok t => some (s.setUpdate id { call with todo := call.todo ++ [t], stage := .checking tokens })
  | _ => none

def updateFind (s : Api) (id : Nat) (call : UpdateCall) (token : Option TokenRecord) :
    Option Api :=
  match call.stage, call.todo with
  | .finding, t :: _ =>
    if s.findOne t.tokenId t.consumerId token then
      match token with
      | some _ => some (s.reply id .conflict)
      | none => some (s.setUpdate id { call with stage := .tainting })
    else none
  | _, _ => none

/-- What `TokenModel.updateMany` does to a record. -/
def taintOld (t : ParsedToken) (record : TokenRecord) : TokenRecord :=
  if record.tokenId = t.oldTokenId ∧ record.consumerId = t.consumerId ∧ record.taint = false then
    { record with taint := true }
  else record

def updateTaint (s : Api) (id : Nat) (call : UpdateCall) : Option Api :=
  match call.stage, call.todo with
  | .tainting, t :: _ =>
    let s := { s with tokens := s.tokens.map (taintOld t) }
    some (s.setUpdate id { call with stage := .creating })
  | _, _ => none

def updateCreate (s : Api) (id : Nat) (call : UpdateCall) : Option Api :=
  match call.stage, call.todo with
  | .creating, t :: _ =>
    let s := { s with tokens := s.tokens ++ [t.record] }
    some (s.setUpdate id { call with stage := .publishing })
  | _, _ => none

def updatePublish (s : Api) (id : Nat) (call : UpdateCall) : Option Api :=
  match call.stage, call.todo with
  | .publishing, t :: todo =>
    let s : Api := { s with published := s.published ++ [⟨call.consumer, t.message⟩] }
    some (s.nextToken id { call with done := call.done ++ [t], todo := todo })
  | _, _ => none

def step (env : ApiEnv) (s : Api) : ApiAction → Option Api
  | .checkStart jwt => some (s.checkStart jwt)
  | .checkAdmit id consumer now owned =>
    (s.checks.get id).bind fun call => s.checkAdmit env id call consumer now owned
  | .checkFind id token => (s.checks.get id).bind fun call => s.checkFind id call token
  | .checkFinish id => (s.checks.get id).bind fun call => s.checkFinish id call
  | .created record => s.created record
  | .updateStart consumer tokens => some (s.updateStart consumer tokens)
  | .updateAdmit id consumer now owned =>
    (s.updates.get id).bind fun call => s.updateAdmit env id call consumer now owned
  | .updateFind id token => (s.updates.get id).bind fun call => s.updateFind id call token
  | .updateTaint id => (s.updates.get id).bind fun call => s.updateTaint id call
  | .updateCreate id => (s.updates.get id).bind fun call => s.updateCreate id call
  | .updatePublish id => (s.updates.get id).bind fun call => s.updatePublish id call

end Api

/-! ### Documents as their type declares them -/

def declaredRight : Json → Option Right
  | .text "read" => some .read
  | .text "write" => some .write
  | _ => none

def declaredDoc (doc : Json) : Option AccessData :=
  match doc.property "id", doc.property "rights" with
  | some (.text id), some (.array rights) => (rights.mapM declaredRight).map (⟨id, ·⟩)
  | _, _ => none

/-- A list of entries with an id and a list of rights. -/
def declaredDocs : Json → Option (List AccessData)
  | .array docs => docs.mapM declaredDoc
  | _ => none

/-- The documents as a proxy takes them, whose tables have typed entries: documents that are not what
their type says can be taken for any others. The exception that a proxy can throw at them is left
out. -/
def takenAs (docs : Json) (taken : List AccessData) : Bool := (declaredDocs docs).all (· = taken)

def JWTPayload.withDocs (payload : JWTPayload Json) (docs : List AccessData) : JWTPayload :=
  ⟨payload.tokenId, payload.consumerId, payload.userId, payload.expiredAt, docs⟩

def UpdateTokenMessage.withDocs (m : UpdateTokenMessage Json) (docs : List AccessData) :
    UpdateTokenMessage :=
  ⟨m.token, m.tokenId, m.oldTokenId, m.consumerId, m.userId, m.expiredAt, docs⟩

/-! ### Documents as they are parsed -/

namespace Parsed

/-- An entry of the table; `none` is `undefined`. -/
structure AccessData where
  id : Option Json
  rights : Option Json
deriving DecidableEq

/-- The id of an element as a key of the table; the conversion can throw. -/
def key (doc : Json) : Option String :=
  match doc.property "id" with
  | none => some "undefined"
  | some id => id.toText

/-- What `createAccessObject` does with one element. Under the key `__proto__` it makes no entry, but
sets the prototype of the table. -/
def assign (acc : JsMap String AccessData) (doc : Json) : Option (JsMap String AccessData) :=
  if doc = .null then none
  else
    (key doc).map fun key =>
      if key = "__proto__" then acc
      else acc.set key ⟨doc.property "id", doc.property "rights"⟩

/-- The table of the documents of a payload, whatever they are; `none` is an exception. Only an array
has a method `reduce`. -/
def createAccessObject : Json → Option (JsMap String AccessData)
  | .array docs => docs.foldlM assign .empty
  | _ => none

end Parsed

end AlaFois
