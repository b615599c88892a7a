import Mathlib.Data.List.Sort
import AlaFois.Model.Api

/-!
# The history of a document

`HistoryController.getHistory` and `checkClientToken`, each as one call on the collections as they
are. Both read the JWT with `checkJWT`; what they check of it afterwards they do not share.
-/

namespace AlaFois

/-- `objectId` casts a string to an id, which it gives as hexadecimal text; a string that is no
id makes the query throw. `operators` is what `findOne` does with a value for `_id` that is no text, be
it a condition such as `$in` or one more value to be cast: it throws, or it finds one of the consumers
with these ids, or none. An id that it finds is one of a record, which is cast to itself. -/
structure QueryEnv extends ApiEnv where
  objectId : String → Option String
  operators : Json → Option (List ConsumerId → Option ConsumerId)
  cast_of_found : ∀ value find ids id, operators value = some find → find ids = some id →
    objectId id = some id

/-- A collection that is asked for texts only: with any other value the query throws. -/
def ApiEnv.queriedByText (env : ApiEnv) (objectId : String → Option String) : QueryEnv where
  toApiEnv := env
  objectId := objectId
  operators := fun _ => none
  cast_of_found := by simp

structure OwnedDoc where
  id : String
  owner : Option String
  isPublic : Bool
deriving DecidableEq

/-- A record of the updates; `createdAt` is in milliseconds. -/
structure StoredUpdate where
  id : String
  docId : String
  state : String
  userId : UserId
  createdAt : Int
deriving DecidableEq

structure Database where
  consumers : List Consumer
  docs : List OwnedDoc
  tokens : List TokenRecord
  updates : List StoredUpdate

inductive GetHistoryResponse
  | ok (history : List StoredUpdate)
  | unauthorized (message : String)
  | threw
deriving DecidableEq

/-- The entry is for the document. -/
def isFor (docId : String) (doc : Json) : Bool := doc.property "id" = some (.text docId)

/-- `doc.rights.includes('read')`; `none` is an exception. -/
def mayRead (doc : Json) : Option Bool := (doc.property "rights").bind (Json.includes "read")

/-- The search for an entry that grants the right to read a document; `none` is an exception. -/
def findPermission (docId : String) : List Json → Option Bool
  | [] => some false
  | doc :: docs =>
    if doc = .null then none
    else if isFor docId doc then
      match mayRead doc with
      | none => none
      | some true => some true
      | some false => findPermission docId docs
    else findPermission docId docs

/-- The same for the documents of the payload; a value that is no array has no method `find`. -/
def Claims.permission (claims : Claims) (docId : String) : Option Bool :=
  match claims.docs with
  | none | some .null => some false
  | some (.array docs) => findPermission docId docs
  | _ => none

def JWTPayload.Grants (payload : JWTPayload Json) (docId : String) : Prop :=
  ∃ docs, payload.docs = .array docs ∧ ∃ doc ∈ docs, isFor docId doc = true ∧ mayRead doc = some true

namespace QueryEnv

/-- The id that `findOne` looks for under a value for `_id`; `none` is an exception. -/
def idOf (env : QueryEnv) (ids : List ConsumerId) : Json → Option (Option ConsumerId)
  | .text id => (env.objectId id).map some
  | value => (env.operators value).map fun find => find ids

/-- `new ObjectId(value)`: an exception, a fresh id (`some none`), or an id that is given. -/
def newObjectId (env : QueryEnv) : Option Json → Option (Option String)
  | none | some .null | some (.number _) => some none
  | some (.text id) => (env.objectId id).map some
  | some (.object fields) =>
    match (Json.object fields).property "id" with
    | some (.text id) => (env.objectId id).map some
    | _ => none
  | some (.boolean _) | some (.array _) => none

/-- The id of an entry as `consumerOwnsDocs` casts it. -/
def docId (env : QueryEnv) (doc : Json) : Option (Option String) :=
  if doc = .null then none else env.newObjectId (doc.property "id")

end QueryEnv

namespace Database

/-- `ConsumerModel.findOne({ _id: value })`; `none` is an exception. -/
def findConsumer (db : Database) (env : QueryEnv) (value : Json) : Option (Option Consumer) :=
  (env.idOf (db.consumers.map (·.id)) value).map fun id =>
    id.bind fun id => db.consumers.find? (·.id = id)

/-- `AuthService.checkJWT`; `none` is an exception. -/
def checkJWT (db : Database) (env : QueryEnv) (jwt : String) : Option (Option Claims) :=
  match env.parseJWT jwt with
  | none => some none
  | some claims =>
    match claims.signer with
    | none => some none
    | some value => (db.findConsumer env value).map (AlaFois.checkJWT env.toApiEnv jwt)

/-- What `consumerOwnsDocs` finds: the documents of the consumer that have one of the ids. A fresh id
is that of no document. -/
def countOwned (db : Database) (env : QueryEnv) (consumerId : ConsumerId) (docs : List Json) :
    Option Nat :=
  match env.objectId consumerId, docs.mapM env.docId with
  | some owner, some ids =>
    some (db.docs.countP fun doc => doc.owner = some owner ∧ some doc.id ∈ ids)
  | _, _ => none

/-! ### checkClientToken -/

/-- `TokenModel.findOne` can return any record that matches. -/
def findOne (db : Database) (tokenId : TokenId) (consumerId : ConsumerId) :
    Option TokenRecord → Bool
  | some record => record ∈ db.tokens ∧ record.tokenId = tokenId ∧ record.consumerId = consumerId
  | none => ∀ record ∈ db.tokens, ¬(record.tokenId = tokenId ∧ record.consumerId = consumerId)

/-- The rest of `checkClientToken` once it knows that the documents are the consumer's. -/
def answer (payload : JWTPayload Json) :
    Option TokenRecord → CheckClientTokenResponse (JWTPayload Json)
  | none =>
    match payload.docs with
    | .array _ => .ok payload
    | _ => .error 500
  | some token => if token.taint then .error 401 else .ok payload

/-- `token` is what `findOne` returns, if it comes to that. -/
def checkClientToken (db : Database) (env : QueryEnv) (now : Int) (jwt : String)
    (token : Option TokenRecord) : CheckClientTokenResponse (JWTPayload Json) :=
  match db.checkJWT env jwt with
  | none => .error 500
  | some none => .error 401
  | some (some claims) =>
    match validate env.toApiEnv now claims with
    | none => .error 401
    | some payload =>
      if hasDocs env.toApiEnv payload.docs then
        match payload.docs with
        | .array docs =>
          match db.countOwned env payload.consumerId docs with
          | none => .error 500
          | some owned =>
            if consumerOwnsDocs owned docs then answer payload token else .error 403
        | _ => .error 500
      else answer payload token

/-! ### getHistory -/

/-- `getClientCredentials`; the header holds the JWT and nothing else. -/
def getClientCredentials (db : Database) (env : QueryEnv) (authorization : Option String) :
    Option (Option Claims) :=
  match authorization with
  | none => some none
  | some token => if token = "" then some none else db.checkJWT env token

/-- `HistoryService.getHistory`, the newest first. -/
def history (db : Database) (docId : String) : List StoredUpdate :=
  (db.updates.filter (·.docId = docId)).insertionSort fun a b => b.createdAt ≤ a.createdAt

def noPermission : GetHistoryResponse :=
  .unauthorized "Has no permission to access this document"

/-- The part of `getHistory` for a document that is not public. -/
def getPrivateHistory (db : Database) (env : QueryEnv) (docId : String) (doc : OwnedDoc)
    (authorization : Option String) : GetHistoryResponse :=
  match db.getClientCredentials env authorization with
  | none => .threw
  | some none =>
    -- a token that is not valid makes the service throw, and none at all the controller
    if authorization = none ∨ authorization = some "" then noPermission
    else .unauthorized "JWT token is not valid."
  | some (some claims) =>
    match doc.owner with
    | none => .threw
    | some owner =>
      if claims.consumerId ≠ some (.text owner) then noPermission
      else
        match claims.permission docId with
        | none => .threw
        | some granted => if granted then .ok (db.history docId) else noPermission

def getHistory (db : Database) (env : QueryEnv) (docId : String) (authorization : Option String) :
    GetHistoryResponse :=
  match env.objectId docId with
  | none => .threw
  | some id =>
    match db.docs.find? (·.id = id) with
    | none => noPermission
    | some doc =>
      if doc.isPublic then .ok (db.history docId)
      else db.getPrivateHistory env docId doc authorization

end Database

/-- `AuthService.consumerOwnsDocs`; `none` is an exception. -/
def AuthService.consumerOwnsDocs (db : Database) (env : QueryEnv) (consumerId : ConsumerId)
    (docs : List DocKey) : Option Bool :=
  match env.objectId consumerId, docs.mapM env.objectId with
  | some owner, some ids =>
    some ((db.docs.filter fun doc => doc.owner = some owner ∧ doc.id ∈ ids).length = docs.length)
  | _, _ => none

end AlaFois
