import AlaFois.Lib.Requests
import AlaFois.Model.History
import AlaFois.Model.Platform

/-!
# The API as a server

The requests of admins, consumers and clients on the collections of consumers, documents and
updates, as computations that await the database. Each operation of the database is one call, so
the requests interleave between any two of them. The requests on tokens, which read two of these
collections and write none, are in the modules on the tokens.
-/

namespace AlaFois

/-! ### The collections -/

structure StoredConsumer extends Consumer where
  name : String
deriving DecidableEq

structure StoredDoc extends OwnedDoc where
  state : Bytes
deriving DecidableEq

structure Collections where
  consumers : List StoredConsumer
  docs : List StoredDoc
  updates : List StoredUpdate

/-- What `getHistory` and the requests on tokens read of the collections. -/
def Collections.toDatabase (s : Collections) (tokens : List TokenRecord) : Database :=
  ⟨s.consumers.map (·.toConsumer), s.docs.map (·.toOwnedDoc), tokens, s.updates⟩

/-- `config.admin.secret`, where an unset variable is `null`. -/
structure ServerEnv extends QueryEnv where
  secret : Option String

structure KeyPair where
  publicKey : String
  privateKey : String
deriving DecidableEq

/-- An exception that NestJS answers with its status, or any other one. -/
inductive ApiError
  | http (status : Nat) (message : String)
  | other
deriving DecidableEq

/-- The operations of the database; also the choice of an id for a new record, and of a key pair.
`queryConsumer` looks for a consumer under a value for `_id` that is no text, and `findDocs` for the
documents of an owner that have one of the ids. -/
inductive ApiCall
  | newObjectId
  | generateKeyPair
  | findConsumer (id : String)
  | queryConsumer (value : Json)
  | insertConsumer (consumer : StoredConsumer)
  | saveConsumer (id : String) (publicKey name : Option String)
  | findDoc (id : String)
  | findDocs (owner : String) (ids : List String)
  | insertDoc (doc : StoredDoc)
  | findUpdates (docId : String)
deriving DecidableEq

abbrev ApiCall.Reply : ApiCall → Type
  | .newObjectId => String
  | .generateKeyPair => KeyPair
  | .findConsumer _ | .queryConsumer _ => Option StoredConsumer
  | .findDoc _ => Option StoredDoc
  | .findDocs _ _ => List StoredDoc
  | .findUpdates _ => List StoredUpdate
  | .insertConsumer _ | .saveConsumer _ _ _ | .insertDoc _ => Unit

abbrev ApiPromise (α : Type) : Type 1 := Async ApiCall ApiCall.Reply ApiError α

namespace Collections

/-- The attributes that `save` has found modified. -/
def change (publicKey name : Option String) (consumer : StoredConsumer) : StoredConsumer :=
  { consumer with
    publicKey := publicKey.getD consumer.publicKey
    name := name.getD consumer.name }

/-- The consumer that `findOne` finds under a value for `_id`; `none` is an exception. -/
def findConsumer (env : QueryEnv) (s : Collections) (value : Json) :
    Option (Option StoredConsumer) :=
  (env.idOf (s.consumers.map (·.id)) value).map fun id =>
    id.bind fun id => s.consumers.find? (·.id = id)

/-- The collections after an operation, if it can have the outcome. Any operation can fail, and has
then done nothing; an empty text does not count as a required one. -/
def exec (env : ServerEnv) (s : Collections) : (call : ApiCall) → Except ApiError call.Reply →
    Option Collections
  | _, .error e => if e = .other then some s else none
  | .newObjectId, .ok id => if env.objectId id = some id then some s else none
  | .generateKeyPair, .ok _ => some s
  | .findConsumer id, .ok found =>
    if found = s.consumers.find? (·.id = id) then some s else none
  | .queryConsumer value, .ok found =>
    if s.findConsumer env.toQueryEnv value = some found then some s else none
  | .insertConsumer consumer, .ok () =>
    if consumer.name = "" ∨ consumer.publicKey = "" ∨ consumer.id ∈ s.consumers.map (·.id) then none
    else some { s with consumers := s.consumers ++ [consumer] }
  | .saveConsumer id publicKey name, .ok () =>
    if id ∈ s.consumers.map (·.id) then
      some { s with consumers :=
        s.consumers.map fun c => if c.id = id then change publicKey name c else c }
    else none
  | .findDoc id, .ok found => if found = s.docs.find? (·.id = id) then some s else none
  | .findDocs owner ids, .ok found =>
    if found.Perm (s.docs.filter fun doc => doc.owner = some owner ∧ doc.id ∈ ids) then some s
    else none
  | .insertDoc doc, .ok () =>
    if doc.id ∈ s.docs.map (·.id) then none else some { s with docs := s.docs ++ [doc] }
  | .findUpdates docId, .ok found =>
    if found = (s.toDatabase []).history docId then some s else none

end Collections

/-- What an actor writes when it saves changes. -/
inductive ActorWrite
  | saveState (id : String) (state : Bytes)
  | createUpdate (update : StoredUpdate)
deriving DecidableEq

def Collections.write (s : Collections) : ActorWrite → Collections
  | .saveState id state =>
    { s with docs := s.docs.map fun doc => if doc.id = id then { doc with state := state } else doc }
  | .createUpdate update => { s with updates := s.updates ++ [update] }

/-! ### Operations -/

def newObjectId : ApiPromise String := Async.await ApiCall.newObjectId

def generateKeyPair : ApiPromise KeyPair := Async.await ApiCall.generateKeyPair

namespace ConsumerModel

def findById (id : String) : ApiPromise (Option StoredConsumer) :=
  Async.await (ApiCall.findConsumer id)

def create (consumer : StoredConsumer) : ApiPromise Unit :=
  Async.await (ApiCall.insertConsumer consumer)

def save (id : String) (publicKey name : Option String) : ApiPromise Unit :=
  Async.await (ApiCall.saveConsumer id publicKey name)

end ConsumerModel

namespace DocModel

def findById (id : String) : ApiPromise (Option StoredDoc) := Async.await (ApiCall.findDoc id)

def find (owner : String) (ids : List String) : ApiPromise (List StoredDoc) :=
  Async.await (ApiCall.findDocs owner ids)

def create (doc : StoredDoc) : ApiPromise Unit := Async.await (ApiCall.insertDoc doc)

end DocModel

def UpdateModel.find (docId : String) : ApiPromise (List StoredUpdate) :=
  Async.await (ApiCall.findUpdates docId)

/-! ### Services -/

section Services

variable (env : ServerEnv)

/-- The cast of a text to an id, which throws. -/
def castId (id : String) : ApiPromise String :=
  match env.objectId id with
  | none => .throw .other
  | some id => pure id

/-- The id of a new record: a fresh one, unless an id is given. -/
def chooseId (id : Option String) : ApiPromise String := do
  let fresh ← newObjectId
  match id with
  | none => pure fresh
  | some id => if id = "" then pure fresh else castId env id

/-- `findById`, and `findOne` with a condition on `_id` alone. -/
def ConsumerModel.findOne : Json → ApiPromise (Option StoredConsumer)
  | .text id => do
    let id ← castId env id
    findById id
  | value =>
    if (env.operators value).isNone then .throw .other
    else Async.await (ApiCall.queryConsumer value)

namespace AuthService

def checkJWT (jwt : String) : ApiPromise (Option Claims) :=
  match env.parseJWT jwt with
  | none => pure none
  | some claims =>
    match claims.signer with
    | none => pure none
    | some value => do
      let consumer ← ConsumerModel.findOne env value
      pure (AlaFois.checkJWT env.toApiEnv jwt (consumer.map fun c => c.toConsumer))

end AuthService

namespace ConsumerService

def getConsumer (id : Json) : ApiPromise (Option StoredConsumer) := ConsumerModel.findOne env id

def getCurrentConsumer (authorization : Option String) : ApiPromise (Option StoredConsumer) :=
  match authorization with
  | none => pure none
  | some token =>
    if token = "" then pure none
    else do
      let payload ← AuthService.checkJWT env token
      match payload with
      | none => .throw (.http 401 "JWT token is not valid.")
      | some claims => getConsumer env (claims.consumerId.getD .null)

end ConsumerService

/-- `ConsumerService`, with the guard in front of a handler. The handler asks for the consumer
again, and gets what the guard has been given, since that is kept for the request. -/
def ConsumerGuard.guarded {α : Type} (authorization : Option String)
    (handler : StoredConsumer → ApiPromise α) : ApiPromise α := do
  let consumer ← ConsumerService.getCurrentConsumer env authorization
  match consumer with
  | none => .throw (.http 403 "Forbidden resource")
  | some consumer => handler consumer

def AdminService.isAdmin (authorization : Option String) : Bool :=
  match env.secret with
  | none => false
  | some secret => secret ≠ "" ∧ authorization = some secret

def AdminGuard.guarded {α : Type} (authorization : Option String) (handler : ApiPromise α) :
    ApiPromise α :=
  if AdminService.isAdmin env authorization then handler
  else .throw (.http 403 "Forbidden resource")

namespace AdminService

def createConsumer (name publicKey : String) (id : Option String) : ApiPromise StoredConsumer := do
  let id ← chooseId env id
  let consumer : StoredConsumer := ⟨⟨id, publicKey⟩, name⟩
  let _ ← ConsumerModel.create consumer
  pure consumer

def getConsumer (consumerId : String) : ApiPromise (Option StoredConsumer) := do
  let id ← castId env consumerId
  ConsumerModel.findById id

/-- An attribute that is given, and not as an empty text. -/
def given (value : Option String) : Option String := value.filter (· ≠ "")

def updateConsumer (consumerId : String) (publicKey name : Option String) :
    ApiPromise (Option StoredConsumer) := do
  let consumer ← getConsumer env consumerId
  match consumer with
  | none => pure none
  | some consumer =>
    if given publicKey = none ∧ given name = none then pure (some consumer)
    else do
      let _ ← ConsumerModel.save consumer.id (given publicKey) (given name)
      pure (some (Collections.change (given publicKey) (given name) consumer))

def createConsumerWithKey (name : String) (id : Option String) :
    ApiPromise (StoredConsumer × String) := do
  let keys ← generateKeyPair
  let consumer ← createConsumer env name keys.publicKey id
  pure (consumer, keys.privateKey)

def regenerateKeys (consumerId : String) : ApiPromise (Option (StoredConsumer × String)) := do
  let consumer ← getConsumer env consumerId
  match consumer with
  | none => pure none
  | some consumer => do
    let keys ← generateKeyPair
    let _ ← ConsumerModel.save consumer.id (some keys.publicKey) none
    pure (some (Collections.change (some keys.publicKey) none consumer, keys.privateKey))

def createPublicDoc (id : Option String) : ApiPromise StoredDoc := do
  let id ← chooseId env id
  let doc : StoredDoc := ⟨⟨id, none, true⟩, DocRecord.defaultState⟩
  let _ ← DocModel.create doc
  pure doc

def createPrivateDoc (consumerId docId : String) : ApiPromise StoredDoc := do
  let id ← castId env docId
  let owner ← castId env consumerId
  let doc : StoredDoc := ⟨⟨id, some owner, false⟩, DocRecord.defaultState⟩
  let _ ← DocModel.create doc
  pure doc

end AdminService

namespace SetupService

def devConsumerId := "6433ed6c687b8fdaf97c4382"
def devCodeEditorId := "6433e9b2f5871b89df94079f"
def devCodeEditorPrivateId := "643bfc9fb95f9d3555f9aac2"
def devCanvasId := "6433ed0d9af8214f63ef6025"
def devSwitch1Id := "64c6a9245239ca2baf35883b"
def devSwitch2Id := "64c6a9365239ca2baf35883c"

/-- With the new private key; reading the result `null` throws. -/
def setupConsumer : ApiPromise (StoredConsumer × String) :=
  (AdminService.createConsumerWithKey env "dev" (some devConsumerId)).catches fun _ => do
    let result ← AdminService.regenerateKeys env devConsumerId
    match result with
    | none => .throw .other
    | some result => pure result

/-- The id of the document, also when it could not be created. -/
def setupDoc (id : String) (isPublic : Bool) : ApiPromise String :=
  let created : ApiPromise String := do
    let doc ← if isPublic then AdminService.createPublicDoc env (some id)
      else AdminService.createPrivateDoc env devConsumerId id
    pure doc.id
  created.catches fun _ => pure id

end SetupService

namespace DocsService

def getDocsByIds (ids : List String) (ownerId : String) : ApiPromise (List StoredDoc) :=
  match ids.mapM env.objectId with
  | none => .throw .other
  | some ids => DocModel.find ownerId ids

/-- The id of the owner is one of a record, which is cast to itself. -/
def createDoc (owner : String) (isPublic : Bool) : ApiPromise String := do
  let id ← chooseId env none
  let _ ← DocModel.create ⟨⟨id, some owner, isPublic⟩, DocRecord.defaultState⟩
  pure id

end DocsService

namespace ClientService

def getClientCredentials (authorization : Option String) : ApiPromise (Option Claims) :=
  match authorization with
  | none => pure none
  | some token =>
    if token = "" then pure none
    else do
      let payload ← AuthService.checkJWT env token
      match payload with
      | none => .throw (.http 401 "JWT token is not valid.")
      | some claims => pure (some claims)

end ClientService

end Services

/-! ### Controllers -/

/-- A field of a body. -/
inductive BodyField
  | absent
  | null
  | string (value : String)
  | boolean (value : Bool)
  | other
deriving DecidableEq

/-- A parameter of the query; the elements of an array that are no texts are `none`. -/
inductive QueryValue
  | absent
  | string (value : String)
  | array (values : List (Option String))
  | other
deriving DecidableEq

/-- `CreateConsumerDto`; the pipe leaves a field `id` of the body in the payload. -/
structure CreateConsumerDto where
  name : BodyField
  publicKey : BodyField
  id : Option String
deriving DecidableEq

structure UpdateConsumerDto where
  publicKey : BodyField
  name : BodyField
deriving DecidableEq

inductive Endpoint
  | createConsumer (payload : CreateConsumerDto)
  | getConsumer (id : String)
  | updateConsumer (id : String) (payload : UpdateConsumerDto)
  | publicDoc
  | devSetup
  | getDocsByIds (ids : QueryValue)
  | createDoc (isPublic : BodyField)
  | getHistory (docId : String)
  | docIsPublic (docId : String)
deriving DecidableEq

structure HttpRequest where
  authorization : Option String
  endpoint : Endpoint
deriving DecidableEq

structure DocPublicDto where
  id : String
  state : Bytes
  isPublic : Bool
deriving DecidableEq

def StoredDoc.toDto (doc : StoredDoc) : DocPublicDto := ⟨doc.id, doc.state, doc.isPublic⟩

inductive ApiResponse
  | consumer (consumer : StoredConsumer)
  | doc (id : String)
  | devSetup (id name privateKey : String) (docs : List String)
  | docs (data : List DocPublicDto)
  | history (history : List StoredUpdate)
  | isPublic (isPublic : Bool)
deriving DecidableEq

namespace ApiError

def badRequest : ApiError := .http 400 "Bad Request Exception"
def noSuchConsumer : ApiError := .http 400 "No such consumer"
def noPermission : ApiError := .http 401 "Has no permission to access this document"

end ApiError

/-- `IsString` and `IsDefined`. -/
def BodyField.text : BodyField → Option String
  | .string value => some value
  | _ => none

/-- `IsString` and `IsOptional`. -/
def BodyField.optionalText : BodyField → Option (Option String)
  | .absent | .null => some none
  | .string value => some (some value)
  | _ => none

/-- `IsBoolean`, where the class has the default `false`. -/
def BodyField.flag : BodyField → Option Bool
  | .absent => some false
  | .boolean value => some value
  | _ => none

/-- `DocsByIdsQueryDto`. -/
def QueryValue.ids : QueryValue → Option (List String)
  | .absent | .other => none
  | .string value =>
    let ids := value.splitOn ","
    if ids.length ≤ 50 then some ids else none
  | .array values => if values.length ≤ 50 then values.mapM id else none

section Controllers

variable (env : ServerEnv)

namespace AdminController

def createConsumer (payload : CreateConsumerDto) : ApiPromise ApiResponse :=
  match payload.name.text, payload.publicKey.text with
  | some name, some publicKey => do
    let consumer ← AdminService.createConsumer env name publicKey payload.id
    pure (.consumer consumer)
  | _, _ => .throw .badRequest

def getConsumer (consumerId : String) : ApiPromise ApiResponse := do
  let consumer ← AdminService.getConsumer env consumerId
  match consumer with
  | none => .throw .noSuchConsumer
  | some consumer => pure (.consumer consumer)

def updateConsumer (consumerId : String) (payload : UpdateConsumerDto) : ApiPromise ApiResponse :=
  match payload.publicKey.optionalText, payload.name.optionalText with
  | some publicKey, some name => do
    let consumer ← AdminService.updateConsumer env consumerId publicKey name
    match consumer with
    | none => .throw .noSuchConsumer
    | some consumer => pure (.consumer consumer)
  | _, _ => .throw .badRequest

def publicDoc : ApiPromise ApiResponse := do
  let doc ← AdminService.createPublicDoc env none
  pure (.doc doc.id)

/-- With `SetupService.devSetup`. -/
def devSetup : ApiPromise ApiResponse := do
  let (consumer, privateKey) ← SetupService.setupConsumer env
  let editorDoc ← SetupService.setupDoc env SetupService.devCodeEditorId true
  let editorPrivateDoc ← SetupService.setupDoc env SetupService.devCodeEditorPrivateId false
  let canvasDoc ← SetupService.setupDoc env SetupService.devCanvasId true
  let switch1Doc ← SetupService.setupDoc env SetupService.devSwitch1Id false
  let switch2Doc ← SetupService.setupDoc env SetupService.devSwitch2Id false
  pure (.devSetup consumer.id consumer.name privateKey
    [editorDoc, canvasDoc, editorPrivateDoc, switch1Doc, switch2Doc])

end AdminController

namespace DocsController

def getDocsByIds (ids : QueryValue) (consumer : StoredConsumer) : ApiPromise ApiResponse :=
  match ids.ids with
  | none => .throw .badRequest
  | some ids => do
    let docs ← DocsService.getDocsByIds env ids consumer.id
    pure (.docs (docs.map StoredDoc.toDto))

def createDoc (isPublic : BodyField) (consumer : StoredConsumer) : ApiPromise ApiResponse :=
  match isPublic.flag with
  | none => .throw .badRequest
  | some isPublic => do
    let id ← DocsService.createDoc env consumer.id isPublic
    pure (.doc id)

end DocsController

namespace HistoryController

/-- The history of the document, with `HistoryService`. -/
def served (docId : String) : ApiPromise ApiResponse := do
  let history ← UpdateModel.find docId
  pure (.history history)

def getHistory (docId : String) (authorization : Option String) : ApiPromise ApiResponse := do
  let id ← castId env docId
  let doc ← DocModel.findById id
  match doc with
  | none => .throw .noPermission
  | some doc =>
    if doc.isPublic then served docId
    else do
      let credentials ← ClientService.getClientCredentials env authorization
      match credentials with
      | none => .throw .noPermission
      | some claims =>
        match doc.owner with
        | none => .throw .other
        | some owner =>
          if claims.consumerId ≠ some (.text owner) then .throw .noPermission
          else
            match claims.permission docId with
            | none => .throw .other
            | some granted => if granted then served docId else .throw .noPermission

end HistoryController

namespace MicroserviceController

def docIsPublic (docId : String) : ApiPromise ApiResponse := do
  let id ← castId env docId
  let doc ← DocModel.findById id
  pure (.isPublic (doc.any (·.isPublic)))

end MicroserviceController

/-- The handler of a request, with the guards of its controller. -/
def ApiServer.handle (request : HttpRequest) : ApiPromise ApiResponse :=
  match request.endpoint with
  | .createConsumer payload =>
    AdminGuard.guarded env request.authorization (AdminController.createConsumer env payload)
  | .getConsumer id =>
    AdminGuard.guarded env request.authorization (AdminController.getConsumer env id)
  | .updateConsumer id payload =>
    AdminGuard.guarded env request.authorization (AdminController.updateConsumer env id payload)
  | .publicDoc => AdminGuard.guarded env request.authorization (AdminController.publicDoc env)
  | .devSetup => AdminGuard.guarded env request.authorization (AdminController.devSetup env)
  | .getDocsByIds ids =>
    ConsumerGuard.guarded env request.authorization (DocsController.getDocsByIds env ids)
  | .createDoc isPublic =>
    ConsumerGuard.guarded env request.authorization (DocsController.createDoc env isPublic)
  | .getHistory docId => HistoryController.getHistory env docId request.authorization
  | .docIsPublic docId => MicroserviceController.docIsPublic env docId

abbrev ApiTask := Async.Task HttpRequest ApiCall ApiCall.Reply ApiError ApiResponse
abbrev ApiPool := Async.Pool HttpRequest ApiCall ApiCall.Reply ApiError ApiResponse Collections
abbrev ServerAction := Async.PoolAction HttpRequest ApiCall ApiCall.Reply ApiError ActorWrite

/-- The API; its collections are also written by the actors of documents. -/
def apiServer : Async.Server HttpRequest ApiCall ApiCall.Reply ApiError ApiResponse Collections
    ActorWrite where
  code := ApiServer.handle env
  exec := Collections.exec env
  outside := fun s w => some (s.write w)

end Controllers

end AlaFois
