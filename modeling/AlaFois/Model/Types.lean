import AlaFois.Lib.JsMap

/-!
# Shared data of the message proxy and the API

Identifiers, access tables and the payloads that travel between the API, the proxy
instances and the clients.
-/

namespace AlaFois

abbrev DocKey := String
abbrev ConnectionId := String
abbrev TokenId := String
abbrev ConsumerId := String
abbrev UserId := String
/-- Base64 text of a Yjs update or of an awareness update, carried but never read by the proxy. -/
abbrev Changes := String
/-- Base64 text of a Yjs state vector. -/
abbrev StateVector := String

inductive Right
  | read
  | write
deriving DecidableEq, Repr

structure AccessData where
  id : DocKey
  rights : List Right
deriving DecidableEq, Repr

/-- The names of `Object.prototype`, under which every object has a property. -/
def inheritedNames : List String :=
  ["constructor", "__defineGetter__", "__defineSetter__", "hasOwnProperty", "__lookupGetter__",
    "__lookupSetter__", "isPrototypeOf", "propertyIsEnumerable", "toString", "valueOf", "__proto__",
    "toLocaleString"]

/-- `Record<string, AccessData>`. Stored docIds are spellings of ObjectIds, so no key is one of the
`inheritedNames`. -/
abbrev Access := JsMap DocKey AccessData

def createAccessObject (docs : List AccessData) : Access :=
  docs.foldl (fun acc doc => acc.set doc.id ⟨doc.id, doc.rights⟩) JsMap.empty

/-- A `Date`: an instant in milliseconds, or the invalid date that unreadable input gives. -/
inductive JsDate
  | invalid
  | time (ms : Int)
deriving DecidableEq, Repr

/-- `d > new Date()`; every comparison with the invalid date is false. -/
def JsDate.after (now : Int) : JsDate → Bool
  | .invalid => false
  | .time ms => now < ms

/-- `new Date(expiredAt)`, where an absent field reads as the invalid date. -/
def newDate (expiredAt : Option JsDate) : JsDate := expiredAt.getD .invalid

/-- A token payload that `checkClientToken` has accepted. The documents are as their type declares
them, or in the API, which does not check that they are, any value. -/
structure JWTPayload (Docs : Type := List AccessData) where
  tokenId : TokenId
  consumerId : ConsumerId
  userId : UserId
  expiredAt : Option JsDate
  docs : Docs
deriving DecidableEq

/-- The `updateToken` message that the API publishes for the proxies. -/
structure UpdateTokenMessage (Docs : Type := List AccessData) where
  token : String
  tokenId : TokenId
  oldTokenId : TokenId
  consumerId : ConsumerId
  userId : UserId
  expiredAt : Option JsDate
  docs : Docs
deriving DecidableEq

/-- What `checkClientToken` answers, any refusal or failed call being an error status. -/
inductive CheckClientTokenResponse (Payload : Type := JWTPayload)
  | ok (payload : Payload)
  | error (status : Nat)
deriving DecidableEq

/-- What `docIsPublic` answers. -/
inductive DocIsPublicResponse
  | ok (isPublic : Bool)
  | error (status : Nat)
deriving DecidableEq

/-- An element of `TokenRightsDiff.removed`. The type says `DocKey`, but the code also
pushes whole table entries. -/
inductive RemovedDoc
  | key (id : DocKey)
  | entry (data : AccessData)
deriving DecidableEq

structure TokenRightsDiff where
  added : List AccessData
  changed : List AccessData
  unchanged : List AccessData
  removed : List RemovedDoc
deriving DecidableEq

inductive Status
  | ok
  | err (message : String)
deriving DecidableEq

/-- The messages that the proxy sends to a client. -/
inductive ServerMessage
  | connectResponse (status : Status)
  | joinResponse (docId : DocKey) (status : Status)
  | setTokenResponse (status : Status)
  | broadcastChanges (docId : DocKey) (changes : Changes)
  | broadcastAwareness (docId : DocKey) (awareness : Changes)
  | requestSync (syncNeeded : Bool)
  | syncResponse (docId : DocKey) (vector : StateVector) (changes : Changes)
  | updateToken (token : String) (docs : TokenRightsDiff)
  | expiredToken (tokenId : Option TokenId) (expiredAt : JsDate)
  | error (docId : Option DocKey) (message : String)
deriving DecidableEq

/-- A message to one connection. -/
abbrev Sent := ConnectionId × ServerMessage

end AlaFois
