import AlaFois.Lib.Bus
import AlaFois.Model.Gateway

/-!
# An instance with its pubsub

`Pubsub`, the services that subscribe to it when they are constructed, and their handlers as they
publish internal messages to each other. Elsewhere these messages are direct calls.
-/

namespace AlaFois

inductive PubsubMessage
  | changes (author : ConnectionId) (docId : DocKey) (data : Changes)
  | awareness (author : ConnectionId) (docId : DocKey) (data : Changes)
  | updateToken (message : UpdateTokenMessage)
  | detachDoc (docs : List RemovedDoc) (connectionId : ConnectionId)
  | attachDoc (docs : List DocKey) (connection : ConnectionId)
  | disconnect (connectionId : ConnectionId)
deriving DecidableEq

inductive PubsubMessageType
  | changes
  | awareness
  | updateToken
  | detachDoc
  | attachDoc
  | disconnect
deriving DecidableEq

def PubsubMessage.type : PubsubMessage → PubsubMessageType
  | .changes _ _ _ => .changes
  | .awareness _ _ _ => .awareness
  | .updateToken _ => .updateToken
  | .detachDoc _ _ => .detachDoc
  | .attachDoc _ _ => .attachDoc
  | .disconnect _ => .disconnect

/-- `MESSAGE_TYPE_TO_TOPIC`. -/
def PubsubMessageType.topic : PubsubMessageType → String
  | .changes | .awareness => "changes"
  | .updateToken => "service"
  | .detachDoc | .attachDoc | .disconnect => ""

/-- `value || fallback` for a variable of the environment. -/
def envOr (value : Option String) (fallback : String) : String :=
  if value.getD "" = "" then fallback else value.getD ""

/-- The topics of an instance, with the variables for the changes and for the service. -/
def topicsToSubscribe (changesTopic serviceTopic : Option String) : List String :=
  [envOr changesTopic "changes", envOr serviceTopic "service"]

inductive PubsubError
  | typeError
  | rangeError -- the stack is used up
deriving DecidableEq

/-- Code that works on the services of an instance. -/
abbrev ServiceCode : Type := EStateM PubsubError Proxy Unit

abbrev MessageSubscriber : Type := Bus.Subscriber PubsubError Proxy PubsubMessage

abbrev PubsubSubscribers : Type := Bus.Subscribers PubsubMessageType PubsubError Proxy PubsubMessage

/-- `onMessage`, and `publishInternal` likewise, with a stack of this depth. -/
def Pubsub.onMessage (subscribers : PubsubSubscribers) (stack : Nat) (m : PubsubMessage) :
    ServiceCode :=
  Bus.publish PubsubMessage.type subscribers .rangeError stack m

namespace DocService

def messageSubscriber (f : DocService → DocService) : ServiceCode :=
  modify fun p => { p with docService := f p.docService }

def changesSubscriber : MessageSubscriber := fun _ message =>
  match message with
  | .changes author docId data => modify fun p =>
    p.sendAll (p.docService.onChangesOrAwarenessMessage (.changes author docId data))
  | .awareness author docId data => modify fun p =>
    p.sendAll (p.docService.onChangesOrAwarenessMessage (.awareness author docId data))
  | _ => pure ()

def attachSubscriber : MessageSubscriber := fun _ message =>
  match message with
  | .attachDoc docs connection => messageSubscriber (·.onAttachDocMessage connection docs)
  | _ => pure ()

def detachSubscriber : MessageSubscriber := fun _ message =>
  match message with
  | .detachDoc docs connectionId => messageSubscriber (·.onDetachDocMessage connectionId docs)
  | _ => pure ()

def disconnectSubscriber : MessageSubscriber := fun _ message =>
  match message with
  | .disconnect connectionId => messageSubscriber (·.disconnect connectionId)
  | _ => pure ()

/-- What the constructor subscribes to. -/
def construct (subs : PubsubSubscribers) : PubsubSubscribers :=
  let subs := Bus.subscribe subs .changes changesSubscriber
  let subs := Bus.subscribe subs .awareness changesSubscriber
  let subs := Bus.subscribe subs .attachDoc attachSubscriber
  let subs := Bus.subscribe subs .detachDoc detachSubscriber
  Bus.subscribe subs .disconnect disconnectSubscriber

end DocService

namespace TokenService

variable (publishInternal : PubsubMessage → ServiceCode)

/-- The body of the loop of `onUpdateTokenMessage`. -/
def updateConnection (m : UpdateTokenMessage) (diff : TokenRightsDiff) (conn : ConnectionId) :
    ServiceCode := do
  modify fun p => p.modify conn fun c => { c with
    access := some (createAccessObject m.docs)
    tokenExpiredAt := some (newDate m.expiredAt)
    tokenId := some m.tokenId }
  publishInternal (.detachDoc diff.removed conn)
  publishInternal (.attachDoc (diff.added.map AccessData.id) conn)
  modify fun p => p.send conn (.updateToken m.token diff)

def onUpdateTokenMessage (m : UpdateTokenMessage) : ServiceCode := do
  let p ← get
  match p.tokenConnections.get m.oldTokenId with
  | none => pure ()
  | some connections =>
    match p.firstAccess connections with
    | none => throw .typeError
    | some access =>
      connections.forM (updateConnection publishInternal m (Proxy.updateDiff access m))
      modify fun p => { p with tokenConnections :=
        (p.tokenConnections.delete m.oldTokenId).set m.tokenId connections }

/-- The body of the inner loop of `checkTokenExpiration`. -/
def expireConnection (conn : ConnectionId) : ServiceCode := do
  let p ← get
  match (p.conns conn).tokenExpiredAt with
  | none => throw .typeError
  | some expiredAt =>
    modify fun p => p.send conn (.expiredToken (p.conns conn).tokenId expiredAt)
    publishInternal (.disconnect conn)
    modify fun p => p.close conn

def checkLists (now : Int) : List (TokenId × List ConnectionId) → ServiceCode
  | [] => pure ()
  | (_, []) :: _ => throw .typeError
  | (tokenId, conn :: connections) :: rest => do
    let p ← get
    match (p.conns conn).tokenExpiredAt with
    | none => checkLists now rest
    | some expiredAt =>
      if expiredAt.after now then checkLists now rest
      else
        (conn :: connections).forM (expireConnection publishInternal)
        modify fun p => { p with tokenConnections := p.tokenConnections.delete tokenId }
        checkLists now rest

def checkTokenExpiration (now : Int) : ServiceCode := do
  let p ← get
  checkLists publishInternal now p.tokenConnections.entries

def updateTokenSubscriber : MessageSubscriber := fun publishInternal message =>
  match message with
  | .updateToken m => onUpdateTokenMessage publishInternal m
  | _ => pure ()

/-- What the constructor subscribes to. -/
def construct (subs : PubsubSubscribers) : PubsubSubscribers :=
  Bus.subscribe subs .updateToken updateTokenSubscriber

end TokenService

/-- `docService` and `tokenService` tell which of the two has been constructed. -/
structure Instance where
  subscribers : PubsubSubscribers
  docService : Bool
  tokenService : Bool
  gateway : Gateway
  emitted : List Emitted

inductive InstanceAction
  | constructDocService
  | constructTokenService
  | handler (a : GatewayAction)
  | onMessageRaw (m : PubsubMessage)
  | checkTokenExpiration (now : Int)

/-- What the clients, the API and the actors do; messages and timers come by `Pubsub`. -/
def GatewayAction.isHandler : GatewayAction → Bool
  | .node (.onUpdateTokenMessage _) | .node (.checkTokenExpiration _) | .onPubsubMessage _ => false
  | _ => true

namespace Instance

def init : Instance := ⟨.empty, false, false, .init, []⟩

/-- An exception is reported, and what has been done stays. -/
def exec (s : Instance) (code : ServiceCode) : Instance :=
  { s with
    gateway := { s.gateway with node :=
      { s.gateway.node with proxy := Bus.finalState code s.gateway.node.proxy } }
    emitted := s.emitted ++ [.none] }

/-- Nest constructs the services one after the other, and the gateway after them; the pubsub is there
before, and so are its messages. -/
def step (isPublic : DocKey → Bool) (topics : List String) (stack : Nat) (s : Instance) :
    InstanceAction → Option Instance
  | .constructDocService =>
    if s.docService then none
    else some { s with subscribers := DocService.construct s.subscribers, docService := true }
  | .constructTokenService =>
    if s.tokenService then none
    else some { s with subscribers := TokenService.construct s.subscribers, tokenService := true }
  | .handler a =>
    if s.docService ∧ s.tokenService ∧ a.isHandler then
      (s.gateway.step isPublic a).map fun r =>
        { s with gateway := r.1, emitted := s.emitted ++ [r.2] }
    else none
  | .onMessageRaw m =>
    if m.type.topic ∈ topics then
      some (s.exec (Pubsub.onMessage s.subscribers stack m))
    else none
  | .checkTokenExpiration now =>
    if s.tokenService then
      some (s.exec
        (TokenService.checkTokenExpiration (Pubsub.onMessage s.subscribers stack) now))
    else none

end Instance

end AlaFois
