import AlaFois.Lib.Async
import AlaFois.Model.Gateway

/-!
# Calls of actors and their failures

The handlers of `WsGateway` that call an actor, through `DocService` and `ActorService`, as
asynchronous computations: what each layer awaits, what it catches, and what it lets go.
-/

namespace AlaFois

/-- What is thrown: a `MessageError`, or anything else. -/
inductive Thrown
  | messageError (docId : DocKey) (message : String)
  | other
deriving DecidableEq

def baseErrorMessage : ServerMessage := .error none "Internal server error"

def Thrown.toMessage : Thrown → ServerMessage
  | .messageError docId message => AlaFois.messageError docId message
  | .other => baseErrorMessage

/-- What the methods of an actor resolve to. -/
abbrev ActorCall.Reply : ActorCall → Type
  | .applyDiff _ _ => Bool
  | .syncStart _ => StateVector × Changes
  | .syncComplete _ _ => Unit

/-- What leaves the instance and is answered: the call of an actor's method, and `send` of the
producer. -/
inductive RemoteCall
  | actor (docId : DocKey) (call : ActorCall)
  | send (message : ChangesPubsubMessage)
deriving DecidableEq

abbrev RemoteCall.Reply : RemoteCall → Type
  | .actor _ call => call.Reply
  | .send _ => Unit

abbrev Promise (α : Type) : Type 1 := Async RemoteCall RemoteCall.Reply Thrown α

/-- `Pubsub.publish`; a failure is logged. -/
def Pubsub.publish (message : ChangesPubsubMessage) : Promise Unit :=
  let sent : Promise Unit := Async.await (RemoteCall.send message)
  .drops (sent.catches fun _ => .pure ()) (.pure ())

/-- `actors` are the keys for which an actor has been built. -/
structure ActorService where
  actors : List DocKey
deriving DecidableEq

namespace ActorService

-- what building the proxy of an actor throws, if it does
variable (build : DocKey → Except Thrown Unit)

def getOrCreateActor (s : ActorService) (key : DocKey) : Except Thrown ActorService :=
  if key ∈ s.actors then .ok s else (build key).map fun _ => ⟨key :: s.actors⟩

/-- A method of the actor, with what it throws replaced. -/
def call (s : ActorService) (docId : DocKey) (call : ActorCall) : ActorService × Promise call.Reply :=
  match s.getOrCreateActor build docId with
  | .error e => (s, .throw e)
  | .ok s =>
    let replied : Promise call.Reply := Async.await (RemoteCall.actor docId call)
    (s, replied.catches fun _ => .throw (.messageError docId ActorConnectionError.message))

def sendChanges (s : ActorService) (userId : UserId) (docId : DocKey) (changes : Changes) :
    ActorService × Promise Bool :=
  s.call build docId (.applyDiff changes userId)

def syncStart (s : ActorService) (docId : DocKey) (vector : StateVector) :
    ActorService × Promise (StateVector × Changes) :=
  s.call build docId (.syncStart vector)

def syncComplete (s : ActorService) (userId : UserId) (docId : DocKey) (changes : Changes) :
    ActorService × Promise Unit :=
  s.call build docId (.syncComplete changes userId)

end ActorService

/-- The gateway, with its `docService` and `authService` in the proxy. -/
structure WsGateway where
  proxy : Proxy
  actorService : ActorService

namespace WsGateway

variable (build : DocKey → Except Thrown Unit)

/-- `DocService.applyChanges`. -/
def applyChanges (g : WsGateway) (c : ConnectionId) (docId : DocKey) (changes : Changes) :
    WsGateway × Promise Bool :=
  match g.proxy.docService.applyChanges c docId changes with
  | .error e => (g, .throw (.messageError e.docId NotJoinedError.message))
  | .ok effects =>
    let (actorService, sent) := g.actorService.sendChanges build c docId changes
    (⟨g.proxy.sendAll effects.sent, actorService⟩,
      (Pubsub.publish effects.published).bind fun _ => sent)

/-- `DocService.syncStart`. -/
def syncStart (g : WsGateway) (docId : DocKey) (vector : StateVector) :
    WsGateway × Promise (StateVector × Changes) :=
  let (actorService, started) := g.actorService.syncStart build docId vector
  ({ g with actorService := actorService }, started)

/-- `DocService.syncComplete`, which returns nothing. -/
def syncComplete (g : WsGateway) (c : ConnectionId) (docId : DocKey) (changes : Changes) :
    WsGateway × Promise Unit :=
  let (actorService, completed) := g.actorService.syncComplete build c docId changes
  ({ g with actorService := actorService }, .drops completed (.pure ()))

/-- What the handlers do with an error that they catch. -/
def reply (e : Thrown) : Promise (Option ServerMessage) := .pure (some e.toMessage)

/-- The check of the rights, and the rest of the handler; reading a table that is undefined throws. -/
def checked (g : WsGateway) (check : Option Status) (docId : DocKey)
    (rest : WsGateway × Promise (Option ServerMessage)) :
    WsGateway × Promise (Option ServerMessage) :=
  match check with
  | none => (g, .throw .other)
  | some (.err message) => (g, .pure (some (.error (some docId) message)))
  | some .ok => rest

def onChanges (g : WsGateway) (c : ConnectionId) (docId : DocKey) (changes : Changes) :
    WsGateway × Promise (Option ServerMessage) :=
  g.checked (g.proxy.checkWriteAccess c docId) docId <|
    let (g, applied) := g.applyChanges build c docId changes
    let replied := applied.bind fun syncNeeded =>
      .pure (if syncNeeded then some (.requestSync syncNeeded) else none)
    (g, replied.catches reply)

def onSyncStart (g : WsGateway) (c : ConnectionId) (docId : DocKey) (vector : StateVector) :
    WsGateway × Promise (Option ServerMessage) :=
  g.checked (g.proxy.checkReadAccess c docId) docId <|
    let (g, started) := g.syncStart build docId vector
    let replied := started.bind fun data => .pure (some (.syncResponse docId data.1 data.2))
    (g, replied.catches reply)

def onSyncComplete (g : WsGateway) (c : ConnectionId) (docId : DocKey) (changes : Changes) :
    WsGateway × Promise (Option ServerMessage) :=
  g.checked (g.proxy.checkWriteAccess c docId) docId <|
    let (g, completed) := g.syncComplete build c docId changes
    (g, (completed.bind fun _ => .pure none).catches reply)

end WsGateway

/-- The messages of a client whose handlers call an actor. -/
inductive ActorMessage
  | changes (docId : DocKey) (changes : Changes)
  | syncStart (docId : DocKey) (vector : StateVector)
  | syncComplete (docId : DocKey) (changes : Changes)
deriving DecidableEq

namespace ActorMessage

def docId : ActorMessage → DocKey
  | .changes docId _ | .syncStart docId _ | .syncComplete docId _ => docId

def call (c : ConnectionId) : ActorMessage → ActorCall
  | .changes _ diff => .applyDiff diff c
  | .syncStart _ vector => .syncStart vector
  | .syncComplete _ diff => .syncComplete diff c

end ActorMessage

def WsGateway.handle (build : DocKey → Except Thrown Unit) (g : WsGateway) (c : ConnectionId) :
    ActorMessage → WsGateway × Promise (Option ServerMessage)
  | .changes docId changes => g.onChanges build c docId changes
  | .syncStart docId vector => g.onSyncStart build c docId vector
  | .syncComplete docId changes => g.onSyncComplete build c docId changes

end AlaFois
