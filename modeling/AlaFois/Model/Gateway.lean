import AlaFois.Model.DocHandler
import AlaFois.Model.Node

/-!
# Messages about documents

The handlers of `WsGateway` for changes, syncs and awareness, which check the rights of the
connection and call the actor with no wait in between, and go on when the actor has replied. A
`Site` is one instance with the documents that are stored.
-/

namespace AlaFois

/-- A call of an actor's method, made for a connection. -/
structure ActorRequest where
  conn : ConnectionId
  docId : DocKey
  call : ActorCall
deriving DecidableEq

namespace Proxy

/-- `checkReadAccess` and `checkWriteAccess`; reading a table that is undefined throws. -/
def checkAccess (right : Right) (p : Proxy) (c : ConnectionId) (docId : DocKey) : Option Status :=
  match (p.conns c).access with
  | none => none
  | some access =>
    if (access.get docId).any (right ∈ ·.rights) then some .ok
    else if p.publicDocs.has docId then some .ok
    else some (.err "Unauthorized")

def checkReadAccess : Proxy → ConnectionId → DocKey → Option Status := checkAccess .read

def checkWriteAccess : Proxy → ConnectionId → DocKey → Option Status := checkAccess .write

def sendAll (p : Proxy) (messages : List Sent) : Proxy :=
  messages.foldl (fun p message => p.send message.1 message.2) p

end Proxy

/-- `MessageError.toMessage`; an empty docId is left out. -/
def messageError (docId : DocKey) (message : String) : ServerMessage :=
  .error (if docId = "" then none else some docId) message

def ActorConnectionError.message : String := "Couldn't connect to an actor, try again."

/-- What leaves the instance: calls of actors, and messages for the other instances. -/
structure Emitted where
  actorCalls : List ActorRequest
  published : List ChangesPubsubMessage
deriving DecidableEq

def Emitted.none : Emitted := ⟨[], []⟩

/-- `waiting` are the calls of actors that a handler waits for. -/
structure Gateway where
  node : Node
  waiting : List ActorRequest

inductive GatewayAction
  | node (a : NodeAction)
  | onChanges (c : ConnectionId) (docId : DocKey) (changes : Changes)
  | onSyncStart (c : ConnectionId) (docId : DocKey) (vector : StateVector)
  | onSyncComplete (c : ConnectionId) (docId : DocKey) (changes : Changes)
  | onAwareness (c : ConnectionId) (docId : DocKey) (awareness : Changes)
  | actorReplies (request : ActorRequest) (reply : ActorReply)
  | onPubsubMessage (m : ChangesPubsubMessage)
deriving DecidableEq

namespace Gateway

def init : Gateway := ⟨.init, []⟩

def send (g : Gateway) (c : ConnectionId) (message : ServerMessage) : Gateway :=
  { g with node := { g.node with proxy := g.node.proxy.send c message } }

def sendAll (g : Gateway) (messages : List Sent) : Gateway :=
  { g with node := { g.node with proxy := g.node.proxy.sendAll messages } }

/-- What `applyChanges` and `applyAwareness` do, up to the wait for the actor. -/
def applied (g : Gateway) (c : ConnectionId) : Except NotJoinedError ApplyEffects →
    Gateway × Emitted
  | .error e => (g.send c (messageError e.docId NotJoinedError.message), .none)
  | .ok effects =>
    let calls := effects.actorCall.toList.map fun (docId, userId, changes) =>
      ⟨userId, docId, .applyDiff changes userId⟩
    ({ g.sendAll effects.sent with waiting := calls ++ g.waiting }, ⟨calls, [effects.published]⟩)

def onChanges (g : Gateway) (c : ConnectionId) (docId : DocKey) (changes : Changes) :
    Gateway × Emitted :=
  match g.node.proxy.checkWriteAccess c docId with
  | none => (g, .none)
  | some (.err message) => (g.send c (.error (some docId) message), .none)
  | some .ok => g.applied c (g.node.proxy.docService.applyChanges c docId changes)

def onSyncStart (g : Gateway) (c : ConnectionId) (docId : DocKey) (vector : StateVector) :
    Gateway × Emitted :=
  match g.node.proxy.checkReadAccess c docId with
  | none => (g, .none)
  | some (.err message) => (g.send c (.error (some docId) message), .none)
  | some .ok =>
    ({ g with waiting := ⟨c, docId, .syncStart vector⟩ :: g.waiting },
      ⟨[⟨c, docId, .syncStart vector⟩], []⟩)

/-- Nobody waits for the actor's reply. -/
def onSyncComplete (g : Gateway) (c : ConnectionId) (docId : DocKey) (changes : Changes) :
    Gateway × Emitted :=
  match g.node.proxy.checkWriteAccess c docId with
  | none => (g, .none)
  | some (.err message) => (g.send c (.error (some docId) message), .none)
  | some .ok => (g, ⟨[⟨c, docId, .syncComplete changes c⟩], []⟩)

def onAwareness (g : Gateway) (c : ConnectionId) (docId : DocKey) (awareness : Changes) :
    Gateway × Emitted :=
  g.applied c (g.node.proxy.docService.applyAwareness c docId awareness)

/-- The rest of `onChanges` and of `onSyncStart`. -/
def actorReplied (g : Gateway) (request : ActorRequest) : ActorReply → Gateway
  | .applyDiff syncNeeded =>
    if syncNeeded then g.send request.conn (.requestSync syncNeeded) else g
  | .syncStart vector changes =>
    g.send request.conn (.syncResponse request.docId vector changes)
  | .syncComplete => g
  | .threw => g.send request.conn (messageError request.docId ActorConnectionError.message)

end Gateway

/-- The API tells of a document whether it is public at the time of the answer. -/
def NodeAction.tells (isPublic : DocKey → Bool) : NodeAction → Bool
  | .apiAnswers _ (.onJoin _ docId (some (.ok answer))) => answer = isPublic docId
  | _ => true

namespace Gateway

def step (isPublic : DocKey → Bool) (g : Gateway) : GatewayAction → Option (Gateway × Emitted)
  | .node a =>
    if a.tells isPublic then (g.node.step a).map fun n => ({ g with node := n }, .none) else none
  | .onChanges c docId changes =>
    if g.node.proxy.connected c then some (g.onChanges c docId changes) else none
  | .onSyncStart c docId vector =>
    if g.node.proxy.connected c then some (g.onSyncStart c docId vector) else none
  | .onSyncComplete c docId changes =>
    if g.node.proxy.connected c then some (g.onSyncComplete c docId changes) else none
  | .onAwareness c docId awareness =>
    if g.node.proxy.connected c then some (g.onAwareness c docId awareness) else none
  | .actorReplies request reply =>
    if request ∈ g.waiting then
      some ({ g with waiting := g.waiting.erase request }.actorReplied request reply, .none)
    else none
  | .onPubsubMessage m =>
    some (g.sendAll (g.node.proxy.docService.onChangesOrAwarenessMessage m), .none)

end Gateway

/-- The `_id` of a stored document. -/
abbrev ObjectId := String

/-- `granted` lists the joins that were granted, each with the table of the connection. -/
structure Site where
  gateway : Gateway
  publicFlags : JsMap ObjectId Bool
  granted : List (ConnectionId × DocKey × Option Access)

inductive SiteAction
  | gateway (a : GatewayAction)
  | createDoc (id : ObjectId) (isPublic : Bool)
deriving DecidableEq

/-- The join that an action grants. -/
def Node.grants (n : Node) : NodeAction → List (ConnectionId × DocKey × Option Access)
  | .onJoin c docId =>
    if n.proxy.docAccess c docId = .granted then [(c, docId, (n.proxy.conns c).access)] else []
  | .resume (.onJoin c docId (some (.ok true))) => [(c, docId, (n.proxy.conns c).access)]
  | _ => []

def Gateway.grants (g : Gateway) : GatewayAction → List (ConnectionId × DocKey × Option Access)
  | .node a => g.node.grants a
  | _ => []

namespace Site

def init : Site := ⟨.init, .empty, []⟩

-- how mongoose reads a docId, if it does
variable (objectId : DocKey → Option ObjectId)

def publicFlag (s : Site) (docId : DocKey) : Option Bool := (objectId docId).bind s.publicFlags.get

def isPublic (s : Site) (docId : DocKey) : Bool := s.publicFlag objectId docId = some true

def step (s : Site) : SiteAction → Option Site
  | .gateway a =>
    (s.gateway.step (s.isPublic objectId) a).map fun r =>
      { s with gateway := r.1, granted := s.gateway.grants a ++ s.granted }
  | .createDoc id isPublic =>
    if s.publicFlags.get id = none then
      some { s with publicFlags := s.publicFlags.set id isPublic }
    else none

end Site

end AlaFois
