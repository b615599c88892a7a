import AlaFois.Model.DocContainer
import AlaFois.Model.DocService

/-!
# Clients, proxies and the actor of one document

Any number of clients with read and write rights on the document, any number of proxy
instances, one actor. The messages of a connection keep their order in either direction; the
calls of the actor, its replies and the messages of the pubsub are delivered in any order.
-/

namespace AlaFois

/-- `socket` is the connection that the client takes for open. `joined` and `synced` record a
successful join on it, and a sync completed since. -/
structure Client (Doc : Type*) where
  container : DocContainer Doc
  socket : Option ConnectionId
  joined : Bool
  synced : Bool
deriving DecidableEq

/-- `clients` are indexed by `ι`, the proxy instances by `κ`. `toServer` and `toClient` are the
messages on a connection, `pubsub` those of the topic that an instance has not seen yet, `calls`
and `replies` those between the proxies and the actor. -/
structure Network (ι κ Doc : Type*) where
  docId : DocKey
  clients : ι → Client Doc
  sessions : JsMap ConnectionId (ι × κ)
  serverOpen : ConnectionId → Bool
  toServer : ConnectionId → List ClientMessage
  toClient : ConnectionId → List ServerMessage
  proxies : κ → DocService
  pubsub : κ → List ChangesPubsubMessage
  calls : List (ConnectionId × ActorCall)
  actor : DocHandler Doc
  serving : Option (ConnectionId × ActorCall)
  replies : List (ConnectionId × ActorCall × ActorReply)

inductive NetworkAction (ι κ : Type*)
  | edit (c : ι) (update : Bytes)
  | sync (c : ι)
  | syncTimeout (c : ι)
  | connect (c : ι) (k : ConnectionId) (p : κ)
  | disconnect (c : ι)
  | receive (c : ι)
  | handle (k : ConnectionId)
  | handleDisconnect (k : ConnectionId)
  | deliver (p : κ) (m : ChangesPubsubMessage)
  | invoke (k : ConnectionId) (call : ActorCall)
  | resume
  | reply (k : ConnectionId) (call : ActorCall) (reply : ActorReply)
  | syncAwaitExpired (userId : UserId)
deriving DecidableEq

/-- The answer of the gateway to the client when the actor has replied. Nobody waits for the
reply to `syncComplete`. -/
def gatewayReply (docId : DocKey) : ActorCall → ActorReply → Option ServerMessage
  | .applyDiff _ _, .applyDiff syncNeeded =>
    if syncNeeded then some (.requestSync syncNeeded) else none
  | .syncStart _, .syncStart vector changes => some (.syncResponse docId vector changes)
  | .syncComplete _ _, _ => none
  | _, _ => some (.error (some docId) "Couldn't connect to an actor, try again.")

namespace Network

variable {ι κ Doc : Type*}

def init (y : Yjs Doc) (docId : DocKey) (actor : DocHandler Doc) : Network ι κ Doc where
  docId := docId
  clients _ := ⟨.new y docId, none, false, false⟩
  sessions := .empty
  serverOpen _ := false
  toServer _ := []
  toClient _ := []
  proxies _ := .init
  pubsub _ := []
  calls := []
  actor := actor
  serving := none
  replies := []

/-- Messages of a client reach a proxy that has not closed the connection. -/
def send (s : Network ι κ Doc) (c : ι) (messages : List ClientMessage) : Network ι κ Doc :=
  match (s.clients c).socket with
  | none => s
  | some k =>
    if s.serverOpen k then
      { s with toServer := Function.update s.toServer k (s.toServer k ++ messages) }
    else s

section Clients

variable [DecidableEq ι]

/-- The client goes on with the container and hands over its messages. -/
def advance (s : Network ι κ Doc) (c : ι) (client : Client Doc) (messages : List ClientMessage) :
    Network ι κ Doc :=
  { s.send c messages with clients := Function.update s.clients c client }

/-- A new connection, with the join that `handleConnected` sends on it. -/
def connect (s : Network ι κ Doc) (c : ι) (k : ConnectionId) (p : κ) : Network ι κ Doc :=
  { s with
    clients := Function.update s.clients c ⟨(s.clients c).container, some k, false, false⟩
    sessions := s.sessions.set k (c, p)
    serverOpen := Function.update s.serverOpen k true
    toServer := Function.update s.toServer k [.join] }

/-- The client's end is closed; what was on its way to the client is lost. -/
def disconnect (s : Network ι κ Doc) (c : ι) (k : ConnectionId) : Network ι κ Doc :=
  { s with
    clients := Function.update s.clients c ⟨(s.clients c).container, none, false, false⟩
    toClient := Function.update s.toClient k [] }

variable (s : Network ι κ Doc) (c : ι) (k : ConnectionId) (p : κ)

@[simp] lemma connect_docId : (s.connect c k p).docId = s.docId := rfl

@[simp] lemma connect_clients : (s.connect c k p).clients =
    Function.update s.clients c ⟨(s.clients c).container, some k, false, false⟩ := rfl

@[simp] lemma connect_sessions : (s.connect c k p).sessions = s.sessions.set k (c, p) := rfl

@[simp] lemma connect_serverOpen :
    (s.connect c k p).serverOpen = Function.update s.serverOpen k true := rfl

@[simp] lemma connect_toServer :
    (s.connect c k p).toServer = Function.update s.toServer k [.join] := rfl

@[simp] lemma disconnect_docId : (s.disconnect c k).docId = s.docId := rfl

@[simp] lemma disconnect_clients : (s.disconnect c k).clients =
    Function.update s.clients c ⟨(s.clients c).container, none, false, false⟩ := rfl

@[simp] lemma disconnect_toClient :
    (s.disconnect c k).toClient = Function.update s.toClient k [] := rfl

end Clients

section Proxies

variable [DecidableEq κ]

/-- The proxy's end is closed; what was on its way to the proxy is lost. -/
def handleDisconnect (s : Network ι κ Doc) (k : ConnectionId) (p : κ) : Network ι κ Doc :=
  { s with
    proxies := Function.update s.proxies p ((s.proxies p).disconnect k)
    serverOpen := Function.update s.serverOpen k false
    toServer := Function.update s.toServer k [] }

variable (s : Network ι κ Doc) (k : ConnectionId) (p : κ)

@[simp] lemma handleDisconnect_proxies : (s.handleDisconnect k p).proxies =
    Function.update s.proxies p ((s.proxies p).disconnect k) := rfl

@[simp] lemma handleDisconnect_serverOpen :
    (s.handleDisconnect k p).serverOpen = Function.update s.serverOpen k false := rfl

@[simp] lemma handleDisconnect_toServer :
    (s.handleDisconnect k p).toServer = Function.update s.toServer k [] := rfl

end Proxies

/-- Both ends of the connection are open. -/
def reaches (s : Network ι κ Doc) (k : ConnectionId) : Bool :=
  s.serverOpen k && (s.sessions.get k).any fun e => (s.clients e.1).socket = some k

/-- The messages that a proxy sends, to each connection in their order. -/
def post (s : Network ι κ Doc) (sent : List Sent) : Network ι κ Doc :=
  { s with toClient := fun k =>
      if s.reaches k then s.toClient k ++ (sent.filter (·.1 = k)).map (·.2) else s.toClient k }

/-- Every instance has a consumer group of its own. -/
def publish (s : Network ι κ Doc) (m : ChangesPubsubMessage) : Network ι κ Doc :=
  { s with pubsub := fun p => s.pubsub p ++ [m] }

def addCall (s : Network ι κ Doc) (k : ConnectionId) (call : ActorCall) : Network ι κ Doc :=
  { s with calls := s.calls ++ [(k, call)] }

variable [DecidableEq ι] [DecidableEq κ] (y : Yjs Doc)

def withProxy (s : Network ι κ Doc) (p : κ) (proxy : DocService) : Network ι κ Doc :=
  { s with proxies := Function.update s.proxies p proxy }

def popServer (s : Network ι κ Doc) (k : ConnectionId) (rest : List ClientMessage) :
    Network ι κ Doc :=
  { s with toServer := Function.update s.toServer k rest }

def popClient (s : Network ι κ Doc) (k : ConnectionId) (rest : List ServerMessage) :
    Network ι κ Doc :=
  { s with toClient := Function.update s.toClient k rest }

/-- The handlers of the gateway, for a client that has the rights. -/
def gateway (s : Network ι κ Doc) (k : ConnectionId) (p : κ) : ClientMessage → Network ι κ Doc
  | .join =>
    (s.withProxy p ((s.proxies p).joinToDoc k s.docId)).post [(k, .joinResponse s.docId .ok)]
  | .changes changes =>
    match (s.proxies p).applyChanges k s.docId changes with
    | .error e => s.post [(k, .error (some e.docId) NotJoinedError.message)]
    | .ok effects =>
      let s := (s.publish effects.published).post effects.sent
      match effects.actorCall with
      | none => s
      | some (_, connId, changes) => s.addCall k (.applyDiff changes connId)
  | .syncStart vector => s.addCall k (.syncStart vector)
  | .syncComplete changes => s.addCall k (.syncComplete changes k)

/-- What the client records of a message. -/
def Client.onMessage (client : Client Doc) (m : ServerMessage) : Client Doc × List ClientMessage :=
  let (container, messages) := client.container.onMessage y m
  match m with
  | .joinResponse _ .ok =>
    ({ client with container := container, joined := true, synced := false }, messages)
  | .syncResponse _ _ _ =>
    ({ client with container := container, synced := client.synced || !messages.isEmpty },
      messages)
  | _ => ({ client with container := container }, messages)

/-- The actor has replied, or waits for its writes. -/
def actorCalled (s : Network ι κ Doc) (k : ConnectionId) (call : ActorCall)
    (actor : DocHandler Doc) : Option ActorReply → Network ι κ Doc
  | none => { s with actor := actor, serving := some (k, call) }
  | some reply => { s with actor := actor, replies := s.replies ++ [(k, call, reply)] }

def step (s : Network ι κ Doc) : NetworkAction ι κ → Option (Network ι κ Doc)
  | .edit c update =>
    let (container, messages) := (s.clients c).container.edit y update
    some (s.advance c { s.clients c with container := container } messages)
  | .sync c =>
    let (container, messages) := (s.clients c).container.sync y
    some (s.advance c { s.clients c with container := container } messages)
  | .syncTimeout c =>
    some (s.advance c { s.clients c with container := (s.clients c).container.syncFailed } [])
  | .connect c k p =>
    if (s.clients c).socket = none ∧ s.sessions.get k = none then
      some (s.connect c k p)
    else none
  | .disconnect c =>
    match (s.clients c).socket with
    | none => none
    | some k => some (s.disconnect c k)
  | .receive c =>
    match (s.clients c).socket with
    | none => none
    | some k =>
      match s.toClient k with
      | [] => none
      | m :: rest =>
        let (client, messages) := Client.onMessage y (s.clients c) m
        some ((s.advance c client messages).popClient k rest)
  | .handle k =>
    match s.sessions.get k, s.toServer k with
    | some (_, p), m :: rest =>
      if s.serverOpen k then some ((s.gateway k p m).popServer k rest) else none
    | _, _ => none
  | .handleDisconnect k =>
    match s.sessions.get k with
    | none => none
    | some (_, p) => if s.serverOpen k then some (s.handleDisconnect k p) else none
  | .deliver p m =>
    if m ∈ s.pubsub p then
      some { s.post ((s.proxies p).onChangesOrAwarenessMessage m) with
        pubsub := Function.update s.pubsub p ((s.pubsub p).erase m) }
    else none
  | .invoke k call =>
    if (k, call) ∈ s.calls ∧ s.actor.saving = none then
      let (actor, reply) := s.actor.invoke y call
      some ({ s with calls := s.calls.erase (k, call) }.actorCalled k call actor reply)
    else none
  | .resume =>
    -- both writes of the suspended call have succeeded
    match s.actor.saving, s.serving with
    | some saving, some (k, call) =>
      let written := { s.actor with saving := some { saving with updated := true, created := true } }
      (written.resume y).map fun (actor, reply) =>
        { s with actor := actor, serving := none, replies := s.replies ++ [(k, call, reply)] }
    | _, _ => none
  | .reply k call reply =>
    if (k, call, reply) ∈ s.replies then
      some ({ s with replies := s.replies.erase (k, call, reply) }.post
        ((gatewayReply s.docId call reply).toList.map (k, ·)))
    else none
  | .syncAwaitExpired userId =>
    (s.actor.syncAwaitExpired userId).map fun actor => { s with actor := actor }

/-- Everybody is joined and has synced since, nothing is on its way and no sync is running. -/
structure Quiescent (s : Network ι κ Doc) : Prop where
  joined : ∀ c, (s.clients c).joined = true ∧
    ∃ k ∈ (s.clients c).socket, s.serverOpen k = true
  synced : ∀ c, (s.clients c).synced = true ∧ (s.clients c).container.syncing = false
  queues : ∀ e ∈ s.sessions.entries, s.toServer e.1 = [] ∧ s.toClient e.1 = []
  pubsub : ∀ p, s.pubsub p = []
  calls : s.calls = []
  serving : s.serving = none
  replies : s.replies = []

end Network

end AlaFois
