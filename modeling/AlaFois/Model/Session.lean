import AlaFois.Model.DocClient
import AlaFois.Model.Gateway

/-!
# A client and its gateway

One client over one stable connection. The gateway takes the messages of the client in their
order, each handler up to its first wait, and the client gets those of the gateway in theirs; the
API answers, the handlers go on and tokens are updated at any time in between.
-/

namespace AlaFois

/-- The handler of the gateway for a message. -/
def ClientRequest.handler (c : ConnectionId) : ClientRequest → GatewayAction
  | .join docId => .node (.onJoin c docId)
  | .setToken _ => .node (.onSetToken c)
  | .changes docId update => .onChanges c docId update
  | .syncStart docId vector => .onSyncStart c docId vector
  | .syncComplete docId update => .onSyncComplete c docId update
  | .awareness docId update => .onAwareness c docId update

/-- The messages that containers send of themselves. -/
def ClientRequest.ofContainer : ClientRequest → Bool
  | .join _ => false
  | .setToken _ => false
  | _ => true

/-- What happens at a gateway with no message of a client, as long as the connection stays. -/
def GatewayAction.unasked : GatewayAction → Bool
  | .node (.apiAnswers _ _) => true
  | .node (.resume _) => true
  | .node (.onUpdateTokenMessage _) => true
  | .actorReplies _ _ => true
  | .onPubsubMessage _ => true
  | _ => false

/-- `received` counts the messages of the gateway that the client has got. -/
structure Session where
  client : DocClient
  gateway : Gateway
  toServer : List ClientRequest
  received : Nat

/-- `edit` is a message of a container: an edit, a step of a sync or awareness. -/
inductive SessionAction
  | getDoc (id : DocKey)
  | setToken (token : String)
  | disposeDocs
  | edit (request : ClientRequest)
  | getDocTimeout (n : Nat)
  | setTokenTimeout (n : Nat)
  | receive
  | handle
  | server (a : GatewayAction)
deriving DecidableEq

namespace Session

/-- The connection has been made, with the API's answer for its token if it came with one. -/
def init (c : ConnectionId) (token : Option CheckClientTokenResponse) : Session :=
  ⟨.init, ⟨⟨Proxy.init.handleConnection c token, []⟩, []⟩, [], 0⟩

/-- The messages on their way to the client. -/
def toClient (c : ConnectionId) (s : Session) : List ServerMessage :=
  ((s.gateway.node.proxy.sent.filter (·.1 = c)).map (·.2)).drop s.received

def serve (isPublic : DocKey → Bool) (s : Session) (a : GatewayAction) : Option Session :=
  (s.gateway.step isPublic a).map fun (gateway, _) => { s with gateway := gateway }

/-- The client goes on and sends its messages. -/
def request (s : Session) (r : DocClient × List ClientRequest) : Session :=
  { s with client := r.1, toServer := s.toServer ++ r.2 }

def step (isPublic : DocKey → Bool) (c : ConnectionId) (s : Session) : SessionAction →
    Option Session
  | .getDoc id => some (s.request (s.client.getDoc id))
  | .setToken token => some (s.request (s.client.setToken token))
  | .disposeDocs => some (s.request (s.client.disposeDocs, []))
  | .edit request =>
    if request.ofContainer then some (s.request (s.client, [request])) else none
  | .getDocTimeout n =>
    (s.client.step (.getDocTimeout n)).map fun client => s.request (client, [])
  | .setTokenTimeout n =>
    (s.client.step (.setTokenTimeout n)).map fun client => s.request (client, [])
  | .receive =>
    match s.toClient c with
    | [] => none
    | m :: _ => some { s with client := s.client.onMessage m, received := s.received + 1 }
  | .handle =>
    match s.toServer with
    | [] => none
    | request :: rest => { s with toServer := rest }.serve isPublic (request.handler c)
  | .server a => if a.unasked then s.serve isPublic a else none

/-- No message is on its way, no handler waits for the API and no call of the client is pending. -/
structure Quiescent (c : ConnectionId) (s : Session) : Prop where
  toServer : s.toServer = []
  toClient : s.toClient c = []
  handlers : s.gateway.node.calls = []
  getDocs : s.client.opening = []
  setTokens : .pending ∉ s.client.setTokens

end Session

end AlaFois
