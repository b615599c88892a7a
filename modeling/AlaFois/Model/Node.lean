import AlaFois.Model.Proxy

/-!
# Suspended handlers

The handlers of `WsGateway` wait for the API in their middle. A `Node` is an instance together
with the handlers that wait; between the start of a handler, the API's answer and the rest of
the handler, everything else may happen. A `Delivery` adds what one instance sees of the API:
the tainted tokens and the messages published about them.
-/

namespace AlaFois

/-- A handler that waits for the API, or has its answer and is to go on. -/
inductive HandlerCall
  | handleConnection (c : ConnectionId) (answer : Option CheckClientTokenResponse)
  | onJoin (c : ConnectionId) (docId : DocKey) (answer : Option DocIsPublicResponse)
  | onSetToken (c : ConnectionId) (answer : Option CheckClientTokenResponse)
deriving DecidableEq

namespace HandlerCall

def conn : HandlerCall → ConnectionId
  | .handleConnection c _ => c
  | .onJoin c _ _ => c
  | .onSetToken c _ => c

/-- The second call is the first one with an answer of the API. -/
def answeredBy : HandlerCall → HandlerCall → Bool
  | .handleConnection c none, .handleConnection c' (some _) => c = c'
  | .onJoin c docId none, .onJoin c' docId' (some _) => c = c' ∧ docId = docId'
  | .onSetToken c none, .onSetToken c' (some _) => c = c'
  | _, _ => false

/-- The payload of a token that the API has accepted for the call. -/
def payload : HandlerCall → Option JWTPayload
  | .handleConnection _ (some (.ok payload)) => some payload
  | .onSetToken _ (some (.ok payload)) => some payload
  | _ => none

end HandlerCall

namespace Proxy

/-- The rest of `handleConnection` once the API has answered. -/
def connectionAnswered (p : Proxy) (c : ConnectionId) (response : CheckClientTokenResponse) :
    Proxy :=
  let (p, status) := p.applyToken c response
  p.send c (.connectResponse status)

/-- What is left of a handler; the code up to the next `await` runs in one go. -/
def resume (p : Proxy) : HandlerCall → Option Proxy
  | .handleConnection c (some response) => some (p.connectionAnswered c response)
  | .onJoin c docId (some response) => some (p.joinAnswered c docId response)
  | .onSetToken c (some response) => some (p.onSetToken c response)
  | _ => none

end Proxy

structure Node where
  proxy : Proxy
  calls : List HandlerCall

inductive NodeAction
  | handleConnection (c : ConnectionId) (hasToken : Bool)
  | onJoin (c : ConnectionId) (docId : DocKey)
  | onSetToken (c : ConnectionId)
  | apiAnswers (call answered : HandlerCall)
  | resume (call : HandlerCall)
  | onUpdateTokenMessage (m : UpdateTokenMessage)
  | checkTokenExpiration (now : Int)
  | handleDisconnect (c : ConnectionId)
deriving DecidableEq

namespace Node

def init : Node := ⟨.init, []⟩

def suspend (n : Node) (call : HandlerCall) : Node := { n with calls := call :: n.calls }

def step (n : Node) : NodeAction → Option Node
  | .handleConnection c hasToken =>
    if (n.proxy.conns c).readyState = .connecting then
      if hasToken then some ⟨n.proxy.openConnection c, .handleConnection c none :: n.calls⟩
      else some { n with proxy := n.proxy.handleConnection c none }
    else none
  | .onJoin c docId =>
    if n.proxy.connected c then
      match n.proxy.docAccess c docId with
      | .typeError => some n
      | .granted => some { n with proxy := n.proxy.finishJoin c docId .ok }
      | .denied => some { n with proxy := n.proxy.finishJoin c docId (.err "Unauthorized") }
      | .ask => some (n.suspend (.onJoin c docId none))
    else none
  | .onSetToken c =>
    if n.proxy.connected c then some (n.suspend (.onSetToken c none)) else none
  | .apiAnswers call answered =>
    if call ∈ n.calls ∧ call.answeredBy answered then
      some { n with calls := answered :: n.calls.erase call }
    else none
  | .resume call =>
    if call ∈ n.calls then
      (n.proxy.resume call).map fun p => ⟨p, n.calls.erase call⟩
    else none
  | .onUpdateTokenMessage m => some { n with proxy := n.proxy.onUpdateTokenMessage m }
  | .checkTokenExpiration now => some { n with proxy := n.proxy.checkTokenExpiration now }
  | .handleDisconnect c =>
    if n.proxy.connected c then some { n with proxy := n.proxy.handleDisconnect c } else none

end Node

/-- `published` are the messages on their way to this instance. -/
structure Delivery where
  node : Node
  tainted : List (TokenId × ConsumerId)
  published : List UpdateTokenMessage
  delivered : List UpdateTokenMessage

inductive DeliveryAction
  | node (a : NodeAction)
  | taint (tokenId : TokenId) (consumerId : ConsumerId)
  | publish (m : UpdateTokenMessage)
  | deliver (m : UpdateTokenMessage)

namespace Delivery

def init : Delivery := ⟨.init, [], [], []⟩

/-- The API accepts no token that is tainted when it handles the call. -/
def answers (s : Delivery) : NodeAction → Bool
  | .apiAnswers _ answered =>
    answered.payload.all fun payload => (payload.tokenId, payload.consumerId) ∉ s.tainted
  | .onUpdateTokenMessage _ => false -- messages arrive by `deliver`
  | _ => true

/-- The API publishes a message after it has tainted the old token. -/
def step (s : Delivery) : DeliveryAction → Option Delivery
  | .node a =>
    if s.answers a then (s.node.step a).map fun n => { s with node := n } else none
  | .taint tokenId consumerId => some { s with tainted := (tokenId, consumerId) :: s.tainted }
  | .publish m =>
    if (m.oldTokenId, m.consumerId) ∈ s.tainted then
      some { s with published := m :: s.published }
    else none
  | .deliver m =>
    if m ∈ s.published then
      some { s with
        node := { s.node with proxy := s.node.proxy.onUpdateTokenMessage m }
        published := s.published.erase m
        delivered := m :: s.delivered }
    else none

end Delivery

end AlaFois
