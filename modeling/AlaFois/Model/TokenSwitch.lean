import AlaFois.Model.Gateway

/-!
# The tokens of one connection

The setToken messages that one connection sends, in their order, on the instance that serves it.
Each handler waits for the API on its own, so that the answers and the rest of the handlers can come
in any order, with everything else that the instance does in between.
-/

namespace AlaFois

/-- Where the handler of a setToken message stands. -/
inductive SetTokenStage
  | waiting
  | answered (response : CheckClientTokenResponse)
  | finished (response : CheckClientTokenResponse)
deriving DecidableEq

/-- What is recorded of the connection: the token of a message has been applied to it, or it has
joined a document. -/
inductive SwitchEvent
  | applied (message : Nat)
  | joined (docId : DocKey)
deriving DecidableEq

/-- `messages` are the setToken messages of the connection in sending order; the calls of all other
handlers are in the node. The latest event comes first. -/
structure TokenSwitch where
  node : Node
  messages : List SetTokenStage
  events : List SwitchEvent

inductive SwitchAction
  | setToken
  | apiAnswers (message : Nat) (response : CheckClientTokenResponse)
  | resume (message : Nat)
  | node (a : NodeAction)
deriving DecidableEq

def CheckClientTokenResponse.payload {Docs : Type} :
    CheckClientTokenResponse (JWTPayload Docs) → Option (JWTPayload Docs)
  | .ok payload => some payload
  | .error _ => none

/-- The API accepts no token without an expiry (`TokenPayload.validate`). -/
def CheckClientTokenResponse.isDated {Docs : Type}
    (response : CheckClientTokenResponse (JWTPayload Docs)) : Bool :=
  response.payload.all (·.expiredAt.isSome)

namespace TokenSwitch

def init : TokenSwitch := ⟨.init, [], []⟩

variable (c : ConnectionId)

/-- The handler of the connection's opening waits for its initial token. -/
def isOpening (n : Node) : Bool :=
  n.calls.any fun call =>
    match call with
    | .handleConnection c' _ => c' = c
    | _ => false

/-- The instance gives the connection a token in another way than by its setToken messages. -/
def retokens (n : Node) : NodeAction → Bool
  | .onSetToken c' => c' = c
  | .onUpdateTokenMessage m => c ∈ n.proxy.connectionsOf m.oldTokenId
  | _ => false

/-- The documents whose joins an action grants the connection. -/
def joins (n : Node) (a : NodeAction) : List DocKey :=
  (n.grants a).filterMap fun grant => if grant.1 = c then some grant.2.1 else none

def step (s : TokenSwitch) : SwitchAction → Option TokenSwitch
  | .setToken =>
    -- the initial token has been applied or refused
    if s.node.proxy.connected c ∧ ¬isOpening c s.node then
      some { s with messages := s.messages ++ [.waiting] }
    else none
  | .apiAnswers message response =>
    if s.messages[message]? = some .waiting ∧ response.isDated then
      some { s with messages := s.messages.set message (.answered response) }
    else none
  | .resume message =>
    match s.messages[message]? with
    | some (.answered response) =>
      some {
        node := { s.node with proxy := s.node.proxy.onSetToken c response }
        messages := s.messages.set message (.finished response)
        events := if response.payload.isSome then .applied message :: s.events else s.events }
    | _ => none
  | .node a =>
    if retokens c s.node a then none
    else
      (s.node.step a).map fun n =>
        { s with node := n, events := (joins c s.node a).map .joined ++ s.events }

end TokenSwitch

end AlaFois
