import AlaFois.Model.ApiServer
import AlaFois.Model.Cluster
import AlaFois.Model.Node

/-!
# The API with its collections, and the message proxies

Unlike in `Cluster`, what the requests on tokens read of the consumers and the documents is what the
collections have contained, and the proxies accept only what the API has answered. A request that
reads twice may read two states of the collections.
-/

namespace AlaFois

/-- `past` are the states that the collections have been in, the current one included. -/
structure Deployment where
  server : ApiPool
  past : List Collections
  api : Api
  nodes : Nat → Node
  clock : Int

/-- `keys` and `docs` say in which of the past states the API reads the consumer and the documents, and
`again` in which one it reads the consumer of a request once it is authenticated. A message is
delivered with the documents that the proxy takes those of the message for. -/
inductive DeploymentAction
  | server (a : ServerAction)
  | api (a : ApiAction) (keys docs : Nat)
  | updateToken (authorization : String) (tokens : List String) (keys again : Nat)
  | node (i : Nat) (a : NodeAction)
  | deliver (i : Nat) (m : Published) (docs : List AccessData)
  | tick (ms : Nat)

namespace Deployment

def init (store : Collections) : Deployment :=
  ⟨Async.Server.init store, [store], .init, fun _ => .init, 0⟩

variable (env : ServerEnv)

/-- What `checkJWT` finds of the consumer of a JWT; `none` is an exception. -/
def consumerOf (c : Collections) (jwt : String) : Option (Option StoredConsumer) :=
  match env.parseJWT jwt with
  | none => some none
  | some claims =>
    match claims.signer with
    | none => some none
    | some value => c.findConsumer env.toQueryEnv value

/-- `consumerOwnsDocs` finds this number of documents. For documents that are no array it is not
called. -/
def counts (c : Collections) (owner : ConsumerId) (docs : Json) (owned : Nat) : Bool :=
  match docs with
  | .array docs => (c.toDatabase []).countOwned env.toQueryEnv owner docs = some owned
  | _ => true

/-- What the step reads is what the collections contained, and the time is the time of the clock. The
documents are counted only of a token that is valid, and in `checkClientToken` only if it has any. A
call whose query throws takes no more steps. -/
def reads (s : Deployment) (keys docs : Collections) : ApiAction → Bool
  | .checkAdmit id consumer now owned =>
    match s.api.checks.get id with
    | none => false
    | some call =>
      now = s.clock ∧
        (consumerOf env keys call.jwt).map (·.map (·.toConsumer)) = some consumer ∧
        ((checkJWT env.toApiEnv call.jwt consumer).bind (validate env.toApiEnv now)).all
          fun payload =>
            !hasDocs env.toApiEnv payload.docs ||
              counts env docs payload.consumerId payload.docs owned
  | .updateAdmit id consumer now owned =>
    match s.api.updates.get id with
    | none => false
    | some call =>
      match call.stage with
      | .checking (jwt :: _) =>
        now = s.clock ∧ (consumerOf env keys jwt).map (·.map (·.toConsumer)) = some consumer ∧
          ((checkJWT env.toApiEnv jwt consumer).bind (validateUpdate env.toApiEnv now)).all
            fun payload => counts env docs call.consumer payload.payload.docs owned
      | _ => true
  | .updateStart _ _ => false -- `updateToken` authenticates the consumer
  | _ => true

/-- The payload is what a proxy takes an accepted one for. -/
def accepts (payload : JWTPayload) : CheckClientTokenResponse (JWTPayload Json) → Bool
  | .ok accepted => accepted.withDocs payload.docs = payload ∧ takenAs accepted.docs payload.docs
  | .error _ => false

/-- What the API tells a handler is what it has answered to some call, or that the call failed. -/
def answers (s : Deployment) : NodeAction → Bool
  | .apiAnswers _ (.handleConnection _ (some (.ok payload)))
  | .apiAnswers _ (.onSetToken _ (some (.ok payload))) =>
    s.api.checkResponses.any fun response => accepts payload response.2.2
  | .apiAnswers _ (.onJoin _ docId (some (.ok isPublic))) =>
    s.past.any fun c => isPublic =
      ((env.objectId docId).bind fun id => c.docs.find? (·.id = id)).any (·.isPublic)
  | .onUpdateTokenMessage _ => false -- messages arrive by `deliver`
  | .checkTokenExpiration now => now = s.clock
  | _ => true

def setNode (s : Deployment) (i : Nat) (n : Node) : Deployment :=
  { s with nodes := Function.update s.nodes i n }

def step (s : Deployment) : DeploymentAction → Option Deployment
  | .server a => ((apiServer env).step s.server a).map fun server =>
      { s with server := server, past := s.past ++ [server.store] }
  | .api a keys docs =>
    match s.past[keys]?, s.past[docs]? with
    | some keys, some docs =>
      if s.reads env keys docs a then
        (s.api.step env.toApiEnv a).map fun api => { s with api := api }
      else none
    | _, _ => none
  | .updateToken authorization tokens keys again =>
    match (s.past[keys]?).bind (consumerOf env · authorization),
        (s.past[again]?).bind (consumerOf env · authorization) with
    | some (some signer), some (some consumer) =>
      if authorization ≠ "" ∧ keys ≤ again ∧ env.verify authorization signer.publicKey then
        some { s with api := s.api.updateStart consumer.id tokens }
      else none
    | _, _ => none
  | .node i a =>
    if s.answers env a then ((s.nodes i).step a).map (s.setNode i) else none
  | .deliver i m docs =>
    if m ∈ s.api.published ∧ takenAs m.message.docs docs then
      ((s.nodes i).step (.onUpdateTokenMessage (m.message.withDocs docs))).map (s.setNode i)
    else none
  | .tick ms => some { s with clock := s.clock + ms }

end Deployment

end AlaFois
