import AlaFois.Model.Gateway

/-!
# Proxy instances, document actors and stored documents

Dapr keeps one live actor for each ActorId, which is the docId as the client spells it. The actor
reads and writes the record that mongoose finds under the ObjectId of this spelling.
-/

namespace AlaFois

/-- What the actor and the API read of a stored document. -/
structure DocRecord where
  state : Bytes
  isPublic : Bool
deriving DecidableEq

/-- A live actor with its field `docId`, and the request whose writes it waits for. -/
structure Actor (I Doc : Type*) where
  handler : DocHandler Doc
  docId : ObjectId
  serving : Option (I × ActorRequest)

/-- `requests` and `replies` are the calls of actors and their answers, on their way. -/
structure Platform (I Doc : Type*) where
  gateways : I → Gateway
  requests : List (I × ActorRequest)
  replies : List (I × ActorRequest × ActorReply)
  actors : DocKey → Option (Actor I Doc)
  docs : ObjectId → Option DocRecord
  updates : List UpdateRecord

inductive PlatformAction (I : Type*)
  | gateway (i : I) (a : GatewayAction)
  | createDoc (id : ObjectId) (isPublic : Bool)
  | activate (i : I) (request : ActorRequest)
  | invoke (i : I) (request : ActorRequest)
  | updateOne (id : DocKey)
  | create (id : DocKey)
  | resume (id : DocKey)
  | syncAwaitExpired (id : DocKey) (userId : UserId)
  | deactivate (id : DocKey)

/-- `Buffer.from('AAA=', 'base64')`, the default of `state`. -/
def DocRecord.defaultState : Bytes := [0, 0]

namespace Platform

-- `objectId` is how mongoose reads a docId, if it does
variable {I Doc : Type*} [DecidableEq I] (y : Yjs Doc) (objectId : DocKey → Option ObjectId)

def init (docs : ObjectId → Option DocRecord) : Platform I Doc :=
  ⟨fun _ => .init, [], [], fun _ => none, docs, []⟩

/-- `DocModel.findById(docId)`, as `docIsPublic` uses it. -/
def isPublic (s : Platform I Doc) (docId : DocKey) : Bool :=
  ((objectId docId).bind s.docs).any DocRecord.isPublic

/-- A gateway gets the replies that actors have given. -/
def answers (s : Platform I Doc) (i : I) : GatewayAction → Bool
  | .actorReplies request reply => (i, request, reply) ∈ s.replies
  | _ => true

/-- The replies that are left when the gateway has acted. -/
def repliesAfter (s : Platform I Doc) (i : I) :
    GatewayAction → List (I × ActorRequest × ActorReply)
  | .actorReplies request reply => s.replies.erase (i, request, reply)
  | _ => s.replies

def setActor (s : Platform I Doc) (id : DocKey) (actor : Option (Actor I Doc)) : Platform I Doc :=
  { s with actors := Function.update s.actors id actor }

/-- `onActivate` for an ActorId; it throws when mongoose cannot read the id. -/
def activated (s : Platform I Doc) (id : DocKey) : Option (Actor I Doc) :=
  (objectId id).bind fun docId =>
    (DocHandler.onActivate y id ((s.docs docId).map DocRecord.state)).map (⟨·, docId, none⟩)

/-- The actor has replied, or waits for its writes. -/
def invoked (s : Platform I Doc) (i : I) (request : ActorRequest) (actor : Actor I Doc) :
    Option ActorReply → Platform I Doc
  | none => s.setActor request.docId (some { actor with serving := some (i, request) })
  | some reply =>
    { s.setActor request.docId (some actor) with replies := s.replies ++ [(i, request, reply)] }

def step (s : Platform I Doc) : PlatformAction I → Option (Platform I Doc)
  | .gateway i a =>
    if s.answers i a then
      ((s.gateways i).step (s.isPublic objectId) a).map fun (gateway, emitted) =>
        { s with
          gateways := Function.update s.gateways i gateway
          requests := s.requests ++ emitted.actorCalls.map (i, ·)
          replies := s.repliesAfter i a }
    else none
  | .createDoc id isPublic =>
    if s.docs id = none then
      some { s with docs := Function.update s.docs id (some ⟨DocRecord.defaultState, isPublic⟩) }
    else none
  | .activate i request =>
    if (i, request) ∈ s.requests ∧ (s.actors request.docId).isNone then
      match s.activated y objectId request.docId with
      | some actor => some (s.setActor request.docId (some actor))
      | none => some { s with
          requests := s.requests.erase (i, request)
          replies := s.replies ++ [(i, request, .threw)] }
    else none
  | .invoke i request =>
    match s.actors request.docId with
    | none => none
    | some actor =>
      if (i, request) ∈ s.requests ∧ actor.handler.saving = none then
        let (handler, reply) := actor.handler.invoke y request.call
        some ({ s with requests := s.requests.erase (i, request) }.invoked i request
          { actor with handler := handler } reply)
      else none
  | .updateOne id =>
    match s.actors id with
    | none => none
    | some actor =>
      match actor.handler.saving with
      | none => none
      | some saving =>
        if saving.updated then none
        else
          let handler := { actor.handler with saving := some { saving with updated := true } }
          some { s.setActor id (some { actor with handler := handler }) with
            docs := Function.update s.docs actor.docId
              ((s.docs actor.docId).map fun doc => { doc with state := saving.state }) }
  | .create id =>
    match s.actors id with
    | none => none
    | some actor =>
      match actor.handler.saving with
      | none => none
      | some saving =>
        if saving.created then none
        else
          let handler := { actor.handler with saving := some { saving with created := true } }
          some { s.setActor id (some { actor with handler := handler }) with
            updates := s.updates ++ [saving.update] }
  | .resume id =>
    match s.actors id with
    | none => none
    | some actor =>
      match actor.handler.resume y with
      | none => none
      | some (handler, reply) =>
        some { s.setActor id (some { actor with handler := handler, serving := none }) with
          replies := s.replies ++
            (actor.serving.map fun (i, request) => (i, request, reply)).toList }
  | .syncAwaitExpired id userId =>
    match s.actors id with
    | none => none
    | some actor =>
      (actor.handler.syncAwaitExpired userId).map fun handler =>
        s.setActor id (some { actor with handler := handler })
  | .deactivate id =>
    match s.actors id with
    | none => none
    | some actor => if actor.handler.saving = none then some (s.setActor id none) else none

end Platform

end AlaFois
