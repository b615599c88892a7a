import AlaFois.Model.DocService

/-!
# Proxy instances and the topic of the changes

Any number of instances publish changes and awareness to a Kafka topic, which hands every message
once to every instance, the publishing one included, in any order. A publication is known by its
place in the topic; every broadcast is recorded with the publication that it passes on.
-/

namespace AlaFois

namespace ChangesPubsubMessage

def author : ChangesPubsubMessage → ConnectionId
  | .changes author _ _ => author
  | .awareness author _ _ => author

def docId : ChangesPubsubMessage → DocKey
  | .changes _ docId _ => docId
  | .awareness _ docId _ => docId

/-- The message that the members of the document get. -/
def broadcast : ChangesPubsubMessage → ServerMessage
  | .changes _ docId data => .broadcastChanges docId data
  | .awareness _ docId data => .broadcastAwareness docId data

end ChangesPubsubMessage

/-- `applyChanges` or `applyAwareness`, called with what is to be published. -/
def DocService.applyMessage (s : DocService) : ChangesPubsubMessage →
    Except NotJoinedError ApplyEffects
  | .changes author docId data => s.applyChanges author docId data
  | .awareness author docId data => s.applyAwareness author docId data

/-- `audience` are the connections that the publishing instance has sent the message to. -/
structure Publication where
  message : ChangesPubsubMessage
  audience : List ConnectionId

/-- `delivered` lists the publications that an instance has been handed. -/
structure Fabric (I : Type*) where
  services : I → DocService
  topic : List Publication
  delivered : I → List Nat
  sent : List (Nat × Sent)

inductive FabricAction (I : Type*)
  | membership (op : DocOp)
  | apply (message : ChangesPubsubMessage)
  | deliver (i : I) (k : Nat)

namespace Fabric

variable {I : Type*} [DecidableEq I]

def init : Fabric I := ⟨fun _ => .init, [], fun _ => [], []⟩

/-- The instance of a connection is `home`, and all it does is done there. -/
def step (home : ConnectionId → I) (s : Fabric I) : FabricAction I → Option (Fabric I)
  | .membership op =>
    some { s with
      services := Function.update s.services (home op.conn) ((s.services (home op.conn)).apply op) }
  | .apply message =>
    match (s.services (home message.author)).applyMessage message with
    | .error _ => some s
    | .ok effects => some { s with
        topic := s.topic ++ [⟨effects.published, effects.sent.map Prod.fst⟩]
        sent := s.sent ++ effects.sent.map (s.topic.length, ·) }
  | .deliver i k =>
    match s.topic[k]? with
    | none => none
    | some publication =>
      if k ∈ s.delivered i then none
      else some { s with
        delivered := Function.update s.delivered i (k :: s.delivered i)
        sent := s.sent ++
          ((s.services i).onChangesOrAwarenessMessage publication.message).map (k, ·) }

end Fabric

end AlaFois
