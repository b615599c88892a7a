import AlaFois.Model.Types
import Mathlib.Logic.Function.Basic

/-!
# Document managers and the document service

`DocService` of one proxy instance. `connectionsToDocs` holds references to `DocManager`
objects that can outlive their entry in `docs`, so managers live in a heap and both maps
hold references into it.
-/

namespace AlaFois

/-- The connections are the keys of the manager's map, in insertion order; the value under
a key is the connection with that id. -/
structure DocManager where
  id : DocKey
  connections : List ConnectionId
  nodup : connections.Nodup

namespace DocManager

def new (docId : DocKey) : DocManager := ⟨docId, [], List.nodup_nil⟩

def contains (m : DocManager) (connectionId : ConnectionId) : Bool :=
  connectionId ∈ m.connections

def addConnection (m : DocManager) (client : ConnectionId) : DocManager :=
  if h : client ∈ m.connections then m
  else ⟨m.id, m.connections ++ [client],
    m.nodup.append (List.nodup_singleton client) (by simpa using h)⟩

def removeConnection (m : DocManager) (connectionId : ConnectionId) : DocManager :=
  ⟨m.id, m.connections.filter (· ≠ connectionId), m.nodup.filter _⟩

def isEmpty (m : DocManager) : Bool := m.connections.isEmpty

/-- The loop that `broadcastDiff` and `broadcastAwareness` share. -/
def broadcast (m : DocManager) (authorConnectionId : ConnectionId) (message : ServerMessage) :
    List Sent :=
  (m.connections.filter (· ≠ authorConnectionId)).map (·, message)

def broadcastDiff (m : DocManager) (authorConnectionId : ConnectionId) (changes : Changes) :
    List Sent :=
  m.broadcast authorConnectionId (.broadcastChanges m.id changes)

def broadcastAwareness (m : DocManager) (authorConnectionId : ConnectionId)
    (awareness : Changes) : List Sent :=
  m.broadcast authorConnectionId (.broadcastAwareness m.id awareness)

@[simp] lemma addConnection_id (m : DocManager) (c : ConnectionId) :
    (m.addConnection c).id = m.id := by
  unfold addConnection
  split <;> rfl

@[simp] lemma removeConnection_id (m : DocManager) (c : ConnectionId) :
    (m.removeConnection c).id = m.id := rfl

@[simp] lemma contains_iff (m : DocManager) (c : ConnectionId) :
    m.contains c = true ↔ c ∈ m.connections := by
  simp [contains]

@[simp] lemma mem_addConnection (m : DocManager) (c c' : ConnectionId) :
    c' ∈ (m.addConnection c).connections ↔ c' ∈ m.connections ∨ c' = c := by
  unfold addConnection
  split
  · rename_i h
    constructor
    · exact .inl
    · rintro (hm | rfl)
      · exact hm
      · exact h
  · simp

@[simp] lemma mem_removeConnection (m : DocManager) (c c' : ConnectionId) :
    c' ∈ (m.removeConnection c).connections ↔ c' ∈ m.connections ∧ c' ≠ c := by
  simp [removeConnection]

@[simp] lemma mem_new (d : DocKey) (c : ConnectionId) : c ∉ (new d).connections := by
  simp [new]

lemma isEmpty_removeConnection (m : DocManager) (c : ConnectionId) :
    (m.removeConnection c).isEmpty = true ↔ ∀ x ∈ m.connections, x = c := by
  simp [isEmpty, removeConnection, List.filter_eq_nil_iff]

end DocManager

/-- The address of a `DocManager` object. -/
abbrev ManagerRef := Nat

structure DocService where
  docs : JsMap DocKey ManagerRef
  connectionsToDocs : JsMap ConnectionId (List ManagerRef)
  managers : ManagerRef → DocManager
  nextRef : ManagerRef

/-- The messages of the pubsub topics that `DocService` publishes to. -/
inductive ChangesPubsubMessage
  | changes (author : ConnectionId) (docId : DocKey) (data : Changes)
  | awareness (author : ConnectionId) (docId : DocKey) (data : Changes)
deriving DecidableEq

/-- The error `NotJoinedError`, with the document it names. -/
structure NotJoinedError where
  docId : DocKey
deriving DecidableEq

def NotJoinedError.message : String := "Client is not joined to the document, check joinResponse."

/-- What `applyChanges` and `applyAwareness` do: broadcast here, publish to the other
instances and, for changes, call the actor. -/
structure ApplyEffects where
  sent : List Sent
  published : ChangesPubsubMessage
  actorCall : Option (DocKey × ConnectionId × Changes)
deriving DecidableEq

namespace DocService

def init : DocService := ⟨.empty, .empty, fun _ => DocManager.new "", 0⟩

/-- Replaces the object at `ref`. -/
def update (s : DocService) (ref : ManagerRef) (f : DocManager → DocManager) : DocService :=
  { s with managers := Function.update s.managers ref (f (s.managers ref)) }

/-- Finds the manager of `docId`, creating and storing a new one when there is none. -/
def getOrCreate (s : DocService) (docId : DocKey) : ManagerRef × DocService :=
  match s.docs.get docId with
  | some ref => (ref, s)
  | none =>
    (s.nextRef,
      { s with
        docs := s.docs.set docId s.nextRef
        managers := Function.update s.managers s.nextRef (DocManager.new docId)
        nextRef := s.nextRef + 1 })

/-- `connectionsToDocs.get(connId)`, an absent entry being read as no documents. -/
def joined (s : DocService) (connId : ConnectionId) : List ManagerRef :=
  (s.connectionsToDocs.get connId).getD []

/-- The reply is always `{ docId, status: 'ok' }`. -/
def joinToDoc (s : DocService) (conn : ConnectionId) (docId : DocKey) : DocService :=
  let (doc, s) := s.getOrCreate docId
  let s := s.update doc (·.addConnection conn)
  { s with connectionsToDocs := s.connectionsToDocs.set conn (s.joined conn ++ [doc]) }

def detachDoc (s : DocService) (connId : ConnectionId) (docId : DocKey) : DocService :=
  match s.docs.get docId with
  | none => s
  | some doc =>
    if (s.managers doc).contains connId then
      let s := s.update doc (·.removeConnection connId)
      -- the whole entry of the connection goes, not only its reference to this manager
      if (s.managers doc).isEmpty then
        { s with
          connectionsToDocs := s.connectionsToDocs.delete connId
          docs := s.docs.delete docId }
      else s
    else s

/-- `Map.get` finds nothing under an object, so an entry of the access table detaches nothing. -/
def detachRemoved (connId : ConnectionId) (s : DocService) : RemovedDoc → DocService
  | .key docId => s.detachDoc connId docId
  | .entry _ => s

def onDetachDocMessage (s : DocService) (connId : ConnectionId) (docs : List RemovedDoc) :
    DocService :=
  docs.foldl (detachRemoved connId) s

def onAttachDocMessage (s : DocService) (conn : ConnectionId) (docs : List DocKey) : DocService :=
  docs.foldl (fun s docId => s.joinToDoc conn docId) s

/-- One round of the loop of `disconnect`. The key deleted from `docs` is the id of the
manager, whichever manager is stored there now. -/
def disconnectFrom (connId : ConnectionId) (s : DocService) (doc : ManagerRef) : DocService :=
  let s := s.update doc (·.removeConnection connId)
  if (s.managers doc).isEmpty then { s with docs := s.docs.delete (s.managers doc).id } else s

def disconnect (s : DocService) (connId : ConnectionId) : DocService :=
  match s.connectionsToDocs.get connId with
  | none => s
  | some joinedDocs =>
    let s := joinedDocs.foldl (disconnectFrom connId) s
    { s with connectionsToDocs := s.connectionsToDocs.delete connId }

/-- The manager of `docId`, if the connection is in it. -/
def assertClientJoined (s : DocService) (conn : ConnectionId) (docId : DocKey) :
    Except NotJoinedError DocManager :=
  match s.docs.get docId with
  | none => .error ⟨docId⟩
  | some doc =>
    if (s.managers doc).contains conn then .ok (s.managers doc) else .error ⟨docId⟩

def applyChanges (s : DocService) (conn : ConnectionId) (docId : DocKey) (changes : Changes) :
    Except NotJoinedError ApplyEffects :=
  (s.assertClientJoined conn docId).map fun doc =>
    { sent := doc.broadcastDiff conn changes
      published := .changes conn doc.id changes
      actorCall := some (docId, conn, changes) }

def applyAwareness (s : DocService) (conn : ConnectionId) (docId : DocKey) (awareness : Changes) :
    Except NotJoinedError ApplyEffects :=
  (s.assertClientJoined conn docId).map fun doc =>
    { sent := doc.broadcastAwareness conn awareness
      published := .awareness conn doc.id awareness
      actorCall := none }

/-- A message is passed on unless its author is a member here, where it was already sent. -/
def onChangesOrAwarenessMessage (s : DocService) : ChangesPubsubMessage → List Sent
  | .changes author docId data =>
    match s.docs.get docId with
    | none => []
    | some doc =>
      if (s.managers doc).contains author then [] else (s.managers doc).broadcastDiff author data
  | .awareness author docId data =>
    match s.docs.get docId with
    | none => []
    | some doc =>
      if (s.managers doc).contains author then []
      else (s.managers doc).broadcastAwareness author data

end DocService

/-- The operations that change the membership of one connection. -/
inductive DocOp
  | joinToDoc (conn : ConnectionId) (docId : DocKey)
  | attach (conn : ConnectionId) (docs : List DocKey)
  | detach (connId : ConnectionId) (docs : List RemovedDoc)
  | disconnect (connId : ConnectionId)

/-- The connection on whose behalf the operation runs. -/
def DocOp.conn : DocOp → ConnectionId
  | .joinToDoc conn _ => conn
  | .attach conn _ => conn
  | .detach connId _ => connId
  | .disconnect connId => connId

def DocService.apply (s : DocService) : DocOp → DocService
  | .joinToDoc conn docId => s.joinToDoc conn docId
  | .attach conn docs => s.onAttachDocMessage conn docs
  | .detach connId docs => s.onDetachDocMessage connId docs
  | .disconnect connId => s.disconnect connId

/-- What reaches the service: the operations, what clients send to a document, and the messages
of the other instances. -/
inductive DocCall
  | op (op : DocOp)
  | applyChanges (conn : ConnectionId) (docId : DocKey) (changes : Changes)
  | applyAwareness (conn : ConnectionId) (docId : DocKey) (awareness : Changes)
  | deliver (message : ChangesPubsubMessage)

/-- What a call sends, publishes and throws. -/
inductive DocAnswer
  | done
  | applied (result : Except NotJoinedError ApplyEffects)
  | delivered (sent : List Sent)

def DocService.call (s : DocService) : DocCall → DocService × DocAnswer
  | .op op => (s.apply op, .done)
  | .applyChanges conn docId changes => (s, .applied (s.applyChanges conn docId changes))
  | .applyAwareness conn docId awareness => (s, .applied (s.applyAwareness conn docId awareness))
  | .deliver message => (s, .delivered (s.onChangesOrAwarenessMessage message))

end AlaFois
