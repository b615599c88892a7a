import AlaFois.Model.DocService

/-!
# The registry over connection objects

`DocService` as in its own model, but with the connection objects in the managers: a manager files
an object under the id that the object has when it is added, and what it sends goes to the objects.
An effect stays when an error is thrown after it.
-/

namespace AlaFois

namespace Registry

variable {Conn : Type*} (idOf : Conn → ConnectionId)

structure DocManager (Conn : Type*) where
  id : DocKey
  connections : JsMap ConnectionId Conn

/-- What the service has done so far to the world outside. -/
structure Effects (Conn : Type*) where
  sent : List (Conn × ServerMessage)
  published : List ChangesPubsubMessage
  sendChanges : List (DocKey × ConnectionId × Changes)

namespace DocManager

def new (docId : DocKey) : DocManager Conn := ⟨docId, JsMap.empty⟩

def contains (m : DocManager Conn) (connectionId : ConnectionId) : Bool :=
  m.connections.has connectionId

def addConnection (client : Conn) (m : DocManager Conn) : DocManager Conn :=
  if m.contains (idOf client) then m
  else { m with connections := m.connections.set (idOf client) client }

def removeConnection (connectionId : ConnectionId) (m : DocManager Conn) : DocManager Conn :=
  if m.contains connectionId then { m with connections := m.connections.delete connectionId } else m

def isEmpty (m : DocManager Conn) : Bool := m.connections.entries.isEmpty

def broadcastDiff (m : DocManager Conn) (authorConnectionId : ConnectionId) (changes : Changes)
    (effects : Effects Conn) : Effects Conn :=
  m.connections.entries.foldl
    (fun effects entry =>
      if idOf entry.2 ≠ authorConnectionId then
        { effects with sent := effects.sent ++ [(entry.2, .broadcastChanges m.id changes)] }
      else effects) effects

end DocManager

structure DocService (Conn : Type*) where
  docs : JsMap DocKey ManagerRef
  connectionsToDocs : JsMap ConnectionId (List ManagerRef)
  managers : ManagerRef → DocManager Conn
  nextRef : ManagerRef

namespace DocService

def init : DocService Conn := ⟨.empty, .empty, fun _ => .new "", 0⟩

/-- Replaces the object at `ref`. -/
def update (s : DocService Conn) (ref : ManagerRef) (f : DocManager Conn → DocManager Conn) :
    DocService Conn :=
  { s with managers := Function.update s.managers ref (f (s.managers ref)) }

/-- The manager of the document, a new one if there is none. -/
def getOrCreate (s : DocService Conn) (docId : DocKey) : ManagerRef × DocService Conn :=
  match s.docs.get docId with
  | some ref => (ref, s)
  | none =>
    (s.nextRef,
      { s with
        docs := s.docs.set docId s.nextRef
        managers := Function.update s.managers s.nextRef (.new docId)
        nextRef := s.nextRef + 1 })

def joinToDoc (s : DocService Conn) (conn : Conn) (docId : DocKey) : DocService Conn :=
  let (doc, s) := s.getOrCreate docId
  let s := s.update doc (·.addConnection idOf conn)
  let joinedDocs := (s.connectionsToDocs.get (idOf conn)).getD []
  { s with connectionsToDocs := s.connectionsToDocs.set (idOf conn) (joinedDocs ++ [doc]) }

def detachDoc (s : DocService Conn) (connId : ConnectionId) (docId : DocKey) : DocService Conn :=
  match s.docs.get docId with
  | none => s
  | some doc =>
    if (s.managers doc).contains connId then
      let s := s.update doc (·.removeConnection connId)
      if (s.managers doc).isEmpty then
        { s with
          connectionsToDocs := s.connectionsToDocs.delete connId
          docs := s.docs.delete docId }
      else s
    else s

/-- An element of the message that is no id finds no document. -/
def detachRemoved (connId : ConnectionId) (s : DocService Conn) : RemovedDoc → DocService Conn
  | .key docId => s.detachDoc connId docId
  | .entry _ => s

def onDetachDocMessage (s : DocService Conn) (connId : ConnectionId) (docs : List RemovedDoc) :
    DocService Conn :=
  docs.foldl (detachRemoved connId) s

def onAttachDocMessage (s : DocService Conn) (conn : Conn) (docs : List DocKey) : DocService Conn :=
  docs.foldl (fun s docId => s.joinToDoc idOf conn docId) s

/-- One round of the loop of `disconnect`. -/
def disconnectFrom (connId : ConnectionId) (s : DocService Conn) (doc : ManagerRef) :
    DocService Conn :=
  let s := s.update doc (·.removeConnection connId)
  if (s.managers doc).isEmpty then { s with docs := s.docs.delete (s.managers doc).id } else s

def disconnect (s : DocService Conn) (connId : ConnectionId) : DocService Conn :=
  match s.connectionsToDocs.get connId with
  | none => s
  | some joinedDocs =>
    let s := joinedDocs.foldl (disconnectFrom connId) s
    { s with connectionsToDocs := s.connectionsToDocs.delete connId }

def assertClientJoined (s : DocService Conn) (connection : Conn) (docId : DocKey) :
    Except NotJoinedError (DocManager Conn) :=
  match s.docs.get docId with
  | none => .error ⟨docId⟩
  | some doc =>
    if (s.managers doc).contains (idOf connection) then .ok (s.managers doc) else .error ⟨docId⟩

/-- The service and the world, whether an error is thrown or not. -/
def applyChanges (conn : Conn) (docId : DocKey) (changes : Changes)
    (w : DocService Conn × Effects Conn) :
    Except NotJoinedError Unit × (DocService Conn × Effects Conn) :=
  match w.1.assertClientJoined idOf conn docId with
  | .error e => (.error e, w)
  | .ok doc =>
    let effects := doc.broadcastDiff idOf (idOf conn) changes w.2
    let effects := { effects with
      published := effects.published ++
        [ChangesPubsubMessage.changes (idOf conn) doc.id changes] }
    let effects := { effects with
      sendChanges := effects.sendChanges ++ [(docId, idOf conn, changes)] }
    (.ok (), w.1, effects)

end DocService

/-- The operations that change who is a member. -/
inductive DocOp (Conn : Type*)
  | joinToDoc (conn : Conn) (docId : DocKey)
  | attach (conn : Conn) (docs : List DocKey)
  | detach (connId : ConnectionId) (docs : List RemovedDoc)
  | disconnect (connId : ConnectionId)

def DocService.apply (s : DocService Conn) : DocOp Conn → DocService Conn
  | .joinToDoc conn docId => s.joinToDoc idOf conn docId
  | .attach conn docs => s.onAttachDocMessage idOf conn docs
  | .detach connId docs => s.onDetachDocMessage connId docs
  | .disconnect connId => s.disconnect connId

end Registry

end AlaFois
