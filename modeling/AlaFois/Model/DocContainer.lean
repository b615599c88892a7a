import AlaFois.Model.DocHandler

/-!
# The client's side of a document

`DocContainer` sends local edits as changes, takes in what the proxy broadcasts and syncs with
the actor. Its methods return the messages that it hands to its messenger.
-/

namespace AlaFois

/-- What a client sends about its document; every message names the document. -/
inductive ClientMessage
  | join
  | changes (changes : Changes)
  | syncStart (vector : StateVector)
  | syncComplete (changes : Changes)
deriving DecidableEq

/-- The update that a message brings. -/
def ClientMessage.update : ClientMessage → Option Changes
  | .changes update => some update
  | .syncComplete update => some update
  | _ => none

/-- `syncing` says that there is a `syncPromise`. -/
structure DocContainer (Doc : Type*) where
  id : DocKey
  doc : Doc
  syncing : Bool
deriving DecidableEq

namespace DocContainer

variable {Doc : Type*} (y : Yjs Doc)

def new (id : DocKey) : DocContainer Doc := ⟨id, y.newDoc, false⟩

/-- An edit of the user, with the update that `handleChange` is called with. -/
def edit (s : DocContainer Doc) (update : Bytes) : DocContainer Doc × List ClientMessage :=
  ({ s with doc := (y.applyUpdate s.doc update).doc }, [.changes (y.fromUint8Array update)])

/-- `sync` up to the wait for the response. -/
def sync (s : DocContainer Doc) : DocContainer Doc × List ClientMessage :=
  if s.syncing then (s, [])
  else
    ({ s with syncing := true }, [.syncStart (y.fromUint8Array (y.encodeStateVector s.doc))])

/-- The sync gives up, for want of a response or because a call threw. -/
def syncFailed (s : DocContainer Doc) : DocContainer Doc := { s with syncing := false }

/-- The changes come from elsewhere, so that `handleChange` sends nothing. -/
def handleReceiveChanges (s : DocContainer Doc) (changes : Changes) :
    DocContainer Doc × List ClientMessage :=
  let applied := y.applyUpdate s.doc (y.toUint8Array changes)
  let s := { s with doc := applied.doc }
  if !applied.threw && y.needSync s.doc then s.sync y else (s, [])

/-- The rest of `syncProcess`. Without a sync nobody waits for the response. -/
def syncResponse (s : DocContainer Doc) (vector : StateVector) (changes : Changes) :
    DocContainer Doc × List ClientMessage :=
  if s.syncing then
    let applied := y.applyUpdate s.doc (y.toUint8Array changes)
    let s := { s with doc := applied.doc }
    if applied.threw then (s.syncFailed, [])
    else
      match y.encodeStateAsUpdate s.doc (some (y.toUint8Array vector)) with
      | none => (s.syncFailed, [])
      | some returnChanges =>
        ({ s with syncing := false }, [.syncComplete (y.fromUint8Array returnChanges)])
  else (s, [])

/-- The listeners of the messenger that concern the document. -/
def onMessage (s : DocContainer Doc) : ServerMessage → DocContainer Doc × List ClientMessage
  | .joinResponse _ .ok => s.sync y
  | .requestSync _ => s.sync y
  | .broadcastChanges docId changes =>
    if docId = s.id then s.handleReceiveChanges y changes else (s, [])
  | .syncResponse docId vector changes =>
    if docId = s.id then s.syncResponse y vector changes else (s, [])
  | _ => (s, [])

end DocContainer

end AlaFois
