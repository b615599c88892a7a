import AlaFois.Model.DocClient
import AlaFois.Model.DocContainer

/-!
# A container and the events of its messenger

The constructor of `DocContainer` subscribes to six kinds of events, and `dispose` takes two of the
listeners away again. `init` sends the join and waits; the sync that the response sets off is a
matter of another listener, which runs first.
-/

namespace AlaFois

/-- What the code calls of the awareness protocol; updates are texts in base64. -/
structure AwarenessProtocol (A : Type*) where
  new : A
  clientID : A → Nat
  /-- `getLocalState() !== null`. -/
  hasLocalState : A → Bool
  /-- The keys of `getStates()`. -/
  states : A → List Nat
  encodeAwarenessUpdate : A → List Nat → Changes
  applyAwarenessUpdate : A → Changes → A
  /-- The local state is cleared, and after the update it gives the listeners are gone. -/
  destroy : A → A

/-- 'connected' is the messenger's own event; the others are messages of the proxy. -/
inductive MessengerEvent
  | connected
  | message (m : ServerMessage)
deriving DecidableEq

/-- `init` is the promise of `init()`. `joins` counts the calls of `join` by `handleConnected` that
wait for a response, and `sent` lists what the messenger has been given to send. -/
structure LiveContainer (Doc A : Type*) where
  container : DocContainer Doc
  awareness : A
  init : CallState
  joins : Nat
  disposed : Bool
  sent : List ClientRequest

inductive ContainerAction
  | event (e : MessengerEvent)
  | edit (update : Bytes)
  | initTimeout
  | joinTimeout
  | syncTimeout
  | dispose
deriving DecidableEq

/-- A message of the container names its document. -/
def ClientMessage.request (docId : DocKey) : ClientMessage → ClientRequest
  | .join => .join docId
  | .changes update => .changes docId update
  | .syncStart vector => .syncStart docId vector
  | .syncComplete update => .syncComplete docId update

namespace LiveContainer

variable {Doc A : Type*} (y : Yjs Doc) (aw : AwarenessProtocol A)

/-- `new DocContainer(...)` and `init()` up to the wait. -/
def opening (id : DocKey) : LiveContainer Doc A :=
  ⟨.new y id, aw.new, .pending, 0, false, [.join id]⟩

/-- The container goes on and sends its messages. -/
def advance (s : LiveContainer Doc A) (r : DocContainer Doc × List ClientMessage) :
    LiveContainer Doc A :=
  { s with container := r.1, sent := s.sent ++ r.2.map (ClientMessage.request s.container.id) }

def sync (s : LiveContainer Doc A) : LiveContainer Doc A := s.advance (s.container.sync y)

def handleConnected (s : LiveContainer Doc A) : LiveContainer Doc A :=
  { s with joins := s.joins + 1, sent := s.sent ++ [.join s.container.id] }

/-- The calls of `join` that wait. -/
def joining (s : LiveContainer Doc A) : Nat := s.joins + if s.init = .pending then 1 else 0

/-- The rest of `join` in every call of it that waits, whichever document the response names. -/
def joined (s : LiveContainer Doc A) (status : Status) : LiveContainer Doc A :=
  { s with
    init := s.init.settle status
    joins := 0
    sent := s.sent ++ if status = .ok ∧ aw.hasLocalState s.awareness = true then
      List.replicate s.joining (.awareness s.container.id
        (aw.encodeAwarenessUpdate s.awareness (aw.states s.awareness)))
    else [] }

/-- The listener that performs the sync has been added before those of the calls of `join`. -/
def onJoinResponse (s : LiveContainer Doc A) (status : Status) : LiveContainer Doc A :=
  let s := if status = .ok then s.sync y else s
  s.joined aw status

def handleReceiveChanges (s : LiveContainer Doc A) (docId : DocKey) (changes : Changes) :
    LiveContainer Doc A :=
  if docId = s.container.id then s.advance (s.container.handleReceiveChanges y changes) else s

def handleReceiveAwareness (s : LiveContainer Doc A) (docId : DocKey) (awareness : Changes) :
    LiveContainer Doc A :=
  if docId = s.container.id then
    { s with awareness := aw.applyAwarenessUpdate s.awareness awareness }
  else s

/-- The handler of `waitSyncResponse`; it is there while a sync waits. -/
def onSyncResponse (s : LiveContainer Doc A) (docId : DocKey) (vector : StateVector)
    (changes : Changes) : LiveContainer Doc A :=
  if docId = s.container.id then s.advance (s.container.syncResponse y vector changes) else s

/-- The listeners that are subscribed. -/
def emit (s : LiveContainer Doc A) : MessengerEvent → LiveContainer Doc A
  | .connected => s.handleConnected
  | .message (.joinResponse _ status) => s.onJoinResponse y aw status
  | .message (.requestSync _) => s.sync y
  | .message (.updateToken _ _) => s.sync y
  | .message (.syncResponse docId vector changes) => s.onSyncResponse y docId vector changes
  | .message (.broadcastChanges docId changes) =>
    if s.disposed then s else s.handleReceiveChanges y docId changes
  | .message (.broadcastAwareness docId awareness) =>
    if s.disposed then s else s.handleReceiveAwareness aw docId awareness
  | .message _ => s

/-- Clearing the local state is an update of the awareness, which is still sent. -/
def dispose (s : LiveContainer Doc A) : LiveContainer Doc A :=
  let awareness := aw.destroy s.awareness
  { s with
    awareness := awareness
    disposed := true
    sent := s.sent ++ [.awareness s.container.id
      (aw.encodeAwarenessUpdate awareness [aw.clientID awareness])] }

/-- The user has the container, to edit its document or to have it disposed, once `getDoc` has
returned it. -/
def step (s : LiveContainer Doc A) : ContainerAction → Option (LiveContainer Doc A)
  | .event e => some (s.emit y aw e)
  | .edit update =>
    if s.init = .resolved then
      let r := s.container.edit y update
      -- `handleChange` is off once the container has been disposed
      if s.disposed then some { s with container := r.1 } else some (s.advance r)
    else none
  | .initTimeout => if s.init = .pending then some { s with init := s.init.timeout } else none
  | .joinTimeout => if 0 < s.joins then some { s with joins := s.joins - 1 } else none
  | .syncTimeout =>
    if s.container.syncing then some { s with container := s.container.syncFailed } else none
  | .dispose => if s.init = .resolved ∧ ¬s.disposed then some (s.dispose aw) else none

end LiveContainer

end AlaFois
