import AlaFois.Model.DocContainer
import AlaFois.Model.Handshake

/-!
# Rounds of sync and the calls that share them

`DocContainer.sync` with the promises between its awaits. A call that finds no `syncPromise` starts
a `syncProcess` and stores its promise; a call that finds one is given it. Whatever is awaited goes
on as a job of its own, so that other events can come before it.
-/

namespace AlaFois

/-- Where the promise of a `syncProcess` stands: it waits for the response, its wait has been
resolved or rejected, or it is settled; in the end the call that has started it has gone through
its `finally`. -/
inductive RoundStage
  | waiting
  | answered (vector : StateVector) (changes : Changes)
  | timedOut
  | settled (ok : Bool)
  | ended (ok : Bool)
deriving DecidableEq

def RoundStage.isEnded : RoundStage → Bool
  | .ended _ => true
  | _ => false

/-- The promise of a call of `sync`. The call that has started the round catches what it awaits, and
the others return the promise of the round. -/
def RoundStage.promise (starter : Bool) : RoundStage → PromiseState
  | .settled ok => if starter then .pending else if ok then .resolved else .rejected
  | .ended ok => if starter || ok then .resolved else .rejected
  | _ => .pending

/-- A call of `sync`: the one that has started the round, or one that was given its promise. -/
structure SyncCall where
  round : Nat
  starter : Bool
deriving DecidableEq

/-- `joined` is a joinResponse with status 'ok' for the document of the container; the others are
messages that it has sent. -/
inductive SyncLog
  | joined
  | join
  | syncStart (round : Nat) (vector : StateVector)
  | syncComplete (round : Nat) (changes : Changes)
deriving DecidableEq

def SyncLog.start : SyncLog → Option Nat
  | .syncStart round _ => some round
  | _ => none

def SyncLog.complete : SyncLog → Option Nat
  | .syncComplete round _ => some round
  | _ => none

def SyncLog.message : SyncLog → Option ClientMessage
  | .joined => none
  | .join => some .join
  | .syncStart _ vector => some (.syncStart vector)
  | .syncComplete _ changes => some (.syncComplete changes)

/-- Rounds are named by their places. `listeners` are the handlers of `waitSyncResponse` on the
messenger and `timers` its pending timeouts, each by its round. -/
structure SyncingContainer (Doc : Type*) where
  id : DocKey
  doc : Doc
  syncPromise : Option Nat
  rounds : List RoundStage
  listeners : List Nat
  timers : List Nat
  calls : List SyncCall
  disposed : Bool
  log : List SyncLog

/-- `sendFails` tells whether the socket throws when it is given a message of sync in the step. A
response without a payload is malformed. -/
inductive SyncAction
  | connected
  | receive (m : ServerMessage) (sendFails : Bool)
  | malformedResponse
  | edit (update : Bytes)
  | timeout (round : Nat)
  | process (round : Nat) (sendFails : Bool)
  | finish (round : Nat)
  | dispose
deriving DecidableEq

namespace SyncingContainer

variable {Doc : Type*} (y : Yjs Doc)

def new (id : DocKey) : SyncingContainer Doc := ⟨id, y.newDoc, none, [], [], [], [], false, []⟩

def setRound (s : SyncingContainer Doc) (round : Nat) (stage : RoundStage) :
    SyncingContainer Doc :=
  { s with rounds := s.rounds.set round stage }

/-- `syncProcess` up to the wait; its promise is rejected at once if the socket throws. -/
def syncProcess (s : SyncingContainer Doc) (sendFails : Bool) : SyncingContainer Doc :=
  let round := s.rounds.length
  if sendFails then { s with rounds := s.rounds ++ [.settled false] }
  else
    { s with
      rounds := s.rounds ++ [.waiting]
      listeners := s.listeners ++ [round]
      timers := s.timers ++ [round]
      log := s.log ++ [.syncStart round (y.fromUint8Array (y.encodeStateVector s.doc))] }

def sync (s : SyncingContainer Doc) (sendFails : Bool) : SyncingContainer Doc :=
  match s.syncPromise with
  | some round => { s with calls := s.calls ++ [⟨round, false⟩] }
  | none =>
    { s.syncProcess y sendFails with
      syncPromise := some s.rounds.length
      calls := s.calls ++ [⟨s.rounds.length, true⟩] }

/-- `clear` of `waitSyncResponse`. -/
def clear (s : SyncingContainer Doc) (round : Nat) : SyncingContainer Doc :=
  { s with
    listeners := s.listeners.filter (· ≠ round)
    timers := s.timers.filter (· ≠ round) }

/-- The promise of `waitSyncResponse` is settled once. -/
def settleWait (s : SyncingContainer Doc) (round : Nat) (stage : RoundStage) :
    SyncingContainer Doc :=
  if s.rounds[round]? = some .waiting then s.setRound round stage else s

/-- The handler of `waitSyncResponse`. -/
def handler (docId : DocKey) (vector : StateVector) (changes : Changes)
    (s : SyncingContainer Doc) (round : Nat) : SyncingContainer Doc :=
  if docId = s.id then (s.clear round).settleWait round (.answered vector changes) else s

def handleReceiveChanges (s : SyncingContainer Doc) (changes : Changes) (sendFails : Bool) :
    SyncingContainer Doc :=
  let applied := y.applyUpdate s.doc (y.toUint8Array changes)
  let s := { s with doc := applied.doc }
  if !applied.threw && y.needSync s.doc then s.sync y sendFails else s

/-- The listeners on the messenger. -/
def receive (s : SyncingContainer Doc) (sendFails : Bool) : ServerMessage → SyncingContainer Doc
  | .joinResponse docId .ok =>
    let s := if docId = s.id then { s with log := s.log ++ [.joined] } else s
    s.sync y sendFails
  | .requestSync _ => s.sync y sendFails
  | .updateToken _ _ => s.sync y sendFails
  | .broadcastChanges docId changes =>
    if docId = s.id ∧ ¬s.disposed then s.handleReceiveChanges y changes sendFails else s
  | .syncResponse docId vector changes => s.listeners.foldl (handler docId vector changes) s
  | _ => s

/-- The rest of `syncProcess` after its wait. -/
def process (s : SyncingContainer Doc) (round : Nat) (sendFails : Bool) :
    Option (SyncingContainer Doc) :=
  match s.rounds[round]? with
  | some (.answered vector changes) =>
    let applied := y.applyUpdate s.doc (y.toUint8Array changes)
    let s := { s with doc := applied.doc }
    if applied.threw then some (s.setRound round (.settled false))
    else
      match y.encodeStateAsUpdate s.doc (some (y.toUint8Array vector)) with
      | none => some (s.setRound round (.settled false))
      | some returnChanges =>
        if sendFails then some (s.setRound round (.settled false))
        else
          let sent := SyncLog.syncComplete round (y.fromUint8Array returnChanges)
          some ({ s with log := s.log ++ [sent] }.setRound round (.settled true))
  | some .timedOut => some (s.setRound round (.settled false))
  | _ => none

/-- The rest of the call of `sync` that has started the round. -/
def finish (s : SyncingContainer Doc) (round : Nat) : Option (SyncingContainer Doc) :=
  match s.rounds[round]? with
  | some (.settled ok) => some { s.setRound round (.ended ok) with syncPromise := none }
  | _ => none

def step (s : SyncingContainer Doc) : SyncAction → Option (SyncingContainer Doc)
  | .connected => some { s with log := s.log ++ [.join] }
  | .receive m sendFails => some (s.receive y sendFails m)
  -- the handler throws before it does anything
  | .malformedResponse => some s
  | .edit update => some { s with doc := (y.applyUpdate s.doc update).doc }
  | .timeout round =>
    if round ∈ s.timers then some ((s.clear round).settleWait round .timedOut) else none
  | .process round sendFails => s.process y round sendFails
  | .finish round => s.finish round
  | .dispose => some { s with disposed := true }

def promise (s : SyncingContainer Doc) (call : SyncCall) : PromiseState :=
  match s.rounds[call.round]? with
  | some stage => stage.promise call.starter
  | none => .pending

/-- The rounds of the messages syncStart and syncComplete that have been sent. -/
def starts (s : SyncingContainer Doc) : List Nat := s.log.filterMap SyncLog.start
def completes (s : SyncingContainer Doc) : List Nat := s.log.filterMap SyncLog.complete

def sent (s : SyncingContainer Doc) : List ClientMessage := s.log.filterMap SyncLog.message

/-- The container without the promises of its rounds. -/
def container (s : SyncingContainer Doc) : DocContainer Doc := ⟨s.id, s.doc, s.syncPromise.isSome⟩

end SyncingContainer

end AlaFois
