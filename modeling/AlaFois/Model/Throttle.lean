import AlaFois.Model.DocHandler

/-!
# Requests to synchronize, against the clock

One activation of `DocHandler` with the times at which its timers are set and run out. Dapr starts
a call when the one before has completed; a timer can fire late, but not early.
-/

namespace AlaFois

/-- A reply of `applyDiff`, with the time of it, the document that the update was to leave behind,
and whether a timer for the user was pending. -/
structure SyncAnswer (Doc : Type*) where
  userId : UserId
  syncNeeded : Bool
  time : Nat
  doc : Doc
  pending : Bool

/-- `due` holds the pending timers of the handler, each with the time it is set for, and `updated`
is the document after the update of the call in progress. -/
structure TimedHandler (Doc : Type*) where
  handler : DocHandler Doc
  now : Nat
  due : List (UserId × Nat)
  updated : Doc
  answers : List (SyncAnswer Doc)

inductive TimedAction
  | call (call : ActorCall)
  | updateOne
  | create
  | resume
  | writeFailed
  | fire (userId : UserId) (time : Nat)
  | elapse (ms : Nat)
deriving DecidableEq

namespace TimedHandler

variable {Doc : Type*} (y : Yjs Doc) (clientSyncAwaitMs : Nat)

def activate (id : DocKey) (state : Option Bytes) (now : Nat) : Option (TimedHandler Doc) :=
  (DocHandler.onActivate y id state).map fun handler => ⟨handler, now, [], handler.ydoc, []⟩

/-- The user has a pending timer. -/
def isPending (s : TimedHandler Doc) (userId : UserId) : Bool := userId ∈ s.due.map Prod.fst

/-- The reply of a method; `setTimeout` is called with the one that asks for synchronization. -/
def replied (s : TimedHandler Doc) : Awaiting → ActorReply → TimedHandler Doc
  | .applyDiff userId, .applyDiff syncNeeded =>
    { s with
      due := if syncNeeded then (userId, s.now + clientSyncAwaitMs) :: s.due else s.due
      answers := s.answers ++ [⟨userId, syncNeeded, s.now, s.updated, s.isPending userId⟩] }
  | _, _ => s

/-- The method that a call waits in for `saveDiff`. -/
def awaiting : ActorCall → Awaiting
  | .applyDiff _ userId => .applyDiff userId
  | _ => .syncComplete

/-- The document after the update that a call brings. -/
def update (doc : Doc) (call : ActorCall) : Doc :=
  match call.changes with
  | none => doc
  | some changes => (y.applyUpdate doc (y.toUint8Array changes)).doc

def step (s : TimedHandler Doc) : TimedAction → Option (TimedHandler Doc)
  | .call call =>
    if s.handler.saving = none then
      let (handler, reply) := s.handler.invoke y call
      let s := { s with handler := handler, updated := update y s.handler.ydoc call }
      match reply with
      | none => some s
      | some reply => some (s.replied clientSyncAwaitMs (awaiting call) reply)
    else none
  | .updateOne =>
    s.handler.saving.map fun saving =>
      { s with handler := { s.handler with saving := some { saving with updated := true } } }
  | .create =>
    s.handler.saving.map fun saving =>
      { s with handler := { s.handler with saving := some { saving with created := true } } }
  | .resume =>
    match s.handler.saving, s.handler.resume y with
    | some saving, some (handler, reply) =>
      some ({ s with handler := handler }.replied clientSyncAwaitMs saving.awaiting reply)
    | _, _ => none
  | .writeFailed =>
    -- the method rejects, and nothing of it is left
    s.handler.saving.map fun _ => { s with handler := { s.handler with saving := none } }
  | .fire userId time =>
    if (userId, time) ∈ s.due ∧ time ≤ s.now then
      (s.handler.syncAwaitExpired userId).map fun handler =>
        { s with handler := handler, due := s.due.erase (userId, time) }
    else none
  | .elapse ms => some { s with now := s.now + ms }

end TimedHandler

end AlaFois
