import AlaFois.Model.DocContainer

/-!
# One container and the actor

The messages between a container and the actor of its document are on their way for any time, in
any order, and may be lost; other clients call the actor at any time. A sync is followed from its
round on: what was known at which step is recorded with the messages.
-/

namespace AlaFois

/-- `round` is the round that asked, `computed` the document of the actor when it answered. -/
structure SyncResponse (Doc : Type*) where
  round : Nat
  vector : StateVector
  changes : Changes
  computed : Doc

/-- `own` tells whether the response consumed was the round's own, and `since` what else had
happened when the round began; `sent` is the document of the client when it sent the message. -/
structure SyncComplete (Doc : Type*) where
  own : Bool
  since : Nat
  computed : Doc
  sent : Doc

/-- A round whose `syncComplete` has been processed, with both documents at this moment. `quiet`
tells whether nothing else has happened since it began. -/
structure FinishedRound (Doc : Type*) where
  own : Bool
  quiet : Bool
  computed : Doc
  sent : Doc
  actor : Doc
  client : Doc

/-- `round` counts the rounds that have begun, `events` the other calls that bring an update and
the edits and broadcasts that change the document; `since` is their number when the round began.
`processing` is the `syncComplete` that waits for its writes. -/
structure Exchange (Doc : Type*) where
  actor : DocHandler Doc
  container : DocContainer Doc
  starts : List (Nat × StateVector)
  responses : List (SyncResponse Doc)
  completes : List (SyncComplete Doc × Changes)
  diffs : List Changes
  processing : Option (SyncComplete Doc)
  round : Nat
  events : Nat
  since : Nat
  finished : List (FinishedRound Doc)

/-- Messages on their way are named by their places. `call` is a call of another client. -/
inductive ExchangeAction
  | edit (update : Bytes)
  | sync
  | receive (m : ServerMessage)
  | syncTimeout
  | start (n : Nat)
  | respond (n : Nat)
  | complete (n : Nat) (userId : UserId)
  | diff (n : Nat) (userId : UserId)
  | call (call : ActorCall)
  | resume
  | syncAwaitExpired (userId : UserId)

namespace Exchange

variable {Doc : Type*} [DecidableEq Doc] (y : Yjs Doc)

def init (actor : DocHandler Doc) (container : DocContainer Doc) : Exchange Doc :=
  ⟨actor, container, [], [], [], [], none, 0, 0, 0, []⟩

/-- A message of the container that no response has asked for. -/
def post (s : Exchange Doc) : ClientMessage → Exchange Doc
  | .changes update => { s with diffs := s.diffs ++ [update] }
  | .syncStart vector => { s with
      starts := s.starts ++ [(s.round + 1, vector)]
      round := s.round + 1
      since := s.events }
  | _ => s

/-- The container goes on and hands over its messages. -/
def advance (s : Exchange Doc) (r : DocContainer Doc × List ClientMessage) : Exchange Doc :=
  r.2.foldl post { s with
    container := r.1
    events := if r.1.doc = s.container.doc then s.events else s.events + 1 }

/-- A response that a round consumes is followed by the `syncComplete` of the round. -/
def respond (s : Exchange Doc) (response : SyncResponse Doc) : Exchange Doc :=
  let (container, messages) := s.container.syncResponse y response.vector response.changes
  let complete : SyncComplete Doc :=
    ⟨response.round = s.round, s.since, response.computed, container.doc⟩
  { s with
    container := container
    completes := s.completes ++ (messages.filterMap ClientMessage.update).map (complete, ·) }

/-- The processing of a `syncComplete` has ended. -/
def finish (s : Exchange Doc) (complete : SyncComplete Doc) : Exchange Doc :=
  { s with finished :=
      ⟨complete.own, complete.since = s.events, complete.computed, complete.sent, s.actor.ydoc,
        s.container.doc⟩ :: s.finished }

/-- A call that belongs to no round. -/
def call (s : Exchange Doc) (call : ActorCall) : Exchange Doc :=
  { s with
    actor := (s.actor.invoke y call).1
    events := if call.changes = none then s.events else s.events + 1 }

/-- For the rounds that have begun meanwhile, a `syncComplete` is a call like any other. -/
def complete (s : Exchange Doc) (complete : SyncComplete Doc) (changes : Changes)
    (userId : UserId) : Exchange Doc :=
  let (actor, reply) := s.actor.invoke y (.syncComplete changes userId)
  let s := { s with actor := actor, events := s.events + 1 }
  let complete := { complete with since := complete.since + 1 }
  match reply with
  | none => { s with processing := some complete }
  | some _ => s.finish complete

def step (s : Exchange Doc) : ExchangeAction → Option (Exchange Doc)
  | .edit update => some (s.advance (s.container.edit y update))
  | .sync => some (s.advance (s.container.sync y))
  | .receive m =>
    match m with
    | .syncResponse _ _ _ => none -- responses arrive by `respond`
    | m => some (s.advance (s.container.onMessage y m))
  | .syncTimeout => some (s.advance (s.container.syncFailed, []))
  | .start n =>
    match s.starts[n]? with
    | none => none
    | some (round, vector) =>
      if s.actor.saving = none then
        match s.actor.syncStart y vector with
        | .syncStart responseVector changes => some { s with
            starts := s.starts.eraseIdx n
            responses := s.responses ++ [⟨round, responseVector, changes, s.actor.ydoc⟩] }
        | _ => some { s with starts := s.starts.eraseIdx n }
      else none
  | .respond n =>
    match s.responses[n]? with
    | none => none
    | some response => some ({ s with responses := s.responses.eraseIdx n }.respond y response)
  | .complete n userId =>
    match s.completes[n]? with
    | none => none
    | some (complete, changes) =>
      if s.actor.saving = none then
        some ({ s with completes := s.completes.eraseIdx n }.complete y complete changes userId)
      else none
  | .diff n userId =>
    match s.diffs[n]? with
    | none => none
    | some changes =>
      if s.actor.saving = none then
        some ({ s with diffs := s.diffs.eraseIdx n }.call y (.applyDiff changes userId))
      else none
  | .call call => if s.actor.saving = none then some (s.call y call) else none
  | .resume =>
    -- both writes of the suspended call have succeeded
    match s.actor.saving with
    | none => none
    | some saving =>
      let written := { s.actor with saving := some { saving with updated := true, created := true } }
      (written.resume y).map fun (actor, _) =>
        let s := { s with actor := actor }
        match s.processing with
        | none => s
        | some complete => { s.finish complete with processing := none }
  | .syncAwaitExpired userId =>
    (s.actor.syncAwaitExpired userId).map fun actor => { s with actor := actor }

end Exchange

end AlaFois
