import AlaFois.Model.Types

/-!
# The document actor

`DocHandler` holds one document in memory. Every call that brings an update goes through
`saveDiff`, which applies it and then waits for two writes to Mongo; Dapr starts the next
call when the one before has completed. Yjs and js-base64 are parameters.
-/

namespace AlaFois

/-- `Uint8Array`. -/
abbrev Bytes := List UInt8

/-- The document that `applyUpdate` leaves behind. It changes the document in place, so that a
malformed update can throw after a part of it has been taken in. -/
structure Applied (Doc : Type*) where
  doc : Doc
  threw : Bool
deriving DecidableEq

/-- What the code calls of Yjs and js-base64. -/
structure Yjs (Doc : Type*) where
  newDoc : Doc
  applyUpdate : Doc → Bytes → Applied Doc
  /-- The target vector is optional; a malformed one makes the call throw. -/
  encodeStateAsUpdate : Doc → Option Bytes → Option Bytes
  encodeStateVector : Doc → Bytes
  /-- `doc.store.pendingDs !== null`. -/
  pendingDs : Doc → Bool
  /-- `doc.store.pendingStructs !== null`. -/
  pendingStructs : Doc → Bool
  toUint8Array : String → Bytes
  fromUint8Array : Bytes → String

/-- The test that the actor and the client share. -/
def Yjs.needSync {Doc : Type*} (y : Yjs Doc) (doc : Doc) : Bool :=
  y.pendingDs doc || y.pendingStructs doc

/-- The loop compares signed bytes; two of them are equal when the unsigned ones are. -/
def equalVectors (a b : Bytes) : Bool :=
  if a.length ≠ b.length then false
  else
    let aArr := a.map UInt8.toInt8
    let bArr := b.map UInt8.toInt8
    (List.range aArr.length).all fun i => aArr[i]? == bArr[i]?

/-- A record that `UpdateModel.create` inserts. -/
structure UpdateRecord where
  docId : DocKey
  state : Bytes
  userId : UserId
deriving DecidableEq

inductive ActorCall
  | applyDiff (changes : Changes) (userId : UserId)
  | syncStart (vector : StateVector)
  | syncComplete (changes : Changes) (userId : UserId)
deriving DecidableEq

inductive ActorReply
  | applyDiff (syncNeeded : Bool)
  | syncStart (vector : StateVector) (changes : Changes)
  | syncComplete
  | threw
deriving DecidableEq

/-- The method that waits for `saveDiff`. -/
inductive Awaiting
  | applyDiff (userId : UserId)
  | syncComplete
deriving DecidableEq

/-- `await Promise.all` of `saveDiff`: the two writes, and which of them has been done. -/
structure Saving where
  awaiting : Awaiting
  state : Bytes
  update : UpdateRecord
  updated : Bool
  created : Bool
deriving DecidableEq

/-- Where `saveDiff` stands when it gives up control. -/
inductive SaveDiff
  | threw
  | returned
  | saving (state : Bytes) (update : UpdateRecord)

/-- `timers` are the pending `setTimeout` calls, each with the user it will forget. -/
structure DocHandler (Doc : Type*) where
  id : DocKey
  ydoc : Doc
  syncAwait : JsMap UserId Bool
  timers : List UserId
  saving : Option Saving

namespace DocHandler

variable {Doc : Type*} (y : Yjs Doc)

/-- `state` is that of the record `DocModel.findOne` finds, if there is one. -/
def onActivate (id : DocKey) (state : Option Bytes) : Option (DocHandler Doc) :=
  match state with
  | none => some ⟨id, y.newDoc, .empty, [], none⟩
  | some state =>
    let applied := y.applyUpdate y.newDoc state
    if applied.threw then none else some ⟨id, applied.doc, .empty, [], none⟩

def saveDiff (s : DocHandler Doc) (changes : Changes) (userId : UserId) (checkEmpty : Bool) :
    DocHandler Doc × SaveDiff :=
  let changesBuffer := y.toUint8Array changes
  let currVector := y.encodeStateVector s.ydoc
  let applied := y.applyUpdate s.ydoc changesBuffer
  let s := { s with ydoc := applied.doc }
  if applied.threw then (s, .threw)
  -- the early return of an empty update is taken when the vectors differ
  else if checkEmpty && !equalVectors currVector (y.encodeStateVector s.ydoc) then (s, .returned)
  else
    match y.encodeStateAsUpdate s.ydoc none with
    | none => (s, .threw)
    | some state => (s, .saving state ⟨s.id, changesBuffer, userId⟩)

/-- What is left of a method once `saveDiff` has returned. -/
def saved (s : DocHandler Doc) : Awaiting → DocHandler Doc × ActorReply
  | .applyDiff userId =>
    if !s.syncAwait.has userId && y.needSync s.ydoc then
      ({ s with
        syncAwait := s.syncAwait.set userId true
        timers := userId :: s.timers }, .applyDiff true)
    else (s, .applyDiff false)
  | .syncComplete => (s, .syncComplete)

/-- `await this.saveDiff(...)`: the reply, or the call suspended on its writes. -/
def awaitSaveDiff (s : DocHandler Doc) (awaiting : Awaiting) (changes : Changes) (userId : UserId)
    (checkEmpty : Bool) : DocHandler Doc × Option ActorReply :=
  match s.saveDiff y changes userId checkEmpty with
  | (s, .threw) => (s, some .threw)
  | (s, .returned) => ((s.saved y awaiting).1, some (s.saved y awaiting).2)
  | (s, .saving state update) =>
    ({ s with saving := some ⟨awaiting, state, update, false, false⟩ }, none)

def applyDiff (s : DocHandler Doc) (changes : Changes) (userId : UserId) :
    DocHandler Doc × Option ActorReply :=
  s.awaitSaveDiff y (.applyDiff userId) changes userId false

def syncStart (s : DocHandler Doc) (vector : StateVector) : ActorReply :=
  let responseVector := y.encodeStateVector s.ydoc
  match y.encodeStateAsUpdate s.ydoc (some (y.toUint8Array vector)) with
  | none => .threw
  | some changes => .syncStart (y.fromUint8Array responseVector) (y.fromUint8Array changes)

def syncComplete (s : DocHandler Doc) (changes : Changes) (userId : UserId) :
    DocHandler Doc × Option ActorReply :=
  s.awaitSaveDiff y .syncComplete changes userId true

/-- A call up to its reply or to the writes it waits for. -/
def invoke (s : DocHandler Doc) : ActorCall → DocHandler Doc × Option ActorReply
  | .applyDiff changes userId => s.applyDiff y changes userId
  | .syncStart vector => (s, some (s.syncStart y vector))
  | .syncComplete changes userId => s.syncComplete y changes userId

/-- The suspended call goes on when both writes are done. -/
def resume (s : DocHandler Doc) : Option (DocHandler Doc × ActorReply) :=
  match s.saving with
  | none => none
  | some saving =>
    if saving.updated && saving.created then
      some ({ s with saving := none }.saved y saving.awaiting)
    else none

/-- The callback of `setTimeout`. -/
def syncAwaitExpired (s : DocHandler Doc) (userId : UserId) : Option (DocHandler Doc) :=
  if userId ∈ s.timers then
    some { s with syncAwait := s.syncAwait.delete userId, timers := s.timers.erase userId }
  else none

end DocHandler

/-- The actor with its records in Mongo. `completed` lists, in order, the updates of the calls
of `applyDiff` and `syncComplete` that have completed. -/
structure DocStore (Doc : Type*) where
  handler : DocHandler Doc
  doc : Option Bytes
  updates : List UpdateRecord
  completed : List Bytes

inductive DocStoreAction
  | call (call : ActorCall)
  | updateOne
  | create
  | resume
  | syncAwaitExpired (userId : UserId)
  | reactivate
deriving DecidableEq

/-- The update that a call brings. -/
def ActorCall.changes : ActorCall → Option Changes
  | .applyDiff changes _ => some changes
  | .syncStart _ => none
  | .syncComplete changes _ => some changes

namespace DocStore

variable {Doc : Type*} (y : Yjs Doc)

/-- A call that has replied without a write. -/
def replied (s : DocStore Doc) (call : ActorCall) : Option ActorReply → DocStore Doc
  | none => s
  | some .threw => s
  | some _ => { s with completed := s.completed ++ (call.changes.map y.toUint8Array).toList }

/-- Dapr starts a call, and deactivates the actor, when no call is in progress. The writes of a
call succeed, in any order. -/
def step (s : DocStore Doc) : DocStoreAction → Option (DocStore Doc)
  | .call call =>
    if s.handler.saving = none then
      let (handler, reply) := s.handler.invoke y call
      some ({ s with handler := handler }.replied y call reply)
    else none
  | .updateOne =>
    match s.handler.saving with
    | none => none
    | some saving =>
      if saving.updated then none
      else some { s with
        handler := { s.handler with saving := some { saving with updated := true } }
        -- a record that is missing is not inserted
        doc := s.doc.map fun _ => saving.state }
  | .create =>
    match s.handler.saving with
    | none => none
    | some saving =>
      if saving.created then none
      else some { s with
        handler := { s.handler with saving := some { saving with created := true } }
        updates := s.updates ++ [saving.update] }
  | .resume =>
    match s.handler.saving, s.handler.resume y with
    | some saving, some (handler, _) =>
      some { s with handler := handler, completed := s.completed ++ [saving.update.state] }
    | _, _ => none
  | .syncAwaitExpired userId =>
    (s.handler.syncAwaitExpired userId).map fun handler => { s with handler := handler }
  | .reactivate =>
    if s.handler.saving = none then
      (DocHandler.onActivate y s.handler.id s.doc).map fun handler => { s with handler := handler }
    else none

/-- The actor activated on the record it finds. -/
def activate (id : DocKey) (doc : Option Bytes) : Option (DocStore Doc) :=
  (DocHandler.onActivate y id doc).map fun handler => ⟨handler, doc, [], []⟩

end DocStore

/-- Yjs on the documents to which at most one edit has been made, for concrete runs. `[0, 0]`
is the empty update, and text other than the base64 of these four arrays stands for its bytes. -/
def Yjs.oneEdit : Yjs Bool where
  newDoc := false
  applyUpdate doc update := ⟨doc || update == [1, 1], false⟩
  encodeStateAsUpdate doc vector :=
    some (if doc && vector != some [1, 1, 1] then [1, 1] else [0, 0])
  encodeStateVector doc := if doc then [1, 1, 1] else [0]
  pendingDs _ := false
  pendingStructs _ := false
  toUint8Array text :=
    match text with
    | "AAA=" => [0, 0]
    | "AQE=" => [1, 1]
    | "AA==" => [0]
    | "AQEB" => [1, 1, 1]
    | _ => (text.toList.drop 1).map fun c => UInt8.ofNat c.toNat
  fromUint8Array bytes :=
    match bytes with
    | [0, 0] => "AAA="
    | [1, 1] => "AQE="
    | [0] => "AA=="
    | [1, 1, 1] => "AQEB"
    | _ => String.ofList ('*' :: bytes.map fun b => Char.ofNat b.toNat)

end AlaFois
