import AlaFois.Model.DocService

/-!
# One message proxy instance

`TokenService`, `AuthService` and the connection handlers of `WsGateway`, as functions on
the state of one instance. A connection is identified with its id, which `initClient` draws
fresh for every socket.
-/

namespace AlaFois

inductive ReadyState
  | connecting
  | open
  | closing
  | closed
deriving DecidableEq, Repr

/-- The fields that the services set on a socket; `none` is `undefined`. `issuer` is the
consumer of the token last applied, which the code drops: it declares a field `consumerId`
but never sets it. No function reads `issuer`. -/
structure WebSocketConnection where
  readyState : ReadyState
  tokenId : Option TokenId
  tokenExpiredAt : Option JsDate
  userId : Option UserId
  access : Option Access
  issuer : Option ConsumerId

/-- A socket before `handleConnection`. -/
def WebSocketConnection.new : WebSocketConnection := ⟨.connecting, none, none, none, none, none⟩

def WebSocketConnection.isOpen (conn : WebSocketConnection) : Bool := conn.readyState = .open

structure Proxy where
  conns : ConnectionId → WebSocketConnection
  docService : DocService
  tokenConnections : JsMap TokenId (List ConnectionId)
  publicDocs : JsMap DocKey Bool
  sent : List Sent

namespace Proxy

def init : Proxy := ⟨fun _ => .new, .init, .empty, .empty, []⟩

def modify (p : Proxy) (c : ConnectionId) (f : WebSocketConnection → WebSocketConnection) : Proxy :=
  { p with conns := Function.update p.conns c (f (p.conns c)) }

/-- `conn.send`; a socket that is closing or closed delivers nothing. -/
def send (p : Proxy) (c : ConnectionId) (message : ServerMessage) : Proxy :=
  if (p.conns c).isOpen then { p with sent := p.sent ++ [(c, message)] } else p

/-- `conn.close`; the close event, and with it `handleDisconnect`, follows later. -/
def close (p : Proxy) (c : ConnectionId) : Proxy :=
  if (p.conns c).isOpen then p.modify c fun conn => { conn with readyState := .closing } else p

/-! ### TokenService -/

def connectionsOf (p : Proxy) (tokenId : TokenId) : List ConnectionId :=
  (p.tokenConnections.get tokenId).getD []

def addConnection (p : Proxy) (c : ConnectionId) : Proxy :=
  match (p.conns c).tokenId with
  | none => p -- `applyToken` has set the id
  | some tokenId =>
    { p with tokenConnections := p.tokenConnections.set tokenId (p.connectionsOf tokenId ++ [c]) }

def removeConnection (p : Proxy) (c : ConnectionId) : Proxy :=
  match (p.conns c).tokenId with
  | none => p
  | some tokenId =>
    match p.tokenConnections.get tokenId with
    | none => p
    | some connections =>
      -- `splice` at `indexOf`: one occurrence goes, if there is one
      if (connections.erase c).isEmpty then
        { p with tokenConnections := p.tokenConnections.delete tokenId }
      else { p with tokenConnections := p.tokenConnections.set tokenId (connections.erase c) }

end Proxy

/-- One round of the loop over the docIds of both tables. `sameArray` tells the documents
whose two `rights` are one array object, which is what `===` compares. -/
def classifyDoc (sameArray : DocKey → Bool) (rights newRights : Access) (diff : TokenRightsDiff)
    (id : DocKey) : TokenRightsDiff :=
  match rights.get id, newRights.get id with
  | some old, some new =>
    if sameArray id then { diff with unchanged := diff.unchanged ++ [new] }
    else if new.rights.length = 0 then { diff with removed := diff.removed ++ [.key id] }
    else if old.rights.length = 0 then { diff with added := diff.added ++ [new] }
    else { diff with changed := diff.changed ++ [new] }
  | some old, none => { diff with removed := diff.removed ++ [.entry old] }
  | none, some new => { diff with added := diff.added ++ [new] }
  | none, none => diff

def getTokenRightsDiff (sameArray : DocKey → Bool) (rights newRights : Access) : TokenRightsDiff :=
  (rights.keys ++ newRights.keys).eraseDups.foldl (classifyDoc sameArray rights newRights)
    ⟨[], [], [], []⟩

namespace Proxy

/-- The rights table that a message is compared with, `connections[0].access`. -/
def firstAccess (p : Proxy) (connections : List ConnectionId) : Option Access :=
  connections.head?.bind fun c => (p.conns c).access

/-- The arrays of the two tables come from different messages, so none is shared. -/
def updateDiff (firstAccess : Access) (m : UpdateTokenMessage) : TokenRightsDiff :=
  getTokenRightsDiff (fun _ => false) firstAccess (createAccessObject m.docs)

/-- The body of the loop over the connections of the old token. -/
def updateConnection (m : UpdateTokenMessage) (diff : TokenRightsDiff) (p : Proxy)
    (c : ConnectionId) : Proxy :=
  let p := p.modify c fun conn => { conn with
    access := some (createAccessObject m.docs)
    tokenExpiredAt := some (newDate m.expiredAt)
    tokenId := some m.tokenId }
  let p := { p with docService := p.docService.onDetachDocMessage c diff.removed }
  let p := { p with docService := p.docService.onAttachDocMessage c (diff.added.map AccessData.id) }
  p.send c (.updateToken m.token diff)

def onUpdateTokenMessage (p : Proxy) (m : UpdateTokenMessage) : Proxy :=
  match p.tokenConnections.get m.oldTokenId with
  | none => p
  | some connections =>
    match p.firstAccess connections with
    | none => p -- a TypeError before anything has changed
    | some firstAccess =>
      let p := connections.foldl (updateConnection m (updateDiff firstAccess m)) p
      { p with tokenConnections :=
          (p.tokenConnections.delete m.oldTokenId).set m.tokenId connections }

/-- The inner loop of `checkTokenExpiration`. The flag reports the TypeError of `toJSON` on a
connection without expiry, which ends the whole check. -/
def expireConnections : List ConnectionId → Proxy → Proxy × Bool
  | [], p => (p, false)
  | c :: cs, p =>
    match (p.conns c).tokenExpiredAt with
    | none => (p, true)
    | some expiredAt =>
      let p := p.send c (.expiredToken (p.conns c).tokenId expiredAt)
      let p := { p with docService := p.docService.disconnect c }
      expireConnections cs (p.close c)

/-- The outer loop of `checkTokenExpiration`, over the lists of the tokens. -/
def checkLists (now : Int) : List (TokenId × List ConnectionId) → Proxy → Proxy
  | [], p => p
  | (_, []) :: _, p => p -- a TypeError on `connections[0]`
  | (tokenId, c :: cs) :: rest, p =>
    match (p.conns c).tokenExpiredAt with
    | none => checkLists now rest p
    | some expiredAt =>
      if expiredAt.after now then checkLists now rest p
      else
        match expireConnections (c :: cs) p with
        | (p, true) => p
        | (p, false) =>
          checkLists now rest { p with tokenConnections := p.tokenConnections.delete tokenId }

def checkTokenExpiration (p : Proxy) (now : Int) : Proxy :=
  checkLists now p.tokenConnections.entries p

/-! ### AuthService -/

def applyToken (p : Proxy) (c : ConnectionId) : CheckClientTokenResponse → Proxy × Status
  | .error _ => (p, .err "Invalid token")
  | .ok payload =>
    let p := p.modify c fun conn => { conn with
      userId := some payload.userId
      tokenId := some payload.tokenId
      tokenExpiredAt := payload.expiredAt.or conn.tokenExpiredAt
      access := some (createAccessObject payload.docs)
      issuer := some payload.consumerId }
    (p.addConnection c, .ok)

/-- `token` is the API's answer for the token of the URL, if there is one. -/
def initClient (p : Proxy) (c : ConnectionId) : Option CheckClientTokenResponse → Proxy × Status
  | none => (p.modify c fun conn => { conn with access := some .empty }, .ok)
  | some response => p.applyToken c response

/-- What `checkDocAccess` decides without the API. -/
inductive DocAccess
  | granted
  | denied
  | ask
  | typeError -- `access` is still undefined
deriving DecidableEq

def docAccess (p : Proxy) (c : ConnectionId) (docId : DocKey) : DocAccess :=
  match (p.conns c).access with
  | none => .typeError
  | some access =>
    match access.get docId with
    | none => .ask
    | some data => if Right.read ∈ data.rights then .granted else .denied

/-- The rest of `checkDocAccess` once the API has answered. -/
def docIsPublicAnswered (p : Proxy) (docId : DocKey) : DocIsPublicResponse → Proxy × Status
  | .error _ => (p, .err "Internal error")
  | .ok true => ({ p with publicDocs := p.publicDocs.set docId true }, .ok)
  | .ok false => (p, .err "Unauthorized")

/-! ### WsGateway -/

/-- `conn.id = uuid()`: the socket is open and known from here on. -/
def openConnection (p : Proxy) (c : ConnectionId) : Proxy :=
  p.modify c fun _ => { WebSocketConnection.new with readyState := .open }

def handleConnection (p : Proxy) (c : ConnectionId) (token : Option CheckClientTokenResponse) :
    Proxy :=
  let (p, status) := (p.openConnection c).initClient c token
  p.send c (.connectResponse status)

def handleDisconnect (p : Proxy) (c : ConnectionId) : Proxy :=
  let p := p.modify c fun conn => { conn with readyState := .closed }
  let p := { p with docService := p.docService.disconnect c }
  p.removeConnection c

/-- The rest of `onJoin` after `checkDocAccess`. -/
def finishJoin (p : Proxy) (c : ConnectionId) (docId : DocKey) : Status → Proxy
  | .ok =>
    let p := { p with docService := p.docService.joinToDoc c docId }
    p.send c (.joinResponse docId .ok)
  | .err message => p.send c (.joinResponse docId (.err message))

/-- The rest of `onJoin` once the API has answered. -/
def joinAnswered (p : Proxy) (c : ConnectionId) (docId : DocKey)
    (response : DocIsPublicResponse) : Proxy :=
  let (p, status) := p.docIsPublicAnswered docId response
  p.finishJoin c docId status

/-- `response` is the API's answer, where `checkDocAccess` asks for it. -/
def onJoin (p : Proxy) (c : ConnectionId) (docId : DocKey) (response : DocIsPublicResponse) :
    Proxy :=
  match p.docAccess c docId with
  | .typeError => p
  | .granted => p.finishJoin c docId .ok
  | .denied => p.finishJoin c docId (.err "Unauthorized")
  | .ask => p.joinAnswered c docId response

def onSetToken (p : Proxy) (c : ConnectionId) (response : CheckClientTokenResponse) : Proxy :=
  match p.applyToken c response with
  | (p, .err message) => p.send c (.setTokenResponse (.err message))
  | (p, .ok) =>
    let p := { p with docService := p.docService.disconnect c }
    p.send c (.setTokenResponse .ok)

end Proxy

/-- The operations of an instance, each run to its end. -/
inductive ProxyOp
  | handleConnection (c : ConnectionId) (token : Option CheckClientTokenResponse)
  | onJoin (c : ConnectionId) (docId : DocKey) (response : DocIsPublicResponse)
  | onSetToken (c : ConnectionId) (response : CheckClientTokenResponse)
  | onUpdateTokenMessage (m : UpdateTokenMessage)
  | checkTokenExpiration (now : Int)
  | handleDisconnect (c : ConnectionId)

namespace Proxy

/-- Messages of a socket are handled from its connection to its close event, also while it is
closing. -/
def connected (p : Proxy) (c : ConnectionId) : Bool :=
  (p.conns c).readyState = .open ∨ (p.conns c).readyState = .closing

/-- One completed operation. The API answers that a document is public only of public
documents. -/
def step (isPublic : DocKey → Bool) (p : Proxy) : ProxyOp → Option Proxy
  | .handleConnection c token =>
    if (p.conns c).readyState = .connecting then some (p.handleConnection c token) else none
  | .onJoin c docId response =>
    if p.connected c ∧ (response = .ok true → isPublic docId) then
      some (p.onJoin c docId response)
    else none
  | .onSetToken c response => if p.connected c then some (p.onSetToken c response) else none
  | .onUpdateTokenMessage m => some (p.onUpdateTokenMessage m)
  | .checkTokenExpiration now => some (p.checkTokenExpiration now)
  | .handleDisconnect c => if p.connected c then some (p.handleDisconnect c) else none

end Proxy

end AlaFois
