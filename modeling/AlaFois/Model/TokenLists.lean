import AlaFois.Model.Proxy

/-!
# The lists of `TokenService` as objects

`tokenConnections` maps a token to an array that `addConnection` and `removeConnection` change in
place and `onUpdateTokenMessage` moves to another key. Here the arrays live in a heap and the map
holds references, where the model of the instance has the lists themselves.
-/

namespace AlaFois

/-- The address of an array of connections. -/
abbrev ListRef := Nat

/-- An instance. The `tokenConnections` of `rest` is not used; the key of a connection without a
token is `undefined`. -/
structure TokenLists where
  rest : Proxy
  tokenConnections : JsMap (Option TokenId) ListRef
  lists : ListRef → List ConnectionId
  nextRef : ListRef

/-- The reads of an `undefined`: a field of `connections[0]` where the list is empty, the keys of an
`access` that is not set, and `toJSON` of an expiry that is not set. -/
inductive TokenTypeError
  | undefinedConnection
  | undefinedAccess
  | undefinedExpiry
deriving DecidableEq

namespace TokenLists

def init (rest : Proxy) : TokenLists := ⟨rest, .empty, fun _ => [], 0⟩

/-- Replaces the array at `ref`. -/
def update (s : TokenLists) (ref : ListRef) (connections : List ConnectionId) : TokenLists :=
  { s with lists := Function.update s.lists ref connections }

/-- A new array. -/
def alloc (s : TokenLists) (connections : List ConnectionId) : ListRef × TokenLists :=
  (s.nextRef, { s.update s.nextRef connections with nextRef := s.nextRef + 1 })

def addConnection (s : TokenLists) (c : ConnectionId) : TokenLists :=
  let tokenId := (s.rest.conns c).tokenId
  let (connections, s) :=
    match s.tokenConnections.get tokenId with
    | some connections => (connections, s.update connections (s.lists connections ++ [c]))
    | none => s.alloc [c]
  { s with tokenConnections := s.tokenConnections.set tokenId connections }

def removeConnection (s : TokenLists) (c : ConnectionId) : TokenLists :=
  let tokenId := (s.rest.conns c).tokenId
  match s.tokenConnections.get tokenId with
  | none => s
  | some connections =>
    -- `splice` at `indexOf`: one occurrence goes, if there is one
    let s := s.update connections ((s.lists connections).erase c)
    if (s.lists connections).isEmpty then
      { s with tokenConnections := s.tokenConnections.delete tokenId }
    else s

/-- `applyToken` once the API has answered. -/
def applyToken (s : TokenLists) (c : ConnectionId) : CheckClientTokenResponse → TokenLists
  | .error _ => s
  | .ok payload =>
    { s with
      rest := s.rest.modify c fun conn => { conn with
        userId := some payload.userId
        tokenId := some payload.tokenId
        tokenExpiredAt := payload.expiredAt.or conn.tokenExpiredAt
        access := some (createAccessObject payload.docs)
        issuer := some payload.consumerId } }.addConnection c

/-- An error is thrown before anything has changed. -/
def onUpdateTokenMessage (s : TokenLists) (m : UpdateTokenMessage) :
    TokenLists × Option TokenTypeError :=
  match s.tokenConnections.get (some m.oldTokenId) with
  | none => (s, none)
  | some connections =>
    match s.lists connections with
    | [] => (s, some .undefinedConnection)
    | c :: cs =>
      match (s.rest.conns c).access with
      | none => (s, some .undefinedAccess)
      | some access =>
        let rest := (c :: cs).foldl (Proxy.updateConnection m (Proxy.updateDiff access m)) s.rest
        let tokenConnections := s.tokenConnections.delete (some m.oldTokenId)
        let tokenConnections := tokenConnections.set (some m.tokenId) connections
        ({ s with rest := rest, tokenConnections := tokenConnections }, none)

/-- The outer loop of `checkTokenExpiration`. Its rounds only delete the key they are at, so the
iterator meets the keys that the map had before, each with what is filed there when its turn
comes. -/
def checkKeys (now : Int) : List (Option TokenId) → TokenLists → TokenLists × Option TokenTypeError
  | [], s => (s, none)
  | tokenId :: tokenIds, s =>
    match s.tokenConnections.get tokenId with
    | none => checkKeys now tokenIds s
    | some connections =>
      match s.lists connections with
      | [] => (s, some .undefinedConnection)
      | c :: cs =>
        match (s.rest.conns c).tokenExpiredAt with
        | none => checkKeys now tokenIds s
        | some expiredAt =>
          if expiredAt.after now then checkKeys now tokenIds s
          else
            match Proxy.expireConnections (c :: cs) s.rest with
            | (rest, true) => ({ s with rest := rest }, some .undefinedExpiry)
            | (rest, false) =>
              checkKeys now tokenIds
                { s with rest := rest, tokenConnections := s.tokenConnections.delete tokenId }

def checkTokenExpiration (s : TokenLists) (now : Int) : TokenLists × Option TokenTypeError :=
  checkKeys now s.tokenConnections.keys s

end TokenLists

/-- The operations on the lists, and what else happens to the instance in between. -/
inductive TokenListOp
  | addConnection (c : ConnectionId)
  | removeConnection (c : ConnectionId)
  | applyToken (c : ConnectionId) (response : CheckClientTokenResponse)
  | onUpdateTokenMessage (m : UpdateTokenMessage)
  | checkTokenExpiration (now : Int)
  | elsewhere (rest : Proxy)

/-- The state after an operation, and the error it has thrown. -/
def TokenLists.apply (s : TokenLists) : TokenListOp → TokenLists × Option TokenTypeError
  | .addConnection c => (s.addConnection c, none)
  | .removeConnection c => (s.removeConnection c, none)
  | .applyToken c response => (s.applyToken c response, none)
  | .onUpdateTokenMessage m => s.onUpdateTokenMessage m
  | .checkTokenExpiration now => s.checkTokenExpiration now
  | .elsewhere rest => ({ s with rest := rest }, none)

/-- The same operation where the map has the lists themselves. -/
def Proxy.applyListOp (p : Proxy) : TokenListOp → Proxy
  | .addConnection c => p.addConnection c
  | .removeConnection c => p.removeConnection c
  | .applyToken c response => (p.applyToken c response).1
  | .onUpdateTokenMessage m => p.onUpdateTokenMessage m
  | .checkTokenExpiration now => p.checkTokenExpiration now
  | .elsewhere rest => { rest with tokenConnections := p.tokenConnections }

end AlaFois
