import AlaFois.Model.History

/-!
# One request of updateToken

`TokenController.updateToken` as one call on the collections, with nothing else running. The first
loop only reads; the second one writes and publishes token by token. That `updateMany` and `create`
succeed is an assumption, also where a text that the schema requires is empty.
-/

namespace AlaFois

/-- A request ends with a response, or because something has thrown. -/
inductive UpdateTokenEnd
  | responded (response : UpdateTokenResponse)
  | threw
deriving DecidableEq

def UpdateTokenEnd.isException (ending : UpdateTokenEnd) : Bool := ending ≠ .responded .ok

/-- What a request leaves behind. -/
structure UpdateTokenResult where
  db : Database
  published : List (UpdateTokenMessage Json)
  ending : UpdateTokenEnd

namespace Database

/-- One token of the first loop; `consumer` is the one that the request is authenticated as. -/
def admitUpdate (db : Database) (env : QueryEnv) (consumer : ConsumerId) (now : Int)
    (jwt : String) : Except UpdateTokenEnd ParsedToken :=
  match db.checkJWT env jwt with
  | none => .error .threw
  | some none => .error (.responded .badRequest)
  | some (some claims) =>
    match validateUpdate env.toApiEnv now claims with
    | none => .error (.responded .badRequest)
    | some payload =>
      match payload.payload.docs with
      | .array docs =>
        match db.countOwned env consumer docs with
        | none => .error .threw
        | some owned =>
          if consumerOwnsDocs owned docs then .ok ⟨jwt, payload⟩
          else .error (.responded .unauthorized)
      | _ => .error .threw

/-- The first loop. Each token stands with the time at which it is checked. -/
def parseTokens (db : Database) (env : QueryEnv) (consumer : ConsumerId) :
    List (Int × String) → Except UpdateTokenEnd (List ParsedToken)
  | [] => .ok []
  | (now, jwt) :: tokens =>
    match db.admitUpdate env consumer now jwt with
    | .error ending => .error ending
    | .ok t =>
      match db.parseTokens env consumer tokens with
      | .error ending => .error ending
      | .ok parsed => .ok (t :: parsed)

/-- The collection of tokens once the second loop has gone through for a token. -/
def replaceToken (db : Database) (t : ParsedToken) : Database :=
  { db with tokens := db.tokens.map (Api.taintOld t) ++ [t.record] }

/-- The second loop. -/
def replaceTokens (db : Database) (published : List (UpdateTokenMessage Json)) :
    List ParsedToken → UpdateTokenResult
  | [] => ⟨db, published, .responded .ok⟩
  | t :: parsed =>
    if db.findOne t.tokenId t.consumerId none then
      (db.replaceToken t).replaceTokens (published ++ [t.message]) parsed
    else ⟨db, published, .responded .conflict⟩

def updateToken (db : Database) (env : QueryEnv) (consumer : ConsumerId)
    (tokens : List (Int × String)) : UpdateTokenResult :=
  match db.parseTokens env consumer tokens with
  | .error ending => ⟨db, [], ending⟩
  | .ok parsed => db.replaceTokens [] parsed

end Database

end AlaFois
