import AlaFois.Lib.Base64
import AlaFois.Model.Api
import AlaFois.Model.DocHandler

/-!
# The text of a JWT

`parseJWT` splits a JWT and decodes its middle part, leniently and before anything is verified;
`checkJWT` then returns what `verify` makes of the whole text. Elsewhere both are one parameter.
-/

namespace AlaFois

/-- `json` is `safeParseJSON` of bytes read as UTF-8; an exception and `null` are `none`. -/
def parseJWT {Payload : Type} (json : Bytes → Option Payload) (jwt : String) : Option Payload :=
  match jwt.toList.splitOn '.' with
  | _ :: payload :: _ =>
    if payload = [] then none else json (Base64.decode (String.ofList payload))
  | _ => none

/-- `verify` of `jsonwebtoken` calls back with a payload, or with an error, at the time of the call. -/
structure JwtEnv where
  json : Bytes → Option Claims
  verify : String → String → Option Claims
  ttl : Int

/-- `AuthService.checkJWT`; `consumer` is what is found under the `consumerId` of the parsed payload. -/
def JwtEnv.checkJWT (env : JwtEnv) (jwt : String) (consumer : Option Consumer) : Option Claims :=
  match parseJWT env.json jwt with
  | none => none
  | some claims =>
    if claims.signer = none then none
    else
      match consumer with
      | none => none
      | some consumer => env.verify jwt consumer.publicKey

/-- The same with the `Consumer` collection. `findById` takes any value, be it an id, something to be
cast to one or a condition on ids; an exception of the query is `none`. -/
def JwtEnv.accept (env : JwtEnv) (findById : Json → Option Consumer) (jwt : String) :
    Option Claims :=
  env.checkJWT jwt (((parseJWT env.json jwt).bind Claims.signer).bind findById)

/-- The two parameters with which the rest is modelled. -/
def JwtEnv.toApiEnv (env : JwtEnv) : ApiEnv where
  parseJWT := parseJWT env.json
  verify := fun jwt key => (env.verify jwt key).isSome
  ttl := env.ttl

/-- The compact serialization. -/
def compact (header payload signature : String) : String :=
  header ++ "." ++ payload ++ "." ++ signature

end AlaFois
