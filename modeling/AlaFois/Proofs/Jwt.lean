import AlaFois.Model.Jwt

/-!
# The payload that chooses the key

`checkJWT` takes the consumer, and so the key, from a payload that nobody has verified, and returns
the payload of `verify`. The two are read by different decoders. They are the same payload whenever
`verify` accepts the text.
-/

namespace AlaFois

lemma toList_compact (header payload signature : String) :
    (compact header payload signature).toList =
      header.toList ++ '.' :: (payload.toList ++ '.' :: signature.toList) := by
  simp [compact]

lemma splitOn_compact {header payload : String} (hheader : '.' ∉ header.toList)
    (hpayload : '.' ∉ payload.toList) (signature : String) :
    (compact header payload signature).toList.splitOn '.' =
      header.toList :: payload.toList :: signature.toList.splitOn '.' := by
  rw [toList_compact, List.splitOn_append_cons_self_of_not_mem hheader,
    List.splitOn_append_cons_self_of_not_mem hpayload]

/-- The middle part is read as it has been written; the signature can be anything. -/
lemma parseJWT_compact {Payload : Type} {json : Bytes → Option Payload} (hempty : json [] = none)
    {header payload : String} {bytes : Bytes} (hheader : '.' ∉ header.toList)
    (hbytes : Base64.decodeUrl payload = some bytes) (signature : String) :
    parseJWT json (compact header payload signature) = json bytes := by
  obtain ⟨hdecode, hdot⟩ := Base64.decode_eq_of_decodeUrl hbytes
  simp only [parseJWT, splitOn_compact hheader hdot, String.ofList_toList, hdecode]
  by_cases h : payload.toList = []
  · rw [if_pos h]
    rw [Base64.decodeUrl, h] at hbytes
    cases hbytes
    exact hempty.symm
  · rw [if_neg h]

/-- What a signer puts into a JWT, `parseJWT` gets out of it. -/
theorem parseJWT_encodeUrl {Payload : Type} (json : Bytes → Option Payload)
    (hempty : json [] = none) (header payload signature : Bytes) :
    parseJWT json (compact (Base64.encodeUrl header) (Base64.encodeUrl payload)
      (Base64.encodeUrl signature)) = json payload := by
  have hheader := (Base64.decode_eq_of_decodeUrl (Base64.decodeUrl_encodeUrl header)).2
  exact parseJWT_compact hempty hheader (Base64.decodeUrl_encodeUrl payload) _

/-- A JSON text of ASCII characters. -/
def ascii (text : String) : Bytes := text.toList.map fun c => .ofNat c.toNat

def sampleHeader : Bytes := ascii "\x7b\"alg\":\"RS256\"\x7d"

def sampleBody : Bytes := ascii "\x7b\"consumerId\":\"consumer\"\x7d"

def sampleClaims : Claims := ⟨none, some (.text "consumer"), none, none, none, none⟩

def sampleJson (bytes : Bytes) : Option Claims :=
  if bytes = sampleBody then some sampleClaims else none

lemma sampleJson_nil : sampleJson [] = none := rfl

def sampleJwt : String :=
  compact (Base64.encodeUrl sampleHeader) (Base64.encodeUrl sampleBody) (Base64.encodeUrl [251, 255])

theorem parseJWT_encodeUrl_sample : parseJWT sampleJson sampleJwt = sampleJson sampleBody :=
  parseJWT_encodeUrl sampleJson sampleJson_nil sampleHeader sampleBody [251, 255]

namespace JwtEnv

variable {env : JwtEnv}

/-- `verify` takes compact serializations only, decodes every part strictly, and calls back with the
payload in the middle part. The empty text is no JSON. -/
structure Standard (env : JwtEnv) : Prop where
  verified : ∀ jwt key claims, env.verify jwt key = some claims →
    ∃ header payload signature h p s, jwt = compact header payload signature ∧
      Base64.decodeUrl header = some h ∧ Base64.decodeUrl payload = some p ∧
      Base64.decodeUrl signature = some s ∧ env.json p = some claims
  empty : env.json [] = none

lemma Standard.parse_of_verify (h : env.Standard) {jwt key : String} {claims : Claims}
    (hverify : env.verify jwt key = some claims) : parseJWT env.json jwt = some claims := by
  obtain ⟨header, payload, signature, _, p, _, rfl, hheader, hpayload, -, hjson⟩ :=
    h.verified jwt key claims hverify
  have hdot := (Base64.decode_eq_of_decodeUrl hheader).2
  rw [parseJWT_compact h.empty hdot hpayload, hjson]

/-- It is enough to know the parsed payload, and whether the text is verified. -/
theorem checkJWT_agrees (h : env.Standard) (jwt : String) (consumer : Option Consumer) :
    env.checkJWT jwt consumer = AlaFois.checkJWT env.toApiEnv jwt consumer := by
  simp only [checkJWT, AlaFois.checkJWT, toApiEnv]
  cases hparse : parseJWT env.json jwt with
  | none => rfl
  | some claims =>
    cases consumer with
    | none => rfl
    | some consumer =>
      cases hverify : env.verify jwt consumer.publicKey with
      | none => simp [hverify]
      | some verified =>
        have hsame : claims = verified :=
          Option.some.inj (hparse.symm.trans (h.parse_of_verify hverify))
        simp [hverify, hsame]

/-- A JWT is accepted exactly when a consumer has signed it that is found under the value by which its
verified payload names one. -/
theorem accept_iff_signed (h : env.Standard) (findById : Json → Option Consumer)
    (jwt : String) (claims : Claims) :
    env.accept findById jwt = some claims ↔
      ∃ value consumer, claims.consumerId = some value ∧ value.truthy = true ∧
        findById value = some consumer ∧ env.verify jwt consumer.publicKey = some claims := by
  constructor
  · intro haccept
    simp only [accept, checkJWT] at haccept
    cases hparse : parseJWT env.json jwt with
    | none => simp [hparse] at haccept
    | some parsed =>
      simp only [hparse, Option.bind_some] at haccept
      obtain ⟨hnamed, haccept⟩ := Option.ite_none_left_eq_some.mp haccept
      obtain ⟨value, hsigner⟩ := Option.ne_none_iff_exists'.mp hnamed
      rw [hsigner, Option.bind_some] at haccept
      cases hfind : findById value with
      | none => simp [hfind] at haccept
      | some consumer =>
        rw [hfind] at haccept
        have hsame : parsed = claims :=
          Option.some.inj (hparse.symm.trans (h.parse_of_verify haccept))
        obtain ⟨hvalue, htruthy⟩ := Option.filter_eq_some_iff.mp hsigner
        exact ⟨value, consumer, hsame ▸ hvalue, htruthy, hfind, haccept⟩
  · rintro ⟨value, consumer, hvalue, htruthy, hfind, hverify⟩
    have hparse := h.parse_of_verify hverify
    have hsigner : claims.signer = some value := Option.filter_eq_some_iff.mpr ⟨hvalue, htruthy⟩
    simp only [accept, checkJWT, hparse, Option.bind_some, hsigner, reduceCtorEq, if_false, hfind]
    exact hverify

/-- One key has signed one JWT. -/
def sampleEnv : JwtEnv where
  json := sampleJson
  verify jwt key := if jwt = sampleJwt ∧ key = "key" then some sampleClaims else none
  ttl := 0

lemma standard_sampleEnv : sampleEnv.Standard where
  verified jwt key claims h := by
    obtain ⟨⟨rfl, -⟩, hclaims⟩ := Option.ite_none_right_eq_some.mp h
    cases hclaims
    exact ⟨_, _, _, _, _, _, rfl, Base64.decodeUrl_encodeUrl sampleHeader,
      Base64.decodeUrl_encodeUrl sampleBody, Base64.decodeUrl_encodeUrl [251, 255], rfl⟩
  empty := sampleJson_nil

lemma verify_sampleJwt : sampleEnv.verify sampleJwt "key" = some sampleClaims := by
  simp [sampleEnv]

theorem accept_iff_signed_sample :
    sampleEnv.accept (fun _ => some ⟨"consumer", "key"⟩) sampleJwt = some sampleClaims :=
  (accept_iff_signed standard_sampleEnv (fun _ => some ⟨"consumer", "key"⟩) sampleJwt
    sampleClaims).mpr ⟨.text "consumer", ⟨"consumer", "key"⟩, rfl, rfl, rfl, verify_sampleJwt⟩

end JwtEnv

end AlaFois
