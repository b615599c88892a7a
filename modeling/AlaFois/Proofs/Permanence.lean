import AlaFois.Lib.Stepper
import AlaFois.Proofs.ApiSpec

/-!
# Revocation at the API

A token is sealed when it has records, all of them are tainted, and nobody is about to insert
another one. Sealed tokens stay sealed whatever happens, and are refused. `updateMany` seals
the old token if that has a record already and no insertion of one is on its way.
-/

namespace AlaFois

def TokenRecord.Keyed (record : TokenRecord) (tokenId : TokenId) (consumerId : ConsumerId) : Prop :=
  record.tokenId = tokenId ∧ record.consumerId = consumerId

instance (record : TokenRecord) (tokenId : TokenId) (consumerId : ConsumerId) :
    Decidable (record.Keyed tokenId consumerId) :=
  inferInstanceAs (Decidable (_ ∧ _))

/-- The call has found no record and goes on to insert one of this token. -/
def CheckCall.inserts (tokenId : TokenId) (consumerId : ConsumerId) (call : CheckCall) : Bool :=
  match call.stage with
  | .found payload none => payload.tokenId = tokenId ∧ payload.consumerId = consumerId
  | _ => false

def UpdateCall.inserts (tokenId : TokenId) (consumerId : ConsumerId) (call : UpdateCall) : Bool :=
  match call.stage, call.todo with
  | .tainting, t :: _ => t.tokenId = tokenId ∧ t.consumerId = consumerId
  | .creating, t :: _ => t.tokenId = tokenId ∧ t.consumerId = consumerId
  | _, _ => false

namespace Api

/-- An insertion of a record of the token is under way, or somebody is about to start one. -/
def Inserting (s : Api) (tokenId : TokenId) (consumerId : ConsumerId) : Prop :=
  (∃ record ∈ s.creates, record.Keyed tokenId consumerId) ∨
    (∃ e ∈ s.checks.entries, e.2.inserts tokenId consumerId = true) ∨
      ∃ e ∈ s.updates.entries, e.2.inserts tokenId consumerId = true

structure Sealed (s : Api) (tokenId : TokenId) (consumerId : ConsumerId) : Prop where
  known : ∃ record ∈ s.tokens, record.Keyed tokenId consumerId
  tainted : ∀ record ∈ s.tokens, record.Keyed tokenId consumerId → record.taint = true
  settled : ¬s.Inserting tokenId consumerId

/-- The old token has a record already, and no insertion of one is on its way. -/
def TaintOk (s : Api) : ApiAction → Prop
  | .updateTaint id => ∀ call ∈ s.updates.get id, ∀ t ∈ call.todo.head?,
      (∃ record ∈ s.tokens, record.Keyed t.oldTokenId t.consumerId) ∧
        ¬s.Inserting t.oldTokenId t.consumerId
  | _ => True

instance (s : Api) (tokenId : TokenId) (consumerId : ConsumerId) :
    Decidable (s.Inserting tokenId consumerId) :=
  inferInstanceAs (Decidable ((∃ record ∈ s.creates, _) ∨ (∃ e ∈ s.checks.entries, _) ∨
    ∃ e ∈ s.updates.entries, _))

instance (s : Api) (a : ApiAction) : Decidable (s.TaintOk a) := by
  unfold TaintOk
  split <;> infer_instance

variable {env : ApiEnv} {s s' : Api} {tokenId : TokenId} {consumerId : ConsumerId}

/-! ### Insertions under way -/

lemma inserting_setCheck {id : Nat} {jwt : String} {stage : CheckStage}
    (h : (s.setCheck id jwt stage).Inserting tokenId consumerId) :
    CheckCall.inserts tokenId consumerId ⟨jwt, stage⟩ = true ∨ s.Inserting tokenId consumerId := by
  rcases h with h | h | h
  · exact .inr (.inl h)
  · have h' := JsMap.exists_entry_of_set (CheckCall.inserts tokenId consumerId) h
    exact h'.imp_right fun h => .inr (.inl h)
  · exact .inr (.inr (.inr h))

lemma inserting_respond {id : Nat} {jwt : String}
    {response : CheckClientTokenResponse (JWTPayload Json)}
    (h : (s.respond id jwt response).Inserting tokenId consumerId) :
    s.Inserting tokenId consumerId := by
  rcases h with h | h | h
  · exact .inl h
  · exact .inr (.inl (JsMap.exists_entry_of_delete (CheckCall.inserts tokenId consumerId) h))
  · exact .inr (.inr h)

lemma inserting_setUpdate {id : Nat} {call : UpdateCall}
    (h : (s.setUpdate id call).Inserting tokenId consumerId) :
    call.inserts tokenId consumerId = true ∨ s.Inserting tokenId consumerId := by
  rcases h with h | h | h
  · exact .inr (.inl h)
  · exact .inr (.inr (.inl h))
  · have h' := JsMap.exists_entry_of_set (UpdateCall.inserts tokenId consumerId) h
    exact h'.imp_right fun h => .inr (.inr h)

lemma inserting_reply {id : Nat} (response : UpdateTokenResponse)
    (h : (s.reply id response).Inserting tokenId consumerId) : s.Inserting tokenId consumerId := by
  rcases h with h | h | h
  · exact .inl h
  · exact .inr (.inl h)
  · exact .inr (.inr (JsMap.exists_entry_of_delete (UpdateCall.inserts tokenId consumerId) h))

lemma inserting_nextToken {id : Nat} {call : UpdateCall}
    (h : (s.nextToken id call).Inserting tokenId consumerId) : s.Inserting tokenId consumerId := by
  unfold nextToken at h
  split at h
  · have h' := inserting_reply .ok h
    exact h'
  · exact (inserting_setUpdate h).resolve_left (by simp [UpdateCall.inserts])

/-- The next operation of the call, where it inserts the record of the token. -/
lemma inserting_of_check {id : Nat} {call : CheckCall} (hget : s.checks.get id = some call)
    (h : call.inserts tokenId consumerId = true) : s.Inserting tokenId consumerId :=
  .inr (.inl (JsMap.exists_entry_of_get (CheckCall.inserts tokenId consumerId) hget h))

lemma inserting_of_update {id : Nat} {call : UpdateCall} (hget : s.updates.get id = some call)
    (h : call.inserts tokenId consumerId = true) : s.Inserting tokenId consumerId :=
  .inr (.inr (JsMap.exists_entry_of_get (UpdateCall.inserts tokenId consumerId) hget h))

/-! ### What a step does to the records -/

lemma keyed_taintOld (t : ParsedToken) (record : TokenRecord) :
    (taintOld t record).Keyed tokenId consumerId ↔ record.Keyed tokenId consumerId := by
  unfold taintOld
  split <;> rfl

lemma taint_taintOld (t : ParsedToken) (record : TokenRecord) :
    (taintOld t record).taint = true ↔ record.taint = true ∨
      record.Keyed t.oldTokenId t.consumerId := by
  unfold taintOld TokenRecord.Keyed
  split
  · rename_i h
    simp [h]
  · rename_i h
    cases ht : record.taint
    · simp only [ht, and_true, not_and] at h
      simp only [Bool.false_eq_true, false_or, false_iff, not_and]
      exact h
    · simp

/-- The call that taints was about to insert before as it is after. -/
lemma inserting_taint {id : Nat} {call : UpdateCall} {t : ParsedToken} {rest : List ParsedToken}
    (hget : s.updates.get id = some call) (hstage : call.stage = .tainting)
    (htodo : call.todo = t :: rest)
    (h : (({ s with tokens := s.tokens.map (taintOld t) } : Api).setUpdate id
      { call with stage := .creating }).Inserting tokenId consumerId) :
    s.Inserting tokenId consumerId := by
  rcases inserting_setUpdate h with hins | hold
  · refine inserting_of_update hget ?_
    simp only [UpdateCall.inserts, htodo] at hins
    simpa only [UpdateCall.inserts, hstage, htodo] using hins
  · exact hold

lemma tokens_nextToken (s : Api) (id : Nat) (call : UpdateCall) :
    (s.nextToken id call).tokens = s.tokens := by
  unfold nextToken
  split <;> rfl

lemma findOne_none (h : s.findOne tokenId consumerId none = true) :
    ∀ record ∈ s.tokens, ¬record.Keyed tokenId consumerId := by
  simp only [findOne, decide_eq_true_eq] at h
  exact h

/-- Nobody starts to insert a record of a token that has one. -/
theorem inserting_step {a : ApiAction} (hs : s.step env a = some s')
    (hi : s'.Inserting tokenId consumerId) :
    s.Inserting tokenId consumerId ∨ ∀ record ∈ s.tokens, ¬record.Keyed tokenId consumerId := by
  cases step_cases hs with
  | checkStarted jwt =>
    have hi' : (s.setCheck s.nextId jwt .admitting).Inserting tokenId consumerId := hi
    exact .inl ((inserting_setCheck hi').resolve_left (by simp [CheckCall.inserts]))
  | checkRefused id call consumer now owned status hget => exact .inl (inserting_respond hi)
  | checkAdmitted id call consumer now owned payload hget hjwt =>
    exact .inl ((inserting_setCheck hi).resolve_left (by simp [CheckCall.inserts]))
  | checkFound id call payload token hget hstage hfind =>
    refine (inserting_setCheck hi).symm.imp_right fun hins => ?_
    cases token with
    | none =>
      simp only [CheckCall.inserts, decide_eq_true_eq] at hins
      rw [← hins.1, ← hins.2]
      exact findOne_none hfind
    | some record => cases hins
  | checkInserting id call payload hget hstage =>
    -- the record now being inserted is the one the call was about to insert
    rcases inserting_respond hi with ⟨record, hrec, hkey⟩ | hi
    · rcases List.mem_cons.mp hrec with rfl | hold
      · refine .inl (inserting_of_check hget ?_)
        simp only [CheckCall.inserts, hstage, decide_eq_true_eq]
        exact hkey
      · exact .inl (.inl ⟨record, hold, hkey⟩)
    · exact .inl (.inr hi)
  | checkFailed id call status hget => exact .inl (inserting_respond hi)
  | checkAccepted id call payload token hget hstage htaint => exact .inl (inserting_respond hi)
  | created record hmem =>
    rcases hi with ⟨r, hr, hkey⟩ | hi
    · exact .inl (.inl ⟨r, List.mem_of_mem_erase hr, hkey⟩)
    · exact .inl (.inr hi)
  | updateStarted consumer tokens =>
    have hi' : (s.setUpdate s.nextId ⟨consumer, [], [], .checking tokens⟩).Inserting
      tokenId consumerId := hi
    exact .inl ((inserting_setUpdate hi').resolve_left (by simp [UpdateCall.inserts]))
  | updateChecked id call consumer now owned hget => exact .inl (inserting_nextToken hi)
  | updateRefused id call consumer now owned response hget =>
    exact .inl (inserting_reply response hi)
  | updateAdmitted id call consumer now owned t tokens hget =>
    exact .inl ((inserting_setUpdate hi).resolve_left (by simp [UpdateCall.inserts]))
  | updateConflict id record => exact .inl (inserting_reply .conflict hi)
  | updateNew id call t rest hget htodo hfind =>
    refine (inserting_setUpdate hi).symm.imp_right fun hins => ?_
    simp only [UpdateCall.inserts, htodo, decide_eq_true_eq] at hins
    rw [← hins.1, ← hins.2]
    exact findOne_none hfind
  | updateTainted id call t rest hget hstage htodo =>
    exact .inl (inserting_taint hget hstage htodo hi)
  | updateCreated id call t rest hget hstage htodo =>
    exact .inl ((inserting_setUpdate hi).resolve_left (by simp [UpdateCall.inserts]))
  | updatePublished id call t rest hget hstage htodo =>
    have hi' := inserting_nextToken hi
    exact .inl hi'

/-- The collection changes by a taint, or by a record that somebody was about to insert. -/
theorem tokens_step {a : ApiAction} (hs : s.step env a = some s') :
    s'.tokens = s.tokens ∨ (∃ t, s'.tokens = s.tokens.map (taintOld t)) ∨
      ∃ record, s.Inserting record.tokenId record.consumerId ∧
        s'.tokens = s.tokens ++ [record] := by
  cases step_cases hs with
  | created record hmem =>
    exact .inr (.inr ⟨record, .inl ⟨record, hmem, rfl, rfl⟩, rfl⟩)
  | updateTainted id call t rest hget hstage htodo => exact .inr (.inl ⟨t, rfl⟩)
  | updateCreated id call t rest hget hstage htodo =>
    refine .inr (.inr ⟨t.record, inserting_of_update hget ?_, rfl⟩)
    simp only [UpdateCall.inserts, hstage, htodo, decide_eq_true_eq]
    exact ⟨rfl, rfl⟩
  | updateChecked id call consumer now owned hget => exact .inl (tokens_nextToken s id call)
  | updatePublished id call t rest hget hstage htodo => exact .inl (tokens_nextToken _ id _)
  | checkStarted jwt => exact .inl rfl
  | checkRefused id call consumer now owned status hget => exact .inl rfl
  | checkAdmitted id call consumer now owned payload hget hjwt => exact .inl rfl
  | checkFound id call payload token hget hstage hfind => exact .inl rfl
  | checkInserting id call payload hget hstage => exact .inl rfl
  | checkFailed id call status hget => exact .inl rfl
  | checkAccepted id call payload token hget hstage htaint => exact .inl rfl
  | updateStarted consumer tokens => exact .inl rfl
  | updateRefused id call consumer now owned response hget => exact .inl rfl
  | updateAdmitted id call consumer now owned t tokens hget => exact .inl rfl
  | updateConflict id record => exact .inl rfl
  | updateNew id call t rest hget htodo hfind => exact .inl rfl

/-! ### Sealed tokens -/

/-- Whatever happens, a sealed token stays sealed. -/
theorem Sealed.step (h : s.Sealed tokenId consumerId) {a : ApiAction}
    (hs : s.step env a = some s') : s'.Sealed tokenId consumerId := by
  obtain ⟨old, hold, hkey⟩ := h.known
  have hsettled : ¬s'.Inserting tokenId consumerId := by
    intro hi
    rcases inserting_step hs hi with hi | hmissing
    · exact h.settled hi
    · exact hmissing old hold hkey
  rcases tokens_step hs with ht | ⟨t, ht⟩ | ⟨record, hi, ht⟩
  · exact ⟨ht ▸ h.known, ht ▸ h.tainted, hsettled⟩
  · refine ⟨⟨taintOld t old, ?_, (keyed_taintOld t old).mpr hkey⟩, fun r hr hkeyed => ?_, hsettled⟩
    · rw [ht]
      exact List.mem_map_of_mem hold
    · rw [ht] at hr
      obtain ⟨r, hr', rfl⟩ := List.mem_map.mp hr
      exact (taint_taintOld t r).mpr (.inl (h.tainted r hr' ((keyed_taintOld t r).mp hkeyed)))
  · refine ⟨⟨old, ?_, hkey⟩, fun r hr hkeyed => ?_, hsettled⟩
    · rw [ht]
      exact List.mem_append_left _ hold
    · rw [ht] at hr
      rcases List.mem_append.mp hr with hr | hr
      · exact h.tainted r hr hkeyed
      · rw [List.mem_singleton.mp hr] at hkeyed
        obtain ⟨rfl, rfl⟩ := hkeyed
        exact absurd hi h.settled

/-! ### What the calls of checkClientToken do -/

/-- A step of `checkClientToken`: the call goes on, or answers. -/
structure CheckMoves (env : ApiEnv) (s s' : Api) (id : Nat) (call : CheckCall)
    (stage : CheckStage) : Prop where
  called : s.checks.get id = some call
  checks : s'.checks = s.checks.set id ⟨call.jwt, stage⟩
  responses : s'.checkResponses = s.checkResponses
  moved : ∃ payload,
    env.JwtOf call.jwt payload.tokenId payload.consumerId ∧ stage = .finding payload ∨
    call.stage = .finding payload ∧ ∃ token, stage = .found payload token ∧
      s.findOne payload.tokenId payload.consumerId token = true

structure CheckAnswers (s s' : Api) (id : Nat) (call : CheckCall)
    (response : CheckClientTokenResponse (JWTPayload Json)) : Prop where
  called : s.checks.get id = some call
  checks : s'.checks = s.checks.delete id
  responses : s'.checkResponses = s.checkResponses ++ [(id, call.jwt, response)]
  accepted : ∀ payload, response = .ok payload → ∃ token, call.stage = .found payload token ∧
    ∀ record, token = some record → record.taint = false

lemma checks_nextToken (s : Api) (id : Nat) (call : UpdateCall) :
    (s.nextToken id call).checks = s.checks ∧
      (s.nextToken id call).checkResponses = s.checkResponses ∧
      (s.nextToken id call).nextId = s.nextId := by
  unfold nextToken
  split <;> exact ⟨rfl, rfl, rfl⟩

theorem check_changes {a : ApiAction} (hs : s.step env a = some s') :
    (s'.checks = s.checks ∧ s'.checkResponses = s.checkResponses ∧ s.nextId ≤ s'.nextId) ∨
      (∃ jwt, s' = s.checkStart jwt) ∨
      (s'.nextId = s.nextId ∧ ((∃ id call stage, CheckMoves env s s' id call stage) ∨
        ∃ id call response, CheckAnswers s s' id call response)) := by
  cases step_cases hs with
  | checkStarted jwt => exact .inr (.inl ⟨jwt, rfl⟩)
  | checkRefused id call consumer now owned status hget =>
    exact .inr (.inr ⟨rfl, .inr ⟨id, call, _, hget, rfl, rfl, by simp⟩⟩)
  | checkAdmitted id call consumer now owned payload hget hjwt =>
    exact .inr (.inr ⟨rfl, .inl ⟨id, call, _, hget, rfl, rfl, payload, .inl ⟨hjwt, rfl⟩⟩⟩)
  | checkFound id call payload token hget hstage hfind =>
    exact .inr (.inr ⟨rfl, .inl ⟨id, call, _, hget, rfl, rfl, payload,
      .inr ⟨hstage, token, rfl, hfind⟩⟩⟩)
  | checkInserting id call payload hget hstage =>
    refine .inr (.inr ⟨rfl, .inr ⟨id, call, _, hget, rfl, rfl, fun accepted he => ?_⟩⟩)
    cases he
    exact ⟨none, hstage, by simp⟩
  | checkFailed id call status hget =>
    exact .inr (.inr ⟨rfl, .inr ⟨id, call, _, hget, rfl, rfl, by simp⟩⟩)
  | checkAccepted id call payload token hget hstage htaint =>
    refine .inr (.inr ⟨rfl, .inr ⟨id, call, _, hget, rfl, rfl, fun accepted he => ?_⟩⟩)
    cases he
    refine ⟨some token, hstage, fun record hrec => ?_⟩
    cases hrec
    exact htaint
  | created record hmem => exact .inl ⟨rfl, rfl, Nat.le_refl _⟩
  | updateStarted consumer tokens => exact .inl ⟨rfl, rfl, Nat.le_succ _⟩
  | updateChecked id call consumer now owned hget =>
    obtain ⟨hchecks, hresponses, hnext⟩ := checks_nextToken s id call
    exact .inl ⟨hchecks, hresponses, Nat.le_of_eq hnext.symm⟩
  | updateRefused id call consumer now owned response hget => exact .inl ⟨rfl, rfl, Nat.le_refl _⟩
  | updateAdmitted id call consumer now owned t tokens hget =>
    exact .inl ⟨rfl, rfl, Nat.le_refl _⟩
  | updateConflict id record => exact .inl ⟨rfl, rfl, Nat.le_refl _⟩
  | updateNew id call t rest hget htodo hfind => exact .inl ⟨rfl, rfl, Nat.le_refl _⟩
  | updateTainted id call t rest hget hstage htodo => exact .inl ⟨rfl, rfl, Nat.le_refl _⟩
  | updateCreated id call t rest hget hstage htodo => exact .inl ⟨rfl, rfl, Nat.le_refl _⟩
  | updatePublished id call t rest hget hstage htodo =>
    obtain ⟨hchecks, hresponses, hnext⟩ := checks_nextToken _ id _
    exact .inl ⟨hchecks, hresponses, Nat.le_of_eq hnext.symm⟩

/-- Ids are not used twice. -/
structure Numbered (s : Api) : Prop where
  checks : ∀ id call, s.checks.get id = some call → id < s.nextId
  responses : ∀ r ∈ s.checkResponses, r.1 < s.nextId

lemma numbered_init : init.Numbered where
  checks id call h := by simp [init] at h
  responses r hr := by simp [init] at hr

lemma Numbered.step (h : s.Numbered) {a : ApiAction} (hs : s.step env a = some s') :
    s'.Numbered := by
  rcases check_changes hs with ⟨hc, hr, hn⟩ | ⟨jwt, rfl⟩ | ⟨hn, hmove | hans⟩
  · refine ⟨fun id call hget => ?_, fun r hmem => ?_⟩
    · rw [hc] at hget
      exact Nat.lt_of_lt_of_le (h.checks id call hget) hn
    · rw [hr] at hmem
      exact Nat.lt_of_lt_of_le (h.responses r hmem) hn
  · refine ⟨fun id call hget => ?_, fun r hmem => Nat.lt_succ_of_lt (h.responses r hmem)⟩
    simp only [checkStart, JsMap.get_set] at hget
    split at hget
    · rename_i he
      rw [he]
      exact Nat.lt_succ_self _
    · exact Nat.lt_succ_of_lt (h.checks id call hget)
  · obtain ⟨id, call, stage, hm⟩ := hmove
    refine ⟨fun id' call' hget => ?_, ?_⟩
    · rw [hm.checks, JsMap.get_set] at hget
      rw [hn]
      split at hget
      · rename_i he
        rw [he]
        exact h.checks id call hm.called
      · exact h.checks id' call' hget
    · rw [hm.responses, hn]
      exact h.responses
  · obtain ⟨id, call, response, ha⟩ := hans
    refine ⟨fun id' call' hget => ?_, fun r hmem => ?_⟩
    · rw [ha.checks, JsMap.get_delete] at hget
      rw [hn]
      split at hget
      · cases hget
      · exact h.checks id' call' hget
    · rw [ha.responses] at hmem
      rw [hn]
      rcases List.mem_append.mp hmem with hold | hnew
      · exact h.responses r hold
      · rw [List.mem_singleton.mp hnew]
        exact h.checks id call ha.called

lemma JwtOf.unique {jwt : String} {t t' : TokenId} {c c' : ConsumerId} (h : env.JwtOf jwt t c)
    (h' : env.JwtOf jwt t' c') : t = t' ∧ c = c' := by
  obtain ⟨claims, hp, ht, hc⟩ := h
  obtain ⟨claims', hp', ht', hc'⟩ := h'
  cases Option.some.inj (hp.symm.trans hp')
  exact ⟨Option.some.inj (ht.symm.trans ht'), Json.text.inj (Option.some.inj (hc.symm.trans hc'))⟩

/-- Every running call is about the token of its JWT. -/
def Carried (env : ApiEnv) (s : Api) : Prop :=
  ∀ id call, s.checks.get id = some call → ∀ payload, call.stage = .finding payload ∨
    (∃ token, call.stage = .found payload token) →
      env.JwtOf call.jwt payload.tokenId payload.consumerId

lemma carried_init : init.Carried env := by
  intro id call h
  simp [init] at h

lemma Carried.step (h : s.Carried env) {a : ApiAction} (hs : s.step env a = some s') :
    s'.Carried env := by
  intro id call hget payload hstage
  rcases check_changes hs with ⟨hc, -, -⟩ | ⟨jwt, rfl⟩ | ⟨-, hmove | hans⟩
  · rw [hc] at hget
    exact h id call hget payload hstage
  · simp only [checkStart, JsMap.get_set] at hget
    split at hget
    · cases hget
      simp at hstage
    · exact h id call hget payload hstage
  · obtain ⟨id', call', stage, hm⟩ := hmove
    rw [hm.checks, JsMap.get_set] at hget
    split at hget
    · cases hget
      obtain ⟨accepted, ⟨hjwt, rfl⟩ | ⟨hold, token, rfl, -⟩⟩ := hm.moved
      · simp only [CheckStage.finding.injEq, reduceCtorEq, exists_false, or_false] at hstage
        exact hstage ▸ hjwt
      · simp only [reduceCtorEq, CheckStage.found.injEq, exists_and_left, exists_eq', and_true,
          false_or] at hstage
        exact hstage ▸ h id' call' hm.called accepted (.inl hold)
    · exact h id call hget payload hstage
  · obtain ⟨id', call', response, ha⟩ := hans
    rw [ha.checks, JsMap.get_delete] at hget
    split at hget
    · cases hget
    · exact h id call hget payload hstage

/-- The token is sealed, and the calls numbered from `first` on find that out. -/
structure Refused (env : ApiEnv) (s : Api) (tokenId : TokenId) (consumerId : ConsumerId)
    (first : Nat) : Prop where
  isSealed : s.Sealed tokenId consumerId
  carried : s.Carried env
  found : ∀ id call payload token, s.checks.get id = some call → first ≤ id →
    call.stage = .found payload token → payload.tokenId = tokenId ∧ payload.consumerId = consumerId →
    ∃ record, token = some record ∧ record.taint = true
  responses : ∀ id jwt response, (id, jwt, response) ∈ s.checkResponses → first ≤ id →
    env.JwtOf jwt tokenId consumerId → ∀ payload, response ≠ .ok payload

/-- What a `findOne` for a sealed token can find. -/
lemma Sealed.findOne (h : s.Sealed tokenId consumerId) {token : Option TokenRecord}
    (hf : s.findOne tokenId consumerId token = true) :
    ∃ record, token = some record ∧ record.taint = true := by
  cases token with
  | none =>
    obtain ⟨record, hmem, hkey⟩ := h.known
    exact absurd hkey (findOne_none hf record hmem)
  | some record =>
    simp only [Api.findOne, decide_eq_true_eq] at hf
    exact ⟨record, rfl, h.tainted record hf.1 hf.2⟩

lemma Refused.step {first : Nat} (h : s.Refused env tokenId consumerId first) {a : ApiAction}
    (hs : s.step env a = some s') : s'.Refused env tokenId consumerId first := by
  refine ⟨h.isSealed.step hs, h.carried.step hs, fun id call payload token hget hid hstage hkey => ?_,
    fun id jwt response hmem hid hjwt => ?_⟩
  · rcases check_changes hs with ⟨hc, -, -⟩ | ⟨jwt, rfl⟩ | ⟨-, hmove | hans⟩
    · rw [hc] at hget
      exact h.found id call payload token hget hid hstage hkey
    · simp only [checkStart, JsMap.get_set] at hget
      split at hget
      · cases hget
        cases hstage
      · exact h.found id call payload token hget hid hstage hkey
    · obtain ⟨id', call', stage, hm⟩ := hmove
      rw [hm.checks, JsMap.get_set] at hget
      split at hget
      · cases hget
        obtain ⟨accepted, ⟨-, rfl⟩ | ⟨-, token', rfl, hf⟩⟩ := hm.moved
        · cases hstage
        · cases hstage
          rw [hkey.1, hkey.2] at hf
          exact h.isSealed.findOne hf
      · exact h.found id call payload token hget hid hstage hkey
    · obtain ⟨id', call', response, ha⟩ := hans
      rw [ha.checks, JsMap.get_delete] at hget
      split at hget
      · cases hget
      · exact h.found id call payload token hget hid hstage hkey
  · rcases check_changes hs with ⟨-, hr, -⟩ | ⟨jwt, rfl⟩ | ⟨-, hmove | hans⟩
    · rw [hr] at hmem
      exact h.responses id jwt response hmem hid hjwt
    · exact h.responses id _ response hmem hid hjwt
    · obtain ⟨id', call', stage, hm⟩ := hmove
      rw [hm.responses] at hmem
      exact h.responses id jwt response hmem hid hjwt
    · obtain ⟨id', call', response', ha⟩ := hans
      rw [ha.responses] at hmem
      rcases List.mem_append.mp hmem with hold | hnew
      · exact h.responses id jwt response hold hid hjwt
      · -- the call found an untainted record or none, and so is about another token
        cases List.mem_singleton.mp hnew
        intro payload he
        obtain ⟨token, hstage, huntainted⟩ := ha.accepted payload he
        have hown := h.carried id call' ha.called payload (.inr ⟨token, hstage⟩)
        obtain ⟨record, rfl, htaint⟩ := h.found id call' payload token ha.called hid hstage
          (JwtOf.unique hown hjwt)
        rw [huntainted record rfl] at htaint
        cases htaint

/-! ### What the calls of updateToken leave behind -/

/-- The old tokens that the call is through with are sealed. -/
structure CallSealed (s : Api) (call : UpdateCall) : Prop where
  done : ∀ t ∈ call.done, s.Sealed t.oldTokenId t.consumerId
  head : call.stage = .creating ∨ call.stage = .publishing → ∀ t ∈ call.todo.head?,
    s.Sealed t.oldTokenId t.consumerId

structure Progress (s : Api) : Prop where
  calls : ∀ id call, s.updates.get id = some call → s.CallSealed call
  returned : ∀ t ∈ s.returned, s.Sealed t.oldTokenId t.consumerId

lemma progress_init : init.Progress where
  calls id call h := by simp [init] at h
  returned t ht := by simp [init] at ht

lemma CallSealed.step {call : UpdateCall} (h : s.CallSealed call) {a : ApiAction}
    (hs : s.step env a = some s') : s'.CallSealed call :=
  ⟨fun t ht => (h.done t ht).step hs, fun hstage t ht => (h.head hstage t ht).step hs⟩

/-- Sealed tokens stay sealed, so only the call that has moved has to be looked at. -/
lemma Progress.step_of (h : s.Progress) {a : ApiAction} (hs : s.step env a = some s')
    (hu : ∀ id call, s'.updates.get id = some call → s'.CallSealed call ∨
      s.updates.get id = some call)
    (hr : ∀ t ∈ s'.returned, t ∈ s.returned ∨ s'.Sealed t.oldTokenId t.consumerId) : s'.Progress :=
  ⟨fun id call hget => (hu id call hget).elim (fun hc => hc)
      fun hold => (h.calls id call hold).step hs,
    fun t ht => (hr t ht).elim (fun hold => (h.returned t hold).step hs) fun hc => hc⟩

lemma get_setUpdate {id id' : Nat} {call call' : UpdateCall}
    (h : (s.setUpdate id call).updates.get id' = some call') :
    call' = call ∨ s.updates.get id' = some call' := by
  simp only [setUpdate, JsMap.get_set] at h
  split at h
  · exact .inl (Option.some.inj h).symm
  · exact .inr h

lemma get_reply {id id' : Nat} (response : UpdateTokenResponse) {call' : UpdateCall}
    (h : (s.reply id response).updates.get id' = some call') : s.updates.get id' = some call' := by
  simp only [reply, JsMap.get_delete] at h
  split at h
  · cases h
  · exact h

/-- The call goes on to its next token, or the request returns. -/
lemma nextToken_spec (s : Api) (id : Nat) (call : UpdateCall) :
    (∀ id' call', (s.nextToken id call).updates.get id' = some call' →
      call' = { call with stage := .finding } ∨ s.updates.get id' = some call') ∧
      ∀ t ∈ (s.nextToken id call).returned, t ∈ s.returned ∨ t ∈ call.done := by
  unfold nextToken
  split
  · refine ⟨fun id' call' hget => .inr (get_reply .ok hget), fun t ht => ?_⟩
    exact List.mem_append.mp ht
  · exact ⟨fun id' call' hget => get_setUpdate hget, fun t ht => .inl ht⟩

/-- `updateMany` seals the old token. -/
lemma sealed_of_taint {id : Nat} {call : UpdateCall} {t : ParsedToken} {rest : List ParsedToken}
    (hget : s.updates.get id = some call) (hstage : call.stage = .tainting)
    (htodo : call.todo = t :: rest) (hok : s.TaintOk (.updateTaint id)) :
    (({ s with tokens := s.tokens.map (taintOld t) } : Api).setUpdate id
      { call with stage := .creating }).Sealed t.oldTokenId t.consumerId := by
  obtain ⟨⟨record, hrec, hkey⟩, hsettled⟩ := hok call hget t (by simp [htodo])
  refine ⟨⟨taintOld t record, List.mem_map_of_mem hrec, (keyed_taintOld t record).mpr hkey⟩,
    fun r hr hkeyed => ?_, fun hi => hsettled (inserting_taint hget hstage htodo hi)⟩
  obtain ⟨old, hold, rfl⟩ := List.mem_map.mp hr
  exact (taint_taintOld t old).mpr (.inr ((keyed_taintOld t old).mp hkeyed))

/-- A call on the way to its next token has no obligation for that token yet. -/
lemma CallSealed.restage {call : UpdateCall} (h : s.CallSealed call) {stage : UpdateStage}
    (hs : stage ≠ .creating ∧ stage ≠ .publishing) (todo : List ParsedToken) :
    s.CallSealed { call with todo := todo, stage := stage } :=
  ⟨h.done, fun hstage => (hstage.elim hs.1 hs.2).elim⟩

lemma Progress.of_same (h : s.Progress) {a : ApiAction} (hs : s.step env a = some s')
    (hu : s'.updates = s.updates) (hr : s'.returned = s.returned) : s'.Progress := by
  refine h.step_of hs (fun id call hget => ?_) fun t ht => ?_
  · rw [hu] at hget
    exact .inr hget
  · rw [hr] at ht
    exact .inl ht

/-- A call answers without a result. -/
lemma Progress.of_reply (h : s.Progress) {a : ApiAction} {id : Nat} {response : UpdateTokenResponse}
    (hs : s.step env a = some (s.reply id response)) : (s.reply id response).Progress :=
  h.step_of hs (fun _ _ hget => .inr (get_reply response hget)) fun _ ht => .inl ht

lemma Progress.of_setUpdate (h : s.Progress) {u : Api} {a : ApiAction} {id : Nat} {call : UpdateCall}
    (hs : s.step env a = some (u.setUpdate id call)) (hu : u.updates = s.updates)
    (hr : u.returned = s.returned) (hcall : (u.setUpdate id call).CallSealed call) :
    (u.setUpdate id call).Progress := by
  refine h.step_of hs (fun id' call' hget => ?_) fun t ht => .inl (hr ▸ ht)
  rcases get_setUpdate hget with rfl | hold
  · exact .inl hcall
  · rw [hu] at hold
    exact .inr hold

lemma Progress.of_nextToken (h : s.Progress) {u : Api} {a : ApiAction} {id : Nat} {call : UpdateCall}
    (hs : s.step env a = some (u.nextToken id call)) (hu : u.updates = s.updates)
    (hr : u.returned = s.returned)
    (hdone : ∀ t ∈ call.done, (u.nextToken id call).Sealed t.oldTokenId t.consumerId) :
    (u.nextToken id call).Progress := by
  obtain ⟨hcalls, hret⟩ := nextToken_spec u id call
  rw [hu] at hcalls
  rw [hr] at hret
  refine h.step_of hs (fun id' call' hget => ?_) fun t ht => (hret t ht).imp_right (hdone t)
  rcases hcalls id' call' hget with rfl | hold
  · exact .inl ⟨hdone, by simp⟩
  · exact .inr hold

lemma Progress.step (h : s.Progress) {a : ApiAction} (hok : s.TaintOk a)
    (hs : s.step env a = some s') : s'.Progress := by
  -- what the calls have sealed before stays sealed
  have hcalls : ∀ {id call}, s.updates.get id = some call → s'.CallSealed call :=
    fun hget => (h.calls _ _ hget).step hs
  cases step_cases hs with
  | checkStarted jwt => exact h.of_same hs rfl rfl
  | checkRefused id call consumer now owned status hget => exact h.of_same hs rfl rfl
  | checkAdmitted id call consumer now owned payload hget hjwt => exact h.of_same hs rfl rfl
  | checkFound id call payload token hget hstage hfind => exact h.of_same hs rfl rfl
  | checkInserting id call payload hget hstage => exact h.of_same hs rfl rfl
  | checkFailed id call status hget => exact h.of_same hs rfl rfl
  | checkAccepted id call payload token hget hstage htaint => exact h.of_same hs rfl rfl
  | created record hmem => exact h.of_same hs rfl rfl
  | updateStarted consumer tokens =>
    exact h.of_setUpdate (u := { s with nextId := s.nextId + 1 }) hs rfl rfl ⟨by simp, by simp⟩
  | updateChecked id call consumer now owned hget =>
    exact h.of_nextToken hs rfl rfl (hcalls hget).done
  | updateRefused id call consumer now owned response hget => exact h.of_reply hs
  | updateAdmitted id call consumer now owned t tokens hget =>
    exact h.of_setUpdate hs rfl rfl ((hcalls hget).restage (by simp) _)
  | updateConflict id record => exact h.of_reply hs
  | updateNew id call t rest hget htodo hfind =>
    exact h.of_setUpdate hs rfl rfl ((hcalls hget).restage (by simp) _)
  | updateTainted id call t rest hget hstage htodo =>
    refine h.of_setUpdate hs rfl rfl ⟨(hcalls hget).done, fun _ t' ht' => ?_⟩
    simp only [htodo, List.head?_cons, Option.mem_def, Option.some.injEq] at ht'
    subst ht'
    exact sealed_of_taint hget hstage htodo hok
  | updateCreated id call t rest hget hstage htodo =>
    exact h.of_setUpdate hs rfl rfl ⟨(hcalls hget).done, fun _ => (hcalls hget).head (.inl hstage)⟩
  | updatePublished id call t rest hget hstage htodo =>
    refine h.of_nextToken hs rfl rfl fun t' ht' => ?_
    rcases List.mem_append.mp ht' with hold | hnew
    · exact (hcalls hget).done t' hold
    · rw [List.mem_singleton.mp hnew]
      exact (hcalls hget).head (.inr hstage) t (by simp [htodo])

/-- In runs whose `updateMany` finds a record of the old token and meets no insertion of one,
a check that starts after the request has returned does not accept the old token any more,
whatever follows. -/
theorem revocation_permanent (env : ApiEnv) (as later : List ApiAction) (s s' : Api)
    (hrun : Stepper.run (step env) init as = some s)
    (hok : Stepper.Guarded (step env) TaintOk init as)
    (hlater : Stepper.run (step env) s later = some s') :
    ∀ t ∈ s.returned, ∀ id jwt response, (id, jwt, response) ∈ s'.checkResponses → s.nextId ≤ id →
      env.JwtOf jwt t.oldTokenId t.consumerId → ∀ payload, response ≠ .ok payload := by
  have hinv := Stepper.run_invariant (fun s : Api => s.Numbered ∧ s.Carried env ∧ s.Progress)
    (fun s a s' h hg hs => ⟨h.1.step hs, h.2.1.step hs, h.2.2.step hg hs⟩)
    hrun hok ⟨numbered_init, carried_init, progress_init⟩
  obtain ⟨hnum, hcarried, hprogress⟩ := hinv
  intro t ht
  have hstart : s.Refused env t.oldTokenId t.consumerId s.nextId := by
    refine ⟨hprogress.returned t ht, hcarried, fun id call payload token hget hid => ?_,
      fun id jwt response hmem hid => ?_⟩
    · exact absurd (hnum.checks id call hget) (Nat.not_lt.mpr hid)
    · exact absurd (hnum.responses _ hmem) (Nat.not_lt.mpr hid)
  exact (Stepper.run_invariant_of_step (fun s : Api => s.Refused env t.oldTokenId t.consumerId _)
    (fun _ _ _ h hs => h.step hs) hlater hstart).responses

/-! ### Concrete runs -/

/-- One JWT for the update "old" to "new", any other text being a JWT of "old". -/
def twoTokens : ApiEnv where
  parseJWT jwt := some ⟨some (if jwt = "update" then "new" else "old"), some (.text "consumer"),
    some "user", some (.time 10), some (.array []), if jwt = "update" then some "old" else none⟩
  verify _ _ := true
  ttl := 100

def oldPayload : JWTPayload Json := ⟨"old", "consumer", "user", some (.time 10), .array []⟩

def updatePayload : ParsedToken :=
  ⟨"update", ⟨"new", "consumer", "user", some (.time 10), .array []⟩, "old"⟩

/-- `checkClientToken` of "old" from its start to its answer. -/
def checkOld (id : Nat) (token : Option TokenRecord) : List ApiAction :=
  [.checkStart "old", .checkAdmit id (some ⟨"consumer", "key"⟩) 0 0, .checkFind id token,
    .checkFinish id]

/-- `updateToken` of "old" to "new" from its start to its answer. -/
def updateOld (id : Nat) : List ApiAction :=
  [.updateStart "consumer" ["update"], .updateAdmit id (some ⟨"consumer", "key"⟩) 0 0,
    .updateAdmit id none 0 0, .updateFind id none, .updateTaint id, .updateCreate id,
    .updatePublish id]

/-- The old token has been presented and its record is there when it is updated. -/
theorem revocation_permanent_after_insertion :
    ∃ s s', Stepper.run (step twoTokens) init
        (checkOld 0 none ++ [.created (recordOf oldPayload)] ++ updateOld 1) = some s ∧
      Stepper.run (step twoTokens) s
        (checkOld 2 (some { recordOf oldPayload with taint := true })) = some s' ∧
      (2, "old", .ok oldPayload) ∉ s'.checkResponses := by
  obtain ⟨s, s', hrun, hlater, hret, hnext⟩ : ∃ s s', Stepper.run (step twoTokens) init
        (checkOld 0 none ++ [.created (recordOf oldPayload)] ++ updateOld 1) = some s ∧
      Stepper.run (step twoTokens) s
        (checkOld 2 (some { recordOf oldPayload with taint := true })) = some s' ∧
      updatePayload ∈ s.returned ∧ s.nextId = 2 := ⟨_, _, rfl, rfl, by decide, rfl⟩
  refine ⟨s, s', hrun, hlater, fun hmem => ?_⟩
  exact revocation_permanent twoTokens _ _ s s' hrun (by decide) hlater updatePayload hret 2 "old"
    _ hmem (Nat.le_of_eq hnext) ⟨_, rfl, rfl, rfl⟩ oldPayload rfl

/-- The old token was never presented before its update, so there is no record to taint. -/
theorem revoked_token_accepted :
    ¬∀ (env : ApiEnv) (as later : List ApiAction) (s s' : Api),
      Stepper.run (step env) init as = some s → Stepper.run (step env) s later = some s' →
        ∀ t ∈ s.returned, ∀ id jwt response, (id, jwt, response) ∈ s'.checkResponses →
          s.nextId ≤ id → env.JwtOf jwt t.oldTokenId t.consumerId →
            ∀ payload, response ≠ .ok payload := by
  intro h
  exact h twoTokens (updateOld 0) (checkOld 1 none) _ _ rfl rfl updatePayload (by decide) 1 "old"
    (.ok oldPayload) (by decide) (by decide) ⟨_, rfl, rfl, rfl⟩ oldPayload rfl

end Api

end AlaFois
