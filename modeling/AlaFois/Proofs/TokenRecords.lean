import AlaFois.Proofs.Permanence

/-!
# One record per token

`checkClientToken` and `updateToken` look for the record of a token and insert one if there is
none. The index of the collection is not a unique one, so that nothing but their order keeps two
calls that have both found nothing from inserting a record each.
-/

namespace AlaFois.Api

variable {env : ApiEnv} {s s' : Api} {tokenId : TokenId} {consumerId : ConsumerId}

/-- At most one record for each pair. -/
def UniqueRecords (s : Api) : Prop :=
  ∀ tokenId consumerId, s.tokens.countP (fun record => record.Keyed tokenId consumerId) ≤ 1

/-- No call is in progress. -/
def Idle (s : Api) : Prop := s.creates = [] ∧ s.checks = .empty ∧ s.updates = .empty

/-- When a record is inserted, no other call has found its pair missing and is still to insert. -/
def InsertsAlone (s : Api) : ApiAction → Prop
  | .created record =>
    ¬{ s with creates := s.creates.erase record }.Inserting record.tokenId record.consumerId
  | .updateCreate id => ∀ call ∈ s.updates.get id, ∀ t ∈ call.todo.head?,
      ¬{ s with updates := s.updates.delete id }.Inserting t.tokenId t.consumerId
  | _ => True

instance (s : Api) (a : ApiAction) : Decidable (s.InsertsAlone a) := by
  unfold InsertsAlone
  split <;> infer_instance

/-- A pair for which an insertion is under way has no record yet. -/
structure OneRecord (s : Api) : Prop where
  unique : s.UniqueRecords
  missing : ∀ tokenId consumerId, s.Inserting tokenId consumerId →
    ∀ record ∈ s.tokens, ¬record.Keyed tokenId consumerId

lemma Idle.not_inserting (h : s.Idle) : ¬s.Inserting tokenId consumerId := by
  rintro (⟨record, hmem, -⟩ | ⟨e, hmem, -⟩ | ⟨e, hmem, -⟩)
  · rw [h.1] at hmem
    cases hmem
  · rw [h.2.1] at hmem
    cases hmem
  · rw [h.2.2] at hmem
    cases hmem

lemma OneRecord.of_idle (h : s.Idle) (hu : s.UniqueRecords) : s.OneRecord :=
  ⟨hu, fun _ _ hi => absurd hi h.not_inserting⟩

/-- A call that goes on is the only one that changes. -/
lemma inserting_setUpdate_delete {id : Nat} {call : UpdateCall}
    (h : (s.setUpdate id call).Inserting tokenId consumerId) :
    call.inserts tokenId consumerId = true ∨
      { s with updates := s.updates.delete id }.Inserting tokenId consumerId := by
  rcases h with h | h | ⟨e, hmem, hins⟩
  · exact .inr (.inl h)
  · exact .inr (.inr (.inl h))
  · have hget := (JsMap.mem_entries_iff _ _ _).mp hmem
    by_cases hid : e.1 = id
    · rw [setUpdate, hid, JsMap.get_set_self] at hget
      cases hget
      exact .inl hins
    · rw [setUpdate, JsMap.get_set_ne _ _ hid, ← JsMap.get_delete_ne _ hid] at hget
      exact .inr (.inr (.inr ⟨e, (JsMap.mem_entries_iff _ _ _).mpr hget, hins⟩))

/-- After an insertion that meets the condition nobody is to insert another record. -/
lemma inserted_alone {a : ApiAction} {record : TokenRecord} (hs : s.step env a = some s')
    (hg : s.InsertsAlone a) (ht : s'.tokens = s.tokens ++ [record]) :
    ¬s'.Inserting record.tokenId record.consumerId := by
  have hlonger : s'.tokens.length ≠ s.tokens.length := by simp [ht]
  cases step_cases hs with
  | created r hmem =>
    obtain rfl : r = record := by simpa using ht
    exact hg
  | updateCreated id call t rest hget hstage htodo =>
    have hrecord : t.record = record := by simpa [setUpdate] using ht
    rw [← hrecord]
    intro hi
    rcases inserting_setUpdate_delete hi with hins | hi
    · simp [UpdateCall.inserts] at hins
    · exact hg call hget t (by simp [htodo]) hi
  | updateTainted id call t rest hget hstage htodo => exact absurd (List.length_map _) hlonger
  | updateChecked id call consumer now owned hget =>
    exact absurd (congrArg List.length (tokens_nextToken s id call)) hlonger
  | updatePublished id call t rest hget hstage htodo =>
    exact absurd (congrArg List.length (tokens_nextToken _ id _)) hlonger
  | _ => exact absurd rfl hlonger

lemma OneRecord.step (h : s.OneRecord) {a : ApiAction} (hg : s.InsertsAlone a)
    (hs : s.step env a = some s') : s'.OneRecord := by
  have hmissing {tokenId consumerId} (hi : s'.Inserting tokenId consumerId) :
      ∀ record ∈ s.tokens, ¬record.Keyed tokenId consumerId :=
    (inserting_step hs hi).elim (h.missing tokenId consumerId) id
  rcases tokens_step hs with ht | ⟨t, ht⟩ | ⟨record, hi, ht⟩
  · refine ⟨fun t c => ?_, fun t c hi => ?_⟩
    · rw [ht]
      exact h.unique t c
    · rw [ht]
      exact hmissing hi
  · refine ⟨fun tokenId consumerId => ?_, fun tokenId consumerId hi record hmem => ?_⟩
    · rw [ht, List.countP_map]
      have hkeyed : (fun record : TokenRecord => decide (record.Keyed tokenId consumerId)) ∘
          taintOld t = fun record => decide (record.Keyed tokenId consumerId) := by
        funext record
        simp [keyed_taintOld]
      rw [hkeyed]
      exact h.unique tokenId consumerId
    · rw [ht] at hmem
      obtain ⟨old, hold, rfl⟩ := List.mem_map.mp hmem
      rw [keyed_taintOld]
      exact hmissing hi old hold
  · refine ⟨fun tokenId consumerId => ?_, fun tokenId consumerId hi' r hmem hkey => ?_⟩
    · rw [ht, List.countP_append, List.countP_singleton]
      by_cases hkey : record.Keyed tokenId consumerId
      · -- the inserted record is the first of its pair
        obtain ⟨rfl, rfl⟩ := hkey
        have hnone : s.tokens.countP (fun r => r.Keyed record.tokenId record.consumerId) = 0 := by
          rw [List.countP_eq_zero]
          intro r hr
          simpa using h.missing _ _ hi r hr
        rw [hnone]
        split <;> omega
      · simpa [hkey] using h.unique tokenId consumerId
    · rw [ht] at hmem
      rcases List.mem_append.mp hmem with hold | hnew
      · exact hmissing hi' r hold hkey
      · rw [List.mem_singleton.mp hnew] at hkey
        obtain ⟨rfl, rfl⟩ := hkey
        exact inserted_alone hs hg ht hi'

/-- If every record is inserted while no other call is about to insert one of its pair, then at
every moment there is at most one record for each pair. -/
theorem records_unique {s₀ : Api} {as : List ApiAction} (hidle : s₀.Idle)
    (hunique : s₀.UniqueRecords) (halone : Stepper.Guarded (step env) InsertsAlone s₀ as) :
    ∀ bs, bs <+: as → ∀ s, Stepper.run (step env) s₀ bs = some s → s.UniqueRecords := by
  rintro bs ⟨cs, rfl⟩ s hrun
  have hguard := ((Stepper.guarded_append hrun).mp halone).1
  exact (Stepper.run_invariant OneRecord (fun _ _ _ h hg hs => h.step hg hs) hrun hguard
    (.of_idle hidle hunique)).unique

/-- The tokens "old" and "new" are checked at the same time, then "old" once more. -/
def checkBoth : List ApiAction :=
  [.checkStart "old", .checkStart "update", .checkAdmit 0 (some ⟨"consumer", "key"⟩) 0 0,
    .checkAdmit 1 (some ⟨"consumer", "key"⟩) 0 0, .checkFind 0 none, .checkFind 1 none,
    .checkFinish 1, .checkFinish 0, .created (recordOf oldPayload), .created updatePayload.record] ++
      checkOld 2 (some (recordOf oldPayload))

theorem records_unique_in_turn : ∃ s, Stepper.run (step twoTokens) init checkBoth = some s ∧
    s.tokens = [recordOf oldPayload, updatePayload.record] ∧ s.UniqueRecords := by
  obtain ⟨s, hrun, htokens⟩ : ∃ s, Stepper.run (step twoTokens) init checkBoth = some s ∧
    s.tokens = [recordOf oldPayload, updatePayload.record] := ⟨_, rfl, rfl⟩
  exact ⟨s, hrun, htokens, records_unique ⟨rfl, rfl, rfl⟩ (fun _ _ => by simp [init]) (by decide) _
    List.prefix_rfl s hrun⟩

/-- Both checks look for the record before either of them has inserted it. -/
theorem records_duplicated :
    ¬∀ (env : ApiEnv) (s₀ s : Api) (as : List ApiAction), s₀.Idle → s₀.UniqueRecords →
      Stepper.run (step env) s₀ as = some s → s.UniqueRecords := by
  intro h
  obtain ⟨s, hrun⟩ : ∃ s, Stepper.run (step twoTokens) init
      [.checkStart "old", .checkStart "old", .checkAdmit 0 (some ⟨"consumer", "key"⟩) 0 0,
        .checkAdmit 1 (some ⟨"consumer", "key"⟩) 0 0, .checkFind 0 none, .checkFind 1 none,
        .checkFinish 0, .checkFinish 1, .created (recordOf oldPayload),
        .created (recordOf oldPayload)] = some s := ⟨_, rfl⟩
  have hcount := h twoTokens init s _ ⟨rfl, rfl, rfl⟩ (fun _ _ => by simp [init]) hrun
    "old" "consumer"
  revert hcount
  cases hrun
  decide

end AlaFois.Api
