import AlaFois.Lib.Stepper
import AlaFois.Model.DocClient

/-!
# The answers to getDoc

A pending call is settled by the first `joinResponse` that arrives, so that it gets its own answer
exactly when no other document's comes first.
-/

namespace AlaFois

open Stepper

/-- The document and the status of a `joinResponse`. -/
def ClientEvent.joinResponse : ClientEvent → Option (DocKey × Status)
  | .message (.joinResponse docId status) => some (docId, status)
  | _ => none

namespace DocClient

/-- The responses among the events, in the order of their arrival. -/
def joinResponses (events : List ClientEvent) : List (DocKey × Status) :=
  events.filterMap ClientEvent.joinResponse

/-- What a call is to come to with the response that answers it. -/
def answered : Option (DocKey × Status) → CallState
  | none => .pending
  | some (_, status) => .ofStatus status

/-- The answer to a call for the document: the first response that names it. -/
def answerFor (id : DocKey) (events : List ClientEvent) : CallState :=
  answered ((joinResponses events).find? (·.1 = id))

def getDocState (s : DocClient) (n : Nat) : Option CallState :=
  (s.getDocs[n]?).map GetDocCall.state

lemma ofStatus_ne_pending (status : Status) : CallState.ofStatus status ≠ .pending := by
  cases status <;> simp [CallState.ofStatus]

variable {s t : DocClient}

/-- What an event does to a call that has been made. -/
lemma getDocState_step {e : ClientEvent} (h : s.step e = some t) {n : Nat} {state : CallState}
    (hn : s.getDocState n = some state) :
    t.getDocState n = some (match e.joinResponse with
      | some (_, status) => state.settle status
      | none => if e = .getDocTimeout n then state.timeout else state) := by
  unfold getDocState at hn ⊢
  obtain ⟨call, hcall, rfl⟩ := Option.map_eq_some_iff.mp hn
  have hlt : n < s.getDocs.length := (List.getElem?_eq_some_iff.mp hcall).1
  cases e with
  | getDoc id =>
    cases h
    have hold : (s.getDoc id).1.getDocs[n]? = some call := by
      unfold getDoc
      split
      · rw [List.getElem?_append_left hlt, hcall]
      · rw [List.getElem?_append_left hlt, hcall]
    simp [hold, ClientEvent.joinResponse]
  | setToken token =>
    cases h
    simp [setToken, hcall, ClientEvent.joinResponse]
  | disposeDocs =>
    cases h
    simp [disposeDocs, hcall, ClientEvent.joinResponse]
  | message m =>
    cases h
    cases m with
    | joinResponse docId status =>
      simp [onMessage, onJoinResponse, hcall, ClientEvent.joinResponse]
    | setTokenResponse status =>
      simp [onMessage, onSetTokenResponse, hcall, ClientEvent.joinResponse]
    | _ => simp [onMessage, hcall, ClientEvent.joinResponse]
  | getDocTimeout k =>
    simp only [step, Option.ite_none_right_eq_some, Option.some.injEq] at h
    obtain ⟨-, rfl⟩ := h
    by_cases hk : k = n
    · subst hk
      simp [hcall, ClientEvent.joinResponse]
    · simp [hcall, hk, ClientEvent.joinResponse]
  | setTokenTimeout k =>
    simp only [step, Option.ite_none_right_eq_some, Option.some.injEq] at h
    obtain ⟨-, rfl⟩ := h
    simp [hcall, ClientEvent.joinResponse]

/-- A settled call stays as it is. -/
lemma getDocState_of_settled {n : Nat} {state : CallState} (hstate : state ≠ .pending)
    {events : List ClientEvent} (hrun : run step s events = some t)
    (hn : s.getDocState n = some state) : t.getDocState n = some state := by
  refine run_invariant_of_step (fun u => u.getDocState n = some state) ?_ hrun hn
  intro u e v hu hv
  rw [getDocState_step hv hu]
  cases e.joinResponse with
  | some response => exact congrArg some (CallState.settle_of_ne_pending hstate _)
  | none => simp [CallState.timeout, CallState.settle_of_ne_pending hstate]

/-- A pending call gets the first response that arrives. -/
lemma getDocState_of_pending {n : Nat} {events : List ClientEvent}
    (hrun : run step s events = some t) (htime : .getDocTimeout n ∉ events)
    (hn : s.getDocState n = some .pending) :
    t.getDocState n = some (answered (joinResponses events).head?) := by
  induction events generalizing s with
  | nil =>
    cases hrun
    exact hn
  | cons e events ih =>
    obtain ⟨u, hu, hrun⟩ := run_cons_eq_some.mp hrun
    obtain ⟨htime, hrest⟩ : .getDocTimeout n ≠ e ∧ .getDocTimeout n ∉ events := by
      simpa using htime
    have hstep := getDocState_step hu hn
    cases hresponse : e.joinResponse with
    | none =>
      simp only [hresponse, if_neg (Ne.symm htime)] at hstep
      rw [ih hrun hrest hstep, joinResponses, joinResponses, List.filterMap_cons_none hresponse]
    | some response =>
      simp only [hresponse, CallState.settle] at hstep
      rw [getDocState_of_settled (ofStatus_ne_pending _) hrun hstep, joinResponses,
        List.filterMap_cons_some hresponse]
      rfl

/-- A new call sends its join and waits. -/
lemma getDocState_getDoc {id : DocKey} (hnew : id ∉ s.docs) (hown : id ∉ inheritedNames) :
    (s.getDoc id).1.getDocState s.getDocs.length = some .pending := by
  simp [getDocState, getDoc, hnew, hown]

/-- At every moment before its timeout, a call has come to what the first response for its own
document says, exactly when the first response of all, if there is one, is for this document. -/
theorem getDoc_answer_iff {after : List ClientEvent} {s₀ s : DocClient} {id : DocKey}
    (hnew : id ∉ s₀.docs) (hown : id ∉ inheritedNames)
    (hafter : run step (s₀.getDoc id).1 after = some s)
    (htime : .getDocTimeout s₀.getDocs.length ∉ after) :
    (∀ events, events <+: after → ∀ t, run step (s₀.getDoc id).1 events = some t →
        t.getDocState s₀.getDocs.length = some (answerFor id events)) ↔
      ∀ docId status, (joinResponses after).head? = some (docId, status) → docId = id := by
  have hpending := getDocState_getDoc hnew hown
  constructor
  · intro hall docId status hhead
    obtain ⟨rest, hfirst⟩ := List.head?_eq_some_iff.mp hhead
    obtain ⟨pre, e, post, hafter', hpre, he, -⟩ := List.filterMap_eq_cons_iff.mp hfirst
    by_contra hne
    -- just after the first response, the call is settled and its own answer is still to come
    have hresponses : joinResponses (pre ++ [e]) = [(docId, status)] := by
      rw [joinResponses, List.filterMap_append, List.filterMap_eq_nil_iff.mpr hpre,
        List.filterMap_cons_some he]
      rfl
    have hbegin : pre ++ [e] <+: after := ⟨post, by simp [hafter']⟩
    obtain ⟨t, ht⟩ := run_initial hafter hbegin
    have htime' : .getDocTimeout s₀.getDocs.length ∉ pre ++ [e] := fun hin =>
      htime (hbegin.subset hin)
    have hstate := getDocState_of_pending ht htime' hpending
    rw [hall _ hbegin t ht, answerFor, hresponses] at hstate
    simp only [List.find?_cons, hne, decide_false, List.find?_nil, answered, List.head?_cons,
      Option.some.injEq] at hstate
    exact ofStatus_ne_pending status hstate.symm
  · intro hfirst events hbegin t ht
    have htime' : .getDocTimeout s₀.getDocs.length ∉ events := fun hin =>
      htime (hbegin.subset hin)
    rw [getDocState_of_pending ht htime' hpending, answerFor]
    obtain ⟨rest, hrest⟩ := hbegin.filterMap ClientEvent.joinResponse
    cases hresponses : joinResponses events with
    | nil => rfl
    | cons response responses =>
      have hhead : (joinResponses after).head? = some response := by
        rw [joinResponses, ← hrest, ← joinResponses, hresponses]
        rfl
      have hid : response.1 = id := hfirst response.1 response.2 hhead
      simp [hid]

/-- The answer for one document resolves the call for another, which the server refuses. -/
theorem other_answer_taken :
    ¬∀ (before after events : List ClientEvent) (s₀ s t : DocClient) (id : DocKey),
      run step init before = some s₀ → id ∉ s₀.opening → id ∉ s₀.docs → id ∉ inheritedNames →
      run step (s₀.getDoc id).1 after = some s →
      .getDocTimeout s₀.getDocs.length ∉ after → events <+: after →
      run step (s₀.getDoc id).1 events = some t →
      t.getDocState s₀.getDocs.length = some (answerFor id events) := by
  intro h
  have hmixed := h [.getDoc "a"] [.message (.joinResponse "a" .ok),
    .message (.joinResponse "b" (.err "Unauthorized"))] _ _ _ _ "b" rfl (by decide) (by decide)
    (by decide) rfl (by decide) List.prefix_rfl rfl
  revert hmixed
  decide

/-- The document asked for last is answered first, while another call is pending. -/
theorem getDoc_answered_in_turn :
    ∃ s₀ s, run step init [.getDoc "a"] = some s₀ ∧ s₀.opening = ["a"] ∧
      run step (s₀.getDoc "b").1 [.message (.joinResponse "b" (.err "Unauthorized")),
        .message (.joinResponse "a" .ok)] = some s ∧
      ∀ events, events <+: [.message (.joinResponse "b" (.err "Unauthorized")),
          .message (.joinResponse "a" .ok)] → ∀ t,
        run step (s₀.getDoc "b").1 events = some t →
          t.getDocState s₀.getDocs.length = some (answerFor "b" events) := by
  obtain ⟨s₀, hbefore⟩ : ∃ s₀, run step init [.getDoc "a"] = some s₀ := ⟨_, rfl⟩
  obtain ⟨s, hafter⟩ : ∃ s, run step (s₀.getDoc "b").1
      [.message (.joinResponse "b" (.err "Unauthorized")),
        .message (.joinResponse "a" .ok)] = some s := ⟨_, rfl⟩
  have hopening : s₀.opening = ["a"] := by
    cases hbefore
    rfl
  have hnew : "b" ∉ s₀.docs := by
    cases hbefore
    decide
  refine ⟨s₀, s, hbefore, hopening, hafter,
    (getDoc_answer_iff hnew (by decide) hafter (by simp)).mpr ?_⟩
  simp [joinResponses, ClientEvent.joinResponse]

end DocClient

end AlaFois
