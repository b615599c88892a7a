import AlaFois.Proofs.ProxyInvariants

/-!
# Members and read access

Whether every member of a document may read it. Joining checks this; the other operations
replace the rights of connections that are already members, and have to mend the membership.
`ReadOk` is what they need for it, and turns out to be exact.
-/

namespace AlaFois

open DocService

def letsRead (access : Access) (d : DocKey) : Bool :=
  match access.get d with
  | none => false
  | some data => Right.read ∈ data.rights

/-- Both tables list the document, the new one without rights. -/
def emptied (rights newRights : Access) (d : DocKey) : Bool :=
  match rights.get d, newRights.get d with
  | some _, some new => new.rights = []
  | _, _ => false

/-- The new table lists the document, the old one does not or has no rights to it. -/
def gained (rights newRights : Access) (d : DocKey) : Bool :=
  match rights.get d, newRights.get d with
  | none, some _ => true
  | some old, some new => old.rights = [] ∧ new.rights ≠ []
  | _, none => false

lemma key_mem_updateDiff (rights : Access) (m : UpdateTokenMessage) (d : DocKey) :
    .key d ∈ (Proxy.updateDiff rights m).removed ↔
      emptied rights (createAccessObject m.docs) d = true := by
  unfold Proxy.updateDiff emptied
  rw [key_mem_removed_iff]
  cases hold : rights.get d <;> cases hnew : (createAccessObject m.docs).get d <;> simp

lemma mem_added_updateDiff (rights : Access) (m : UpdateTokenMessage) (d : DocKey) :
    d ∈ (Proxy.updateDiff rights m).added.map AccessData.id ↔
      gained rights (createAccessObject m.docs) d = true := by
  have hmem : d ∈ (Proxy.updateDiff rights m).added.map AccessData.id ↔
      ∃ a, (createAccessObject m.docs).get d = some a ∧ (rights.get d = none ∨
        ∃ old, rights.get d = some old ∧ a.rights ≠ [] ∧ old.rights = []) := by
    unfold Proxy.updateDiff
    simp only [List.mem_map, mem_added_iff, true_and]
    constructor
    · rintro ⟨a, ⟨d', hnew, hold⟩, rfl⟩
      rw [createAccessObject_id m.docs hnew]
      exact ⟨a, hnew, hold⟩
    · rintro ⟨a, hnew, hold⟩
      exact ⟨a, ⟨d, hnew, hold⟩, createAccessObject_id m.docs hnew⟩
  rw [hmem]
  unfold gained
  cases hold : rights.get d <;> cases hnew : (createAccessObject m.docs).get d <;> simp [and_comm]

namespace Proxy

/-- Every member of a document may read it, or the document is public. -/
def MembersMayRead (isPublic : DocKey → Bool) (p : Proxy) : Prop :=
  ∀ d c, p.docService.Holds d c → (p.conns c).access.any (letsRead · d) ∨ isPublic d

/-- The new token lets the connection read every document that the index does not have; and an
update empties every document of a connection that the new token does not let it read, and
gains only documents that it does. -/
def ReadOk (isPublic : DocKey → Bool) (p : Proxy) : ProxyOp → Prop
  | .onSetToken c (.ok payload) => ∀ d ∈ p.docService.held c,
      (∃ doc ∈ p.docService.joined c, p.docService.docs.get d = some doc) ∨
        letsRead (createAccessObject payload.docs) d ∨ isPublic d
  | .onUpdateTokenMessage m =>
    ∀ cs ∈ p.tokenConnections.get m.oldTokenId, ∀ rights ∈ p.firstAccess cs,
      (∀ c ∈ cs, ∀ d ∈ p.docService.held c, emptied rights (createAccessObject m.docs) d ∨
        letsRead (createAccessObject m.docs) d ∨ isPublic d) ∧
      ∀ d ∈ (createAccessObject m.docs).keys, gained rights (createAccessObject m.docs) d →
        letsRead (createAccessObject m.docs) d ∨ isPublic d
  | _ => True

variable {isPublic : DocKey → Bool} {p : Proxy}

/-- Operations that add no member and change no rights of a member keep the property. -/
lemma MembersMayRead.shrinks {q : Proxy} (hm : p.MembersMayRead isPublic)
    (hd : ∀ d c, q.docService.Holds d c → p.docService.Holds d c)
    (hc : ∀ d c, q.docService.Holds d c → (q.conns c).access = (p.conns c).access) :
    q.MembersMayRead isPublic := by
  intro d c hh
  rw [hc d c hh]
  exact hm d c (hd d c hh)

lemma MembersMayRead.finishJoin (h : p.WF) (hm : p.MembersMayRead isPublic) (c : ConnectionId)
    (d : DocKey) (status : Status)
    (hok : status = .ok → (p.conns c).access.any (letsRead · d) ∨ isPublic d) :
    (p.finishJoin c d status).MembersMayRead isPublic := by
  cases status with
  | err message => exact hm.shrinks (by simp [Proxy.finishJoin]) (by simp [Proxy.finishJoin])
  | ok =>
    intro d' c' hh
    simp only [Proxy.finishJoin, send_docService, send_conns] at hh ⊢
    rcases (holds_joinToDoc h.docService c c' d d').mp hh with hold | ⟨rfl, rfl⟩
    · exact hm d' c' hold
    · exact hok rfl

lemma letsRead_of_granted {c : ConnectionId} {d : DocKey} (h : p.docAccess c d = .granted) :
    (p.conns c).access.any (letsRead · d) = true := by
  unfold docAccess at h
  cases ha : (p.conns c).access with
  | none => simp [ha] at h
  | some access =>
    cases hg : access.get d with
    | none => simp [ha, hg] at h
    | some data =>
      simp only [ha, hg] at h
      split at h
      · simpa [letsRead, hg]
      · cases h

lemma MembersMayRead.onJoin (h : p.WF) (hm : p.MembersMayRead isPublic) (c : ConnectionId)
    (d : DocKey) (response : DocIsPublicResponse) (hr : response = .ok true → isPublic d) :
    (p.onJoin c d response).MembersMayRead isPublic := by
  unfold Proxy.onJoin
  split
  · exact hm
  · rename_i hg
    exact hm.finishJoin h c d _ fun _ => .inl (letsRead_of_granted hg)
  · exact hm.finishJoin h c d _ (by simp)
  · obtain ⟨h₁, h₂, h₃⟩ := docIsPublicAnswered_eq p d response
    have hm' : (p.docIsPublicAnswered d response).1.MembersMayRead isPublic :=
      hm.shrinks (by simp [h₂]) (by simp [h₁])
    refine hm'.finishJoin (h.congr h₁ h₂ h₃) c d _ fun hok => .inr (hr ?_)
    rcases response with (_ | _) | _
    · cases hok
    · rfl
    · cases hok

/-- Connecting leaves the documents and all other connections as they are. -/
lemma handleConnection_eq (p : Proxy) (c : ConnectionId)
    (token : Option CheckClientTokenResponse) :
    (p.handleConnection c token).docService = p.docService ∧
      ∀ c', c' ≠ c → (p.handleConnection c token).conns c' = p.conns c' := by
  have hinit : ((p.openConnection c).initClient c token).1.docService = p.docService ∧
      ∀ c', c' ≠ c → ((p.openConnection c).initClient c token).1.conns c' = p.conns c' := by
    rcases token with _ | payload | _
    · refine ⟨rfl, fun c' hc => ?_⟩
      simp only [Proxy.initClient, conns_modify_ne _ _ hc, conns_openConnection, if_neg hc]
    · simp only [Proxy.initClient, applyToken_ok]
      refine ⟨rfl, fun c' hc => ?_⟩
      rw [conns_accept, if_neg hc, conns_openConnection, if_neg hc]
    · exact ⟨rfl, fun c' hc => by
        simp only [Proxy.initClient, Proxy.applyToken, conns_openConnection, if_neg hc]⟩
  unfold Proxy.handleConnection
  simp only [send_docService, send_conns]
  exact hinit

lemma mayRead_handleConnection (h : p.WF) (hm : p.MembersMayRead isPublic) {c : ConnectionId}
    (hc : (p.conns c).readyState = .connecting) (token : Option CheckClientTokenResponse) :
    (p.handleConnection c token).MembersMayRead isPublic := by
  obtain ⟨hdoc, hconns⟩ := handleConnection_eq p c token
  refine hm.shrinks (by simp [hdoc]) fun d c' hh => ?_
  rw [hdoc] at hh
  have hne : c' ≠ c := by
    rintro rfl
    exact h.member d c' hh hc
  rw [hconns c' hne]

/-- After an accepted token the connection is in the documents that the index did not have. -/
lemma mayRead_onSetToken_iff (h : p.WF) (hm : p.MembersMayRead isPublic) (c : ConnectionId)
    (payload : JWTPayload) :
    (p.onSetToken c (.ok payload)).MembersMayRead isPublic ↔
      ReadOk isPublic p (.onSetToken c (.ok payload)) := by
  have hdoc : (p.onSetToken c (.ok payload)).docService = p.docService.disconnect c := by
    simp [Proxy.onSetToken, applyToken_ok, Proxy.accept]
  have hconns : (p.onSetToken c (.ok payload)).conns = (p.accept c payload).conns := by
    simp [Proxy.onSetToken, applyToken_ok]
  constructor
  · intro hnew d hd
    by_cases hcov : ∃ doc ∈ p.docService.joined c, p.docService.docs.get d = some doc
    · exact .inl hcov
    · right
      have hstays : (p.docService.disconnect c).Holds d c := by
        obtain ⟨doc, hget, hmem⟩ := mem_held.mp hd
        rw [holds_disconnect_self]
        refine ⟨?_, doc, hget, hmem, fun hj => hcov ⟨doc, hj, hget⟩⟩
        rintro ⟨r, hr, hid, -⟩
        exact hcov (h.refreshed c d (mem_held.mp hd) ⟨r, hr, hid⟩)
      have hread := hnew d c (by rwa [hdoc])
      rw [hconns] at hread
      simpa [conns_accept] using hread
  · intro hok d c' hh
    rw [hdoc] at hh
    rw [hconns]
    by_cases hc : c' = c
    · subst hc
      obtain ⟨-, doc, hget, hmem, hj⟩ := (holds_disconnect_self _ c' d).mp hh
      rcases hok d (mem_held.mpr ⟨doc, hget, hmem⟩) with ⟨doc', hj', hget'⟩ | hread
      · exact absurd (Option.some.inj (hget.symm.trans hget') ▸ hj') hj
      · simpa [conns_accept] using hread
    · rw [conns_accept, if_neg hc]
      exact hm d c' ((holds_disconnect_other _ hc d).mp hh).2

lemma mayRead_onUpdateTokenMessage_iff (h : p.WF) (hm : p.MembersMayRead isPublic)
    (m : UpdateTokenMessage) :
    (p.onUpdateTokenMessage m).MembersMayRead isPublic ↔
      ReadOk isPublic p (.onUpdateTokenMessage m) := by
  rcases h.onUpdateTokenMessage_cases m with ⟨heq, hnone⟩ | ⟨cs, rights, hup⟩
  · rw [heq]
    simp [ReadOk, hnone, hm]
  · have hholds : ∀ c d, (p.onUpdateTokenMessage m).docService.Holds d c ↔
        if c ∈ cs then
          (p.docService.Holds d c ∧ ¬emptied rights (createAccessObject m.docs) d = true) ∨
            gained rights (createAccessObject m.docs) d = true
        else p.docService.Holds d c := by
      intro c d
      rw [hup.docService, (holds_updateOps h.docService _ cs c d).2, key_mem_updateDiff,
        mem_added_updateDiff]
    have haccess : ∀ c ∈ cs, ((p.onUpdateTokenMessage m).conns c).access =
        some (createAccessObject m.docs) := by
      intro c hc
      rw [hup.conns, if_pos hc]
      rfl
    constructor
    · intro hnew cs' hcs' rights' hrights'
      have he : cs' = cs := Option.some.inj (hcs'.symm.trans hup.listed)
      subst he
      have he : rights' = rights := Option.some.inj (hrights'.symm.trans hup.first)
      subst he
      have hread : ∀ c ∈ cs', ∀ d, (p.onUpdateTokenMessage m).docService.Holds d c →
          letsRead (createAccessObject m.docs) d ∨ isPublic d := by
        intro c hc d hh
        simpa [haccess c hc] using hnew d c hh
      refine ⟨fun c hc d hd => ?_, fun d _ hg => ?_⟩
      · by_cases hempty : emptied rights' (createAccessObject m.docs) d = true
        · exact .inl hempty
        · right
          apply hread c hc d
          rw [hholds, if_pos hc]
          exact .inl ⟨mem_held.mp hd, hempty⟩
      · obtain ⟨c, hc⟩ := List.exists_mem_of_ne_nil cs' (h.listed _ cs' hup.listed).1
        apply hread c hc d
        rw [hholds, if_pos hc]
        exact .inr hg
    · intro hok d c hh
      obtain ⟨hkept, hadded⟩ := hok cs hup.listed rights hup.first
      rw [hholds] at hh
      split at hh
      · rename_i hc
        simp only [haccess c hc, Option.any_some]
        rcases hh with ⟨hold, hne⟩ | hg
        · exact (hkept c hc d (mem_held.mpr hold)).resolve_left hne
        · have hkey : d ∈ (createAccessObject m.docs).keys := by
            rw [JsMap.mem_keys_iff]
            unfold gained at hg
            cases hn : (createAccessObject m.docs).get d with
            | none => cases ho : rights.get d <;> simp [ho, hn] at hg
            | some new => exact ⟨new, rfl⟩
          exact hadded d hkey hg
      · rename_i hc
        rw [hup.conns, if_neg hc]
        exact hm d c hh

/-- One operation: read access survives exactly when the operation meets `ReadOk`. -/
theorem mayRead_step_iff {p' : Proxy} {op : ProxyOp} (h : p.WF) (hm : p.MembersMayRead isPublic)
    (hs : p.step isPublic op = some p') :
    p'.MembersMayRead isPublic ↔ ReadOk isPublic p op := by
  cases op with
  | handleConnection c token =>
    simp only [step, Option.ite_none_right_eq_some, Option.some.injEq] at hs
    exact iff_of_true (hs.2 ▸ mayRead_handleConnection h hm hs.1 token) trivial
  | onJoin c d response =>
    simp only [step, Option.ite_none_right_eq_some, Option.some.injEq] at hs
    exact iff_of_true (hs.2 ▸ hm.onJoin h c d response hs.1.2) trivial
  | onSetToken c response =>
    simp only [step, Option.ite_none_right_eq_some, Option.some.injEq] at hs
    cases response with
    | ok payload => exact hs.2 ▸ mayRead_onSetToken_iff h hm c payload
    | error status =>
      refine iff_of_true ?_ trivial
      rw [← hs.2]
      exact hm.shrinks (by simp [Proxy.onSetToken, Proxy.applyToken])
        (by simp [Proxy.onSetToken, Proxy.applyToken])
  | onUpdateTokenMessage m =>
    cases hs
    exact mayRead_onUpdateTokenMessage_iff h hm m
  | checkTokenExpiration now =>
    cases hs
    refine iff_of_true ?_ trivial
    have hp := checkTokenExpiration_checkedBy p now
    refine hm.shrinks (fun d c hh => hp.shrinks.holds hh) fun d c _ => ?_
    rcases hp.conns c with hc | hc
    · rw [hc]
    · rw [hc, closeConn_access]
  | handleDisconnect c =>
    simp only [step, Option.ite_none_right_eq_some, Option.some.injEq] at hs
    refine iff_of_true ?_ trivial
    rw [← hs.2]
    refine hm.shrinks (fun d c' hh => ?_) fun d c' _ => ?_
    · rw [docService_handleDisconnect] at hh
      exact (shrinks_disconnect _ c).holds hh
    · rw [conns_handleDisconnect]
      split
      · rename_i he
        rw [he]
      · rfl

/-- In a run all members may read their documents in every state reached exactly when every
operation of the run meets `ReadOk`. -/
theorem members_may_read_iff (isPublic : DocKey → Bool) (ops : List ProxyOp) :
    (∀ done, done <+: ops → ∀ p, Stepper.run (step isPublic) init done = some p →
      p.MembersMayRead isPublic) ↔
      Stepper.Guarded (step isPublic) (ReadOk isPublic) init ops :=
  Stepper.invariant_iff_guarded WF (MembersMayRead isPublic) (fun _ _ _ => wf_step)
    (fun _ _ _ h hm hs => mayRead_step_iff h hm hs) ops wf_init fun d c hh => by
      obtain ⟨doc, hd, -⟩ := hh
      simp [init, DocService.init] at hd

/-- A document that the new token no longer lists stays joined. -/
theorem member_without_access :
    ¬∀ (isPublic : DocKey → Bool) (ops : List ProxyOp) (p : Proxy),
      Stepper.run (step isPublic) init ops = some p → p.MembersMayRead isPublic := by
  intro h
  have hrun := h (fun _ => false)
    [.handleConnection "c" (some (.ok ⟨"t", "consumer", "user", none, [⟨"doc", [.read]⟩]⟩)),
      .onJoin "c" "doc" (.ok false),
      .onUpdateTokenMessage ⟨"jwt", "t'", "t", "consumer", "user", none, []⟩] _ rfl "doc" "c"
  revert hrun
  decide

end Proxy

end AlaFois
