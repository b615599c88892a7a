import AlaFois.Proofs.AccessControl

/-!
# What a verdict depends on

The checks of `AuthService` look at the table of the connection and at what earlier joins have
found out about the document. The second is no part of the connection's rights: for a connection
that may only read a public document it decides whether its changes are taken.
-/

namespace AlaFois

namespace Proxy

variable {p q : Proxy}

/-- Every table is made of a list of documents, that of no token being the empty one. -/
def Tables (p : Proxy) : Prop :=
  ∀ c access, (p.conns c).access = some access → ∃ docs, access = createAccessObject docs

lemma tables_init : init.Tables := by
  intro c access h
  simp [init, WebSocketConnection.new] at h

lemma Tables.congr (h : p.Tables) (hc : ∀ c, (q.conns c).access = (p.conns c).access) :
    q.Tables := by
  intro c access haccess
  rw [hc] at haccess
  exact h c access haccess

lemma Tables.accept (h : p.Tables) (c : ConnectionId) (payload : JWTPayload) :
    (p.accept c payload).Tables := by
  intro c' access haccess
  rw [conns_accept] at haccess
  split at haccess
  · exact ⟨payload.docs, (Option.some.inj haccess).symm⟩
  · exact h c' access haccess

end Proxy

namespace Node

lemma tables_step {n n' : Node} {a : NodeAction} (h : n.WF) (ht : n.proxy.Tables)
    (hs : n.step a = some n') : n'.proxy.Tables := by
  cases step_cases hs with
  | opening c hc =>
    intro c' access haccess
    rw [Proxy.conns_openConnection] at haccess
    split at haccess
    · cases haccess
    · exact ht c' access haccess
  | opened c hc =>
    intro c' access haccess
    by_cases he : c' = c
    · subst he
      refine ⟨[], ?_⟩
      simpa [Proxy.handleConnection, Proxy.initClient, createAccessObject, eq_comm] using haccess
    · rw [(Proxy.handleConnection_eq n.proxy c none).2 c' he] at haccess
      exact ht c' access haccess
  | failed c d => exact ht
  | joined c d status hc => exact ht.congr (by simp [Proxy.finishJoin_eq])
  | suspended a call hc hpay ha => exact ht
  | answered call answered hcall hans => exact ht
  | resumed call q hcall hq =>
    rcases Proxy.resume_accept hq with ⟨-, hconns, -⟩ | ⟨payload, -, hconns, -⟩
    · exact ht.congr (by simp [hconns])
    · exact (ht.accept call.conn payload).congr (by simp [hconns])
  | updated m =>
    rcases h.proxy.onUpdateTokenMessage_cases m with ⟨heq, -⟩ | ⟨cs, rights, hup⟩
    · rwa [heq]
    · intro c access haccess
      rw [hup.conns] at haccess
      split at haccess
      · exact ⟨m.docs, (Option.some.inj haccess).symm⟩
      · exact ht c access haccess
  | checked now =>
    refine ht.congr fun c => ?_
    rcases (Proxy.checkTokenExpiration_checkedBy n.proxy now).conns c with hc | hc
    · rw [hc]
    · rw [hc, Proxy.closeConn_access]
  | disconnected c hc =>
    refine ht.congr fun c' => ?_
    rw [Proxy.conns_handleDisconnect]
    split
    · rename_i he
      rw [he]
    · rfl

end Node

namespace Site

variable {objectId : DocKey → Option ObjectId} {s s' : Site}

/-- A join is granted by the table of the connection, or makes the document known as public. -/
structure Granted (s : Site) : Prop where
  tables : s.gateway.node.proxy.Tables
  joins : ∀ c d access, (c, d, access) ∈ s.granted →
    access.any (allows .read · d) = true ∨ s.gateway.node.proxy.publicDocs.has d = true

lemma granted_init : init.Granted where
  tables := Proxy.tables_init
  joins c d access h := by cases h

lemma letsRead_eq (access : Access) (d : DocKey) : letsRead access d = allows .read access d := by
  unfold letsRead allows
  cases access.get d <;> rfl

/-- A granted join is recorded with the table of that moment. -/
lemma mem_grants {n : Node} {a : NodeAction} {c : ConnectionId} {d : DocKey}
    {access : Option Access} (h : (c, d, access) ∈ n.grants a) :
    access = (n.proxy.conns c).access ∧
      (access.any (allows .read · d) = true ∨ a = .resume (.onJoin c d (some (.ok true)))) := by
  unfold Node.grants at h
  split at h
  · split at h
    · rename_i hgranted
      cases List.mem_singleton.mp h
      refine ⟨rfl, .inl ?_⟩
      simpa only [letsRead_eq] using Proxy.letsRead_of_granted hgranted
    · cases h
  · cases List.mem_singleton.mp h
    exact ⟨rfl, .inr rfl⟩
  · cases h

lemma granted_step {a : SiteAction} (h : s.WF objectId) (hg : s.Granted)
    (hs : s.step objectId a = some s') : s'.Granted := by
  rcases step_cases hs with ⟨na, n, -, -, hn, rfl⟩ | ⟨ga, g, -, -, hsame, rfl⟩ |
    ⟨id, flag, -, -, rfl⟩
  · refine ⟨Node.tables_step h.node hg.tables hn, fun c d access hmem => ?_⟩
    rcases List.mem_append.mp hmem with hnew | hold
    · refine (mem_grants hnew).2.imp_right fun hjoin => ?_
      exact (Node.publicDocs_step hn d).mpr (.inr ⟨c, hjoin⟩)
    · exact (hg.joins c d access hold).imp_right fun hknown =>
        (Node.publicDocs_step hn d).mpr (.inl hknown)
  · refine ⟨hg.tables.congr (by simp [hsame.conns]), fun c d access hmem => ?_⟩
    rw [hsame.publicDocs]
    exact hg.joins c d access hmem
  · exact ⟨hg.tables, hg.joins⟩

lemma granted_run {as : List SiteAction} (hrun : Stepper.run (step objectId) init as = some s) :
    s.WF objectId ∧ s.Granted :=
  Stepper.run_invariant_of_step (fun s => s.WF objectId ∧ s.Granted)
    (fun _ _ _ h hs => ⟨wf_step h.1 hs, granted_step h.1 h.2 hs⟩) hrun ⟨wf_init, granted_init⟩

/-- In the state the connection has the table, the document the flag, and the connection was
granted its join of the document with that table. -/
structure Joined (objectId : DocKey → Option ObjectId) (c : ConnectionId) (d : DocKey)
    (access : Option Access) (flag : Option Bool) (s : Site) : Prop where
  access_eq : (s.gateway.node.proxy.conns c).access = access
  flag_eq : s.publicFlag objectId d = flag
  joined : (c, d, access) ∈ s.granted

/-- A public document that a token lets its holder read and not write. -/
def ReadOnlyPublic (objectId : DocKey → Option ObjectId) (d : DocKey) (access : Option Access)
    (flag : Option Bool) : Prop :=
  objectId d ≠ none ∧ flag = some true ∧ ∃ docs, access = some (createAccessObject docs) ∧
    allows .read (createAccessObject docs) d = true ∧
    allows .write (createAccessObject docs) d = false

/-- Elsewhere table and flag decide. -/
lemma checkAccess_of_joined (h : s.WF objectId) (hg : s.Granted) {c : ConnectionId} {d : DocKey}
    {access : Option Access} {flag : Option Bool} (hjoin : s.Joined objectId c d access flag)
    (hok : ¬ReadOnlyPublic objectId d access flag) (right : Right) :
    s.gateway.node.proxy.checkAccess right c d = access.map fun access =>
      if allows right access d ∨ flag = some true then .ok else .err "Unauthorized" := by
  obtain ⟨rfl, hflag, hjoined⟩ := hjoin
  have hread := hg.joins c d _ hjoined
  have hpublic : s.gateway.node.proxy.publicDocs.has d = true → flag = some true := by
    intro hknown
    have hpub := h.known d hknown
    rwa [isPublic, decide_eq_true_eq, hflag] at hpub
  rw [Proxy.checkAccess_eq]
  cases haccess : (s.gateway.node.proxy.conns c).access with
  | none => rfl
  | some access =>
    rw [haccess, Option.any_some] at hread
    simp only [Option.map_some, Bool.or_eq_true]
    by_cases hpub : flag = some true
    · -- without the right to read the join itself has found out that the document is public
      have hgrants : allows right access d = true ∨
          s.gateway.node.proxy.publicDocs.has d = true := by
        refine hread.imp_left fun hr => ?_
        cases right with
        | read => exact hr
        | write =>
          obtain ⟨docs, rfl⟩ := hg.tables c access haccess
          by_contra hw
          refine hok ⟨?_, hpub, docs, haccess, hr, Bool.eq_false_iff.mpr hw⟩
          intro hnone
          simp [publicFlag, hnone, hpub] at hflag
      simp [hgrants, hpub]
    · have hunknown := mt hpublic hpub
      simp [hpub, hunknown]

/-! ### Two histories of one connection -/

/-- An answer of the API for a token that lists the documents. -/
def listing (docs : List AccessData) : CheckClientTokenResponse :=
  .ok ⟨"token", "consumer", "user", none, docs⟩

/-- A public document is stored, and the connection joins it with a token. -/
def joinActions (c : ConnectionId) (d : DocKey) (docs : List AccessData) (id : ObjectId) :
    List SiteAction :=
  [.createDoc id true, .gateway (.node (.handleConnection c true)),
    .gateway (.node (.apiAnswers (.handleConnection c none)
      (.handleConnection c (some (listing docs))))),
    .gateway (.node (.resume (.handleConnection c (some (listing docs))))),
    .gateway (.node (.onJoin c d))]

/-- A connection without a token joins the public document. -/
def visitActions (c : ConnectionId) (d : DocKey) : List SiteAction :=
  [.gateway (.node (.handleConnection c false)), .gateway (.node (.onJoin c d)),
    .gateway (.node (.apiAnswers (.onJoin c d none) (.onJoin c d (some (.ok true))))),
    .gateway (.node (.resume (.onJoin c d (some (.ok true)))))]

lemma run_joinActions (c : ConnectionId) {d : DocKey} {docs : List AccessData} {id : ObjectId}
    (hid : objectId d = some id) (hread : allows .read (createAccessObject docs) d = true) :
    ∃ s, Stepper.run (step objectId) init (joinActions c d docs id) = some s ∧
      s.Joined objectId c d (some (createAccessObject docs)) (some true) ∧
      (∀ c', c' ≠ c → (s.gateway.node.proxy.conns c').readyState = .connecting) ∧
      s.gateway.node.proxy.publicDocs = .empty := by
  obtain ⟨data, hdata, hright⟩ := (Option.any_eq_true _ _).mp hread
  have hr : Right.read ∈ data.rights := by simpa using hright
  have hget : (createAccessObject docs).get d = some data := hdata
  -- the five actions, executed symbolically
  have hexec : ∃ s, Stepper.run (step objectId) init (joinActions c d docs id) = some s ∧
      (s.gateway.node.proxy.conns c).access = some (createAccessObject docs) ∧
      s.publicFlag objectId d = some true ∧ (c, d, some (createAccessObject docs)) ∈ s.granted ∧
      (∀ c', c' ≠ c → (s.gateway.node.proxy.conns c').readyState = .connecting) ∧
      s.gateway.node.proxy.publicDocs = .empty := by
    simp +contextual [joinActions, listing, Stepper.run, step, init, publicFlag, hid,
      Gateway.step, Gateway.init, Gateway.grants, Node.step, Node.init, Node.grants,
      NodeAction.tells, HandlerCall.answeredBy, Proxy.init, Proxy.openConnection, Proxy.resume,
      Proxy.connectionAnswered, Proxy.applyToken, Proxy.addConnection, Proxy.connected,
      Proxy.docAccess, Proxy.finishJoin, Proxy.send, Proxy.modify, WebSocketConnection.new,
      WebSocketConnection.isOpen, Function.update, hget, hr]
  obtain ⟨s, hrun, haccess, hflag, hjoined, hothers, hknown⟩ := hexec
  exact ⟨s, hrun, ⟨haccess, hflag, hjoined⟩, hothers, hknown⟩

/-- A visit leaves everything about the first connection, and the document known as public. -/
lemma run_visitActions {c c' : ConnectionId} {d : DocKey} {access : Option Access}
    (hne : c' ≠ c) (hnew : (s.gateway.node.proxy.conns c').readyState = .connecting)
    (hjoin : s.Joined objectId c d access (some true)) :
    ∃ s', Stepper.run (step objectId) s (visitActions c' d) = some s' ∧
      s'.Joined objectId c d access (some true) ∧
      s'.gateway.node.proxy.publicDocs.has d = true := by
  obtain ⟨haccess, hflag, hjoined⟩ := hjoin
  have hbind : (objectId d).bind s.publicFlags.get = some true := hflag
  have hexec : ∃ s', Stepper.run (step objectId) s (visitActions c' d) = some s' ∧
      (s'.gateway.node.proxy.conns c).access = access ∧ s'.publicFlags = s.publicFlags ∧
      (c, d, access) ∈ s'.granted ∧ s'.gateway.node.proxy.publicDocs.has d = true := by
    simp [visitActions, Stepper.run, step, isPublic, publicFlag, hbind, Gateway.step,
      Gateway.grants, Node.step, Node.grants, Node.suspend, NodeAction.tells, HandlerCall.answeredBy,
      Proxy.handleConnection, Proxy.initClient, Proxy.openConnection, Proxy.resume,
      Proxy.connected, Proxy.docAccess, Proxy.joinAnswered, Proxy.docIsPublicAnswered,
      Proxy.finishJoin, Proxy.send, Proxy.modify, WebSocketConnection.new,
      WebSocketConnection.isOpen, Function.update, hnew, hne.symm, haccess, hjoined, JsMap.has]
  obtain ⟨s', hrun, haccess', hflags, hjoined', hknown⟩ := hexec
  exact ⟨s', hrun, ⟨haccess', by rw [publicFlag, hflags, hbind], hjoined'⟩, hknown⟩

/-- With two histories, one of which has a visitor, a connection that may only read the public
document is judged differently. -/
lemma verdicts_differ (c : ConnectionId) {d : DocKey} {access : Option Access} {flag : Option Bool}
    (hro : ReadOnlyPublic objectId d access flag) :
    ∃ as₁ as₂ s₁ s₂, Stepper.run (step objectId) init as₁ = some s₁ ∧
      Stepper.run (step objectId) init as₂ = some s₂ ∧ s₁.Joined objectId c d access flag ∧
      s₂.Joined objectId c d access flag ∧
      s₁.gateway.node.proxy.checkWriteAccess c d ≠ s₂.gateway.node.proxy.checkWriteAccess c d := by
  obtain ⟨hid, rfl, docs, rfl, hread, hwrite⟩ := hro
  obtain ⟨id, hid⟩ := Option.ne_none_iff_exists'.mp hid
  obtain ⟨s₁, hrun₁, hjoin₁, hothers, hknown₁⟩ := run_joinActions c hid hread
  have hne : c ++ "'" ≠ c := by
    intro he
    have hlen := congrArg String.length he
    rw [String.length_append] at hlen
    exact absurd hlen (Nat.ne_of_gt (Nat.lt_add_of_pos_right (by decide)))
  obtain ⟨s₂, hrun₂, hjoin₂, hknown₂⟩ := run_visitActions hne (hothers _ hne) hjoin₁
  have hall : Stepper.run (step objectId) init
      (joinActions c d docs id ++ visitActions (c ++ "'") d) = some s₂ := by
    rw [Stepper.run_append hrun₁, hrun₂]
  refine ⟨_, _, s₁, s₂, hrun₁, hall, hjoin₁, hjoin₂, ?_⟩
  unfold Proxy.checkWriteAccess
  rw [Proxy.checkAccess_eq, Proxy.checkAccess_eq, hjoin₁.access_eq, hjoin₂.access_eq, hknown₁]
  have hempty : (JsMap.empty : JsMap DocKey Bool).has d = false := rfl
  simp [hwrite, hknown₂, hempty]

/-- Whatever the two histories are, the checks agree on a connection, a document, a table and a
flag exactly when the document is not a public one that the table lets be read and not written. -/
theorem verdicts_agree_iff (objectId : DocKey → Option ObjectId) (c : ConnectionId) (d : DocKey)
    (access : Option Access) (flag : Option Bool) :
    (∀ as₁ as₂ s₁ s₂, Stepper.run (step objectId) init as₁ = some s₁ →
        Stepper.run (step objectId) init as₂ = some s₂ →
        s₁.Joined objectId c d access flag → s₂.Joined objectId c d access flag →
        s₁.gateway.node.proxy.checkReadAccess c d = s₂.gateway.node.proxy.checkReadAccess c d ∧
          s₁.gateway.node.proxy.checkWriteAccess c d =
            s₂.gateway.node.proxy.checkWriteAccess c d) ↔
      ¬ReadOnlyPublic objectId d access flag := by
  constructor
  · intro hagree hro
    obtain ⟨as₁, as₂, s₁, s₂, hrun₁, hrun₂, hjoin₁, hjoin₂, hne⟩ := verdicts_differ c hro
    exact hne (hagree as₁ as₂ s₁ s₂ hrun₁ hrun₂ hjoin₁ hjoin₂).2
  · intro hok as₁ as₂ s₁ s₂ hrun₁ hrun₂ hjoin₁ hjoin₂
    obtain ⟨hwf₁, hg₁⟩ := granted_run hrun₁
    obtain ⟨hwf₂, hg₂⟩ := granted_run hrun₂
    have hsame : ∀ right, s₁.gateway.node.proxy.checkAccess right c d =
        s₂.gateway.node.proxy.checkAccess right c d := by
      intro right
      rw [checkAccess_of_joined hwf₁ hg₁ hjoin₁ hok, checkAccess_of_joined hwf₂ hg₂ hjoin₂ hok]
    exact ⟨hsame .read, hsame .write⟩

/-- A reader of a public document may write once somebody without a token has joined it. -/
theorem verdict_turned_by_visitor :
    ¬∀ (objectId : DocKey → Option ObjectId) (c : ConnectionId) (d : DocKey)
      (access : Option Access) (flag : Option Bool) (as₁ as₂ : List SiteAction) (s₁ s₂ : Site),
      Stepper.run (step objectId) init as₁ = some s₁ →
      Stepper.run (step objectId) init as₂ = some s₂ →
      s₁.Joined objectId c d access flag → s₂.Joined objectId c d access flag →
      s₁.gateway.node.proxy.checkReadAccess c d = s₂.gateway.node.proxy.checkReadAccess c d ∧
        s₁.gateway.node.proxy.checkWriteAccess c d =
          s₂.gateway.node.proxy.checkWriteAccess c d := by
  intro h
  let docs : List AccessData := [⟨"doc", [.read]⟩]
  have hrun := h some "reader" "doc" (some (createAccessObject docs)) (some true)
    (joinActions "reader" "doc" docs "doc")
    (joinActions "reader" "doc" docs "doc" ++ visitActions "visitor" "doc") _ _ rfl rfl
    ⟨rfl, rfl, .head _⟩ ⟨rfl, rfl, .tail _ (.head _)⟩
  revert hrun
  decide

end Site

end AlaFois
