/-
Complete mediation of the tool calls.

`Mediated` is what a tool call may ask after which history. The facade is
asked under the handle's lock, and, but for a container's mode, only for
what a request names that went through every stage: the scopes, the
controller, the attempt record. No answer of the environment is assumed.
-/
import SovereignVault.Mcp.Tables

namespace SovereignVault.Mcp

open Dialogue Talk List

-- ==== guards

/-- The consent of the controller and the accepted attempt record, latest
first, as far as they are installed. -/
def stages (server : Server) (access : AccessRequest) (timestamp : Nat) : List McpExchange :=
  (if server.auditSink then
      [⟨.record (auditEvent timestamp access .attempted none), .ok ()⟩]
    else [])
  ++ if server.accessController then [⟨.authorize access, .ok ()⟩] else []

/-- The request went through every stage, in order. -/
structure Cleared (server : Server) (agent : Option ResolvedAgent)
    (access : AccessRequest) (h : List McpExchange) : Prop where
  scopes : enforceBound agent access = .ok ()
  stages : ∃ timestamp, (stages server access timestamp).Sublist h

/-- The answer to the latest lock of the handle, while it is held. -/
def holding : List McpExchange → Option Bool
  | [] => none
  | ⟨.lockHandle, unlocked⟩ :: _ => some unlocked
  | ⟨.unlockHandle, _⟩ :: _ => none
  | _ :: h => holding h

/-- The mode of a request on a container was looked up, but for the
creation of one. -/
def Sourced (access : AccessRequest) (h : List McpExchange) : Prop :=
  ∀ c, access.container = some c → access.action ≠ .createContainer → ∃ m, access.mode = some m
      ∧ ⟨.facade (.containerMode c), .ok m⟩ ∈ h

def decision (e : McpExchange) : Bool :=
  match e.op with
  | .authorize _ => true
  | _ => false

def Unasked (h : List McpExchange) : Prop := ∀ e ∈ h, decision e = false

def settling (e : McpExchange) : Bool :=
  match e.op with
  | .authorize _ | .unlockHandle => true
  | _ => false

/-- The controller, asked once, consented, and the handle was not given
back since. -/
def Consented (access : AccessRequest) (h : List McpExchange) : Prop :=
  ∃ since before, h = since ++ ⟨.authorize access, .ok ()⟩ :: before
    ∧ Unasked before ∧ ∀ e ∈ since, settling e = false

structure Ready (server : Server) (agent : Option ResolvedAgent)
    (access : AccessRequest) (h : List McpExchange) : Prop extends
    Cleared server agent access h where
  sourced : Sourced access h
  consent : server.accessController → Consented access h

def Quiet (h : List McpExchange) : Prop := ∀ e ∈ h, effectful e = false

/-- What may be asked after which history: the facade under the lock, for
what a ready request names, with one effect at most; the controller once,
for what the scopes accept. -/
def Mediated (server : Server) (agent : Option ResolvedAgent) (h : List McpExchange) : McpOp → Prop
  | .facade op =>
    holding h = some true
    ∧ (op.mediated → ∃ access, op.Serves access.target ∧ Ready server agent access h)
    ∧ (op.effect → Quiet h)
  | .authorize access => enforceBound agent access = .ok () ∧ Unasked h
  | .authenticate _ _ => False
  | _ => True

variable {server : Server} {agent : Option ResolvedAgent}
  {access : AccessRequest} {h h' : List McpExchange} {target : Target}

theorem Cleared.later (hc : Cleared server agent access h)
    (hsuffix : h <:+ h') : Cleared server agent access h' := by
  obtain ⟨timestamp, hsub⟩ := hc.stages
  exact ⟨hc.scopes, timestamp, hsub.trans hsuffix.sublist⟩

theorem Sourced.later (hs : Sourced access h) (hsuffix : h <:+ h') : Sourced access h' := by
  intro c hc haction
  obtain ⟨m, hm, hmem⟩ := hs c hc haction
  exact ⟨m, hm, hsuffix.mem hmem⟩

variable {e : McpExchange} {tool : Tool}

theorem Quiet.cons (hq : Quiet h) (he : effectful e = false) : Quiet (e :: h) := by
  intro e' hmem
  rcases mem_cons.1 hmem with rfl | hmem
  · exact he
  · exact hq e' hmem

theorem Quiet.calm (hq : Quiet h) (hc : Calm target h h') : Quiet h' := by
  obtain ⟨new, rfl, hall⟩ := hc
  intro e hmem
  rcases mem_append.1 hmem with hmem | hmem
  · exact (hall e hmem).2
  · exact hq e hmem

theorem Within.holding_eq (hw : Within target h h') : holding h' = holding h := by
  obtain ⟨new, rfl, hall⟩ := hw
  induction new with
  | nil => rfl
  | cons e new ih =>
    have ih := ih fun e hmem => hall e (mem_cons_of_mem _ hmem)
    have he := hall e mem_cons_self
    obtain ⟨o, a⟩ := e
    cases o with
    | facade op | clock => exact ih
    | _ => exact he.elim

theorem Consented.now (hu : Unasked h) : Consented access (⟨.authorize access, .ok ()⟩ :: h) :=
  ⟨[], h, rfl, hu, fun _ hmem => absurd hmem not_mem_nil⟩

theorem Consented.cons (hc : Consented access h) (he : settling e = false) :
    Consented access (e :: h) := by
  obtain ⟨since, before, rfl, hbefore, hsince⟩ := hc
  refine ⟨e :: since, before, rfl, hbefore, fun e' hmem => ?_⟩
  rcases mem_cons.1 hmem with rfl | hmem
  · exact he
  · exact hsince e' hmem

theorem Consented.within (hc : Consented access h)
    (hw : Within target h h') : Consented access h' := by
  obtain ⟨new, rfl, hall⟩ := hw
  induction new with
  | nil => exact hc
  | cons e new ih =>
    have ih := ih fun e hmem => hall e (mem_cons_of_mem _ hmem)
    have he := hall e mem_cons_self
    refine ih.cons ?_
    obtain ⟨o, a⟩ := e
    cases o with
    | facade op | clock => rfl
    | _ => exact he.elim

theorem Ready.within (hr : Ready server agent access h)
    (hw : Within target h h') : Ready server agent access h' where
  toCleared := hr.toCleared.later hw.suffix
  sourced := hr.sourced.later hw.suffix
  consent := fun hcontroller => (hr.consent hcontroller).within hw

theorem Ready.lock (hr : Ready server agent access h) :
    Ready server agent access (⟨.lockHandle, true⟩ :: h) where
  toCleared := hr.toCleared.later (suffix_cons _ h)
  sourced := hr.sourced.later (suffix_cons _ h)
  consent := fun hcontroller => (hr.consent hcontroller).cons rfl

theorem Ready.admits (hr : Ready server agent access h)
    (hhold : holding h = some true) (hq : Quiet h) (htarget : access.target = target) :
    Admits (Mediated server agent) target h where
  facade := by
    intro h' op hserves hw hcalm
    refine ⟨hw.holding_eq.trans hhold, fun _ => ?_, fun heff => ?_⟩
    · exact ⟨access, htarget ▸ hserves, hr.within hw⟩
    · exact hq.calm (hcalm heff)
  clock := fun _ _ => trivial

theorem ModeLooked.sourced (hm : ModeLooked access h h') : Sourced access h' := by
  intro c hc haction
  unfold ModeLooked at hm
  rw [hc] at hm
  rcases hm with ⟨hcreate, -⟩ | ⟨m, hm, rfl⟩
  · exact absurd hcreate haction
  · exact ⟨m, hm, mem_cons_self⟩

theorem Looked.quiet (hl : Looked h h') (hq : Quiet h) : Quiet h' := by
  rcases hl with rfl | ⟨c, a, rfl⟩
  · exact hq
  · exact hq.cons rfl

theorem Unasked.cons (hu : Unasked h) (he : decision e = false) : Unasked (e :: h) := by
  intro e' hmem
  rcases mem_cons.1 hmem with rfl | hmem
  · exact he
  · exact hu e' hmem

theorem Looked.unasked (hl : Looked h h') (hu : Unasked h) : Unasked h' := by
  rcases hl with rfl | ⟨c, a, rfl⟩
  · exact hu
  · exact hu.cons rfl

-- ==== releases

/-- A value is returned only with the accepted record of the outcome as
the last exchange. -/
def Concluded (server : Server) (agent : Option ResolvedAgent)
    (r : Except String Value) (h : List McpExchange) : Prop :=
  ∀ value, r = .ok value → server.auditSink → ∃ access timestamp detail before,
      h = ⟨.record (auditEvent timestamp access .allowed detail), .ok ()⟩
        :: ⟨.clock, timestamp⟩ :: before
      ∧ Cleared server agent access before

/-- What a call that read a file returns is what the privacy filter makes
of the bytes, for a mode that was looked up before the read. -/
def Filtered (crates : Crates) (transport : AccessTransport)
    (r : Except String Value) (h : List McpExchange) : Prop :=
  ∀ since before c f bytes, h = since ++ ⟨.facade (.readFile c f), .ok bytes⟩
    :: before → ∃ access audit, access.target = ⟨.readFile, some c, some f⟩ ∧ Sourced access before
      ∧ r = combineResultAndAudit (filterResult crates access transport
          (readOutcome crates transport c f bytes)).1 audit

def redactedRead (crates : Crates) (transport : AccessTransport)
    (container fileName : String) (bytes : Bytes) : Except String Redaction := do
  let value ← readOutcome crates transport container fileName bytes
  let text ← readText crates value
  .ok (crates.redact text)

def maskedRead (crates : Crates) (transport : AccessTransport)
    (container fileName : String) : Except String Redaction → Except String Value
  | .error e => .error e
  | .ok redaction => limitResponse crates transport
      (.object [("container", .string container),
        ("file_name", .string fileName),
        ("content_b64", .string (crates.b64Encode (asBytes redaction.output))),
        ("byte_size", .nat redaction.output.utf8ByteSize),
        ("anonymized", .bool true),
        ("pii_redactions", .nat redaction.count)])

theorem filterResult_anonymized
    {crates : Crates} {transport : AccessTransport} {access : AccessRequest}
    {container fileName : String} {bytes : Bytes} (haction : access.action = .readFile)
    (hmode : access.mode = some .anonymized) : (filterResult crates access transport
        (readOutcome crates transport container fileName bytes)).1
      = maskedRead crates transport container fileName
        (redactedRead crates transport container fileName bytes) := by
  have hfilter : ¬ (access.action ≠ .readFile
      ∨ access.mode ≠ some .anonymized) := by
    rintro (h | h)
    · exact h haction
    · exact h hmode
  unfold redactedRead readOutcome
  by_cases hlarge : transport = .mcpWs ∧ bytes.length > MAX_WS_FILE_BYTES
  · rw [if_pos hlarge]
    rfl
  rw [if_neg hlarge]
  show (filterResult crates access transport (.ok _)).1
    = maskedRead crates transport container fileName
      ((readText crates (readResult crates container fileName bytes)).bind
        fun text => .ok (crates.redact text))
  unfold filterResult applyPrivacyFilter
  dsimp only
  rw [if_neg hfilter]
  cases readText crates (readResult crates container fileName bytes) with
  | error e => rfl
  | ok text =>
    dsimp only
    split
    · next heq => exact heq.symm
    · next heq => exact heq.symm

structure Answered (server : Server) (agent : Option ResolvedAgent)
    (crates : Crates) (transport : AccessTransport)
    (r : Except String Value) (h : List McpExchange) : Prop where
  concluded : Concluded server agent r h
  filtered : Filtered crates transport r h

variable {crates : Crates} {name : String} {args : Value} {transport : AccessTransport}

theorem Concluded.error {e : String} : Concluded server agent (.error e) h := nofun

theorem Quiet.filtered (hq : Quiet h) (r : Except String Value) :
    Filtered crates transport r h := by
  rintro since before c f bytes rfl
  cases hq _ (mem_append_right since mem_cons_self)

theorem Quiet.suffix_before {new since before : List McpExchange} (hq : Quiet h)
    (he : effectful e = true) (heq : new ++ h = since ++ e :: before) : h <:+ before := by
  rcases append_eq_append_iff.1 heq with
    ⟨mid, -, hmid⟩ | ⟨mid, -, hmid⟩
  · rw [hmid] at hq
    have hmem : e ∈ mid ++ e :: before := mem_append_right mid mem_cons_self
    rw [hq e hmem] at he
    cases he
  cases mid with
  | nil =>
    rw [nil_append] at hmid
    rw [← hmid] at hq
    rw [hq e mem_cons_self] at he
    cases he
  | cons e' mid =>
    cases hmid
    exact suffix_append mid h

theorem Filtered.cons {r : Except String Value} (hf : Filtered crates transport r h)
    (he : effectful e = false) : Filtered crates transport r (e :: h) := by
  intro since before c f bytes heq
  cases since with
  | nil =>
    cases heq
    cases he
  | cons e' since =>
    cases heq
    exact hf since before c f bytes rfl

theorem Within.filtered (hw : Within target h h') (hq : Quiet h)
    (htarget : ∀ c f, target ≠ ⟨.readFile, some c, some f⟩)
    (r : Except String Value) : Filtered crates transport r h' := by
  obtain ⟨new, rfl, hall⟩ := hw
  intro since before c f bytes heq
  have hmem : ⟨.facade (.readFile c f), .ok bytes⟩ ∈ new ++ h := by
    rw [heq]
    exact mem_append_right since mem_cons_self
  rcases mem_append.1 hmem with hmem | hmem
  · exact absurd (hall _ hmem) (htarget c f)
  · cases hq _ hmem

theorem Quiet.answered (hq : Quiet h) {e : String} :
    Answered server agent crates transport (.error e) h :=
  ⟨.error, hq.filtered _⟩

-- ==== whole calls

theorem conclude_answered {result : Except String Value} {detail : Option String}
    (hc : Cleared server agent access h) (hfiltered : ∀ audit, Filtered crates transport
      (combineResultAndAudit result audit) h) :
    wp (Mediated server agent) (conclude server access result detail)
      (Answered server agent crates transport) h := by
  unfold conclude
  rw [bind_eq, wp_bind, wp_attempt]
  refine wp_recordAudit (fun _ _ => ⟨trivial, trivial⟩) ?_ ?_ ?_
  · intro hnone
    refine ⟨?_, hfiltered (.ok ())⟩
    intro value _ hsink
    rw [hnone] at hsink
    cases hsink
  · intro _ t
    refine ⟨?_, ((hfiltered (.ok ())).cons rfl).cons rfl⟩
    intro value hok _
    cases result with
    | error e => cases hok
    | ok value' => exact ⟨access, t, detail, h, rfl, hc⟩
  · intro t e
    refine ⟨?_, ((hfiltered (.error _)).cons rfl).cons rfl⟩
    cases result with
    | error e | ok value => exact .error

theorem deny_mediated (access : AccessRequest) (error : String) (hq : Quiet h) :
    wp (Mediated server agent) (deny server access error)
      (Answered server agent crates transport) h := by
  unfold deny
  rw [bind_eq, wp_bind, wp_attempt]
  refine wp_recordAudit (fun _ _ => ⟨trivial, trivial⟩) ?_ ?_ ?_
  · intro _
    exact hq.answered
  · intro _ _
    exact ((hq.cons rfl).cons rfl).answered
  · intro _ _
    exact ((hq.cons rfl).cons rfl).answered

theorem toolTarget_readFile {c f : String}
    (htarget : toolTarget tool args = ⟨.readFile, some c, some f⟩) : tool = .read := by
  unfold toolTarget at htarget
  cases tool with
  | read => rfl
  | list =>
    dsimp only at htarget
    split at htarget
    · cases htarget
    · cases htarget
  | _ => cases htarget

theorem executeTool_filtered (hadmits : Admits (Mediated server agent) (toolTarget tool args) h)
    (htool : Tool.parse name = some tool)
    (hq : Quiet h) (hsourced : Sourced access h) (htarget : access.target = toolTarget tool args) :
    wp (Mediated server agent) (executeTool crates name args transport)
      (fun r h' => Executed (toolTarget tool args) h r h'
        ∧ ∀ audit, Filtered crates transport (combineResultAndAudit
          (filterResult crates access transport r).1 audit) h') h := by
  by_cases hread : tool = .read
  · subst hread
    refine wp_mono (wp_and (executeTool_spec htool hadmits) (executeTool_readBack htool)) ?_
    rintro r h' ⟨hw, new, rfl, hback⟩
    refine ⟨hw, fun audit since before c f bytes heq => ?_⟩
    have hsuffix := hq.suffix_before rfl heq
    have hmem : ⟨.facade (.readFile c f), .ok bytes⟩ ∈ new := by
      have hmem : ⟨.facade (.readFile c f), .ok bytes⟩ ∈ new ++ h := by
        rw [heq]
        exact mem_append_right since mem_cons_self
      rcases mem_append.1 hmem with hmem | hmem
      · exact hmem
      · cases hq _ hmem
    obtain ⟨new', hnew, hall⟩ := hw
    have hserves := hall _ (append_cancel_right hnew ▸ hmem)
    refine ⟨access, audit, htarget.trans hserves, hsourced.later hsuffix, ?_⟩
    rw [hback c f bytes hmem]
  · refine wp_mono (executeTool_spec htool hadmits) ?_
    intro r h' hw
    refine ⟨hw, fun audit => hw.filtered hq (fun c f heq => ?_) _⟩
    exact hread (toolTarget_readFile heq)

theorem executeBroker_mediated (transport : AccessTransport) (hr : Ready server agent access h)
    (hq : Quiet h) (htarget : access.target = ⟨.broker, none, none⟩) :
    wp (Mediated server agent) (executeBroker crates args)
      (fun _ h' => h <:+ h' ∧ ∀ result, Filtered crates transport result h') h := by
  unfold executeBroker
  rw [bind_eq, wp_bind, wp_attempt]
  have hcall : wp (Mediated server agent) (brokerCall crates args) (fun _ h' => h <:+ h' ∧ ∀ result,
        Filtered crates transport result h') h := by
    have hnone : h <:+ h ∧ ∀ result, Filtered crates transport result h := ⟨suffix_rfl, hq.filtered⟩
    refine wp_check (fun secretRef _ => ?_) fun _ _ => hnone
    refine wp_check (fun method _ => ?_) fun _ _ => hnone
    refine wp_check (fun url _ => ?_) fun _ _ => hnone
    refine sendBrokered_spec trivial (fun _ => trivial)
      (hr.lock.admits rfl (hq.cons rfl) htarget) ?_ ?_
    · intro r h' hw
      refine ⟨(suffix_cons _ h).trans (hw.suffix.trans (suffix_cons _ h')), fun result => ?_⟩
      exact (hw.filtered (hq.cons rfl) nofun result).cons rfl
    · exact ⟨(suffix_cons _ h).trans (suffix_cons _ _), ((hq.cons rfl).cons rfl).filtered⟩
  refine wp_mono hcall ?_
  intro r h' hpost
  cases r with
  | ok outcome | error e => exact hpost

theorem runTool_mediated
    (hr : Ready server agent access h) (hq : Quiet h) (htool : Tool.parse name = some tool)
    (htarget : access.target = toolTarget tool args) : wp (Mediated server agent)
      (runTool server crates name args transport access)
      (Answered server agent crates transport) h := by
  unfold runTool
  split
  · next hname =>
    have hbroker : access.target = ⟨.broker, none, none⟩ := by
      rw [hname] at htool
      cases htool
      exact htarget
    refine wp_seq (executeBroker_mediated transport hr hq hbroker) ?_
    intro r h' hpost
    cases r with
    | error e => exact ⟨.error, hpost.2 _⟩
    | ok outcome => exact conclude_answered (hr.toCleared.later hpost.1) fun _ => hpost.2 _
  · rw [bind_eq, wp_bind]
    refine wp_withHandle trivial (fun _ => trivial) ?_ ((hq.cons rfl).cons rfl).answered
    rw [wp_attempt]
    have hql : Quiet (⟨.lockHandle, true⟩ :: h) := hq.cons rfl
    refine wp_mono
      (executeTool_filtered (hr.lock.admits rfl hql htarget) htool hql hr.lock.sourced htarget) ?_
    rintro r h' ⟨hw, hfiltered⟩
    have hsuffix : h <:+ ⟨.unlockHandle, ()⟩ :: h' :=
      (suffix_cons _ h).trans (hw.suffix.trans (suffix_cons _ h'))
    exact conclude_answered (hr.toCleared.later hsuffix) fun audit => (hfiltered audit).cons rfl

theorem mediate_mediated (hq : Quiet h)
    (hunasked : Unasked h) (hsourced : Sourced access h) (htool : Tool.parse name = some tool)
    (htarget : access.target = toolTarget tool args) : wp (Mediated server agent)
      (mediate server crates name args transport agent access)
      (Answered server agent crates transport) h := by
  unfold mediate
  cases hscopes : enforceBound agent access with
  | error error => exact deny_mediated access error hq
  | ok _ =>
    -- with consent, when there is a controller to give it
    have hconsent : ∀ h' : List McpExchange, h <:+ h' → Quiet h' →
        (server.accessController → Consented access h') →
        (if server.accessController then
          [(⟨.authorize access, .ok ()⟩ : McpExchange)]
          else []).Sublist h' →
        wp (Mediated server agent) (do
          recordAudit server access .attempted none
          runTool server crates name args transport access)
          (Answered server agent crates transport) h' := by
      intro h' hsuffix hq' hcons hsub
      have hsourced' := hsourced.later hsuffix
      rw [bind_eq, wp_bind]
      refine wp_recordAudit (fun _ _ => ⟨trivial, trivial⟩) ?_ ?_ ?_
      · intro hnone
        refine runTool_mediated ⟨⟨hscopes, 0, ?_⟩, hsourced', hcons⟩ hq' htool htarget
        unfold stages
        rw [hnone]
        exact hsub
      · intro hsink t
        refine runTool_mediated ⟨⟨hscopes, t, ?_⟩, ?_, fun hc =>
          ((hcons hc).cons rfl).cons rfl⟩
          ((hq'.cons rfl).cons rfl) htool htarget
        · unfold stages
          rw [hsink]
          exact (hsub.cons _).cons_cons _
        · exact hsourced'.later ((suffix_cons _ h').trans (suffix_cons _ _))
      · intro _ _
        exact ((hq'.cons rfl).cons rfl).answered
    unfold authorizeAccess
    cases hcontroller : server.accessController with
    | false =>
      rw [hcontroller] at hconsent
      exact hconsent h suffix_rfl hq nofun (nil_sublist h)
    | true =>
      rw [hcontroller] at hconsent
      refine wp_ask_then ⟨hscopes, hunasked⟩ fun decision => ?_
      cases decision with
      | error error => exact deny_mediated access error (hq.cons rfl)
      | ok _ =>
        exact hconsent
          _ (suffix_cons _ h) (hq.cons rfl) (fun _ => .now hunasked) ((nil_sublist h).cons_cons _)

theorem callTool_wp (hq : Quiet h) (hunasked : Unasked h) : wp (Mediated server agent)
      (callTool server crates name args transport agent)
      (Answered server agent crates transport) h := by
  -- from the request on
  have hrequest : ∀ h : List McpExchange, Quiet h → Unasked h →
      wp (Mediated server agent) (do
        let request ← withHandle (buildAccessRequest crates name args transport)
        mediate server crates name args transport agent
          { request with agentId := agent.map ResolvedAgent.agentId })
        (Answered server agent crates transport) h := by
    intro h hq hunasked
    have hq' : Quiet (⟨.lockHandle, true⟩ :: h) := hq.cons rfl
    have hunasked' : Unasked (⟨.lockHandle, true⟩ :: h) := hunasked.cons rfl
    rw [bind_eq, wp_bind]
    refine wp_withHandle trivial (fun _ => trivial) ?_ ((hq.cons rfl).cons rfl).answered
    refine wp_mono (buildAccessRequest_spec fun c => ⟨rfl, nofun, nofun⟩) ?_
    intro r h' hpost
    have hquiet := (hpost.looked.quiet hq').cons (e := ⟨.unlockHandle, ()⟩) rfl
    cases r with
    | error e => exact hquiet.answered
    | ok request =>
      obtain ⟨hmode, tool, htool, htarget⟩ := hpost.request request rfl
      refine mediate_mediated hquiet ((hpost.looked.unasked hunasked').cons rfl) ?_ htool htarget
      exact hmode.sourced.later (suffix_cons _ h')
  unfold callTool
  rw [bind_eq, wp_bind]
  unfold limitRate
  cases hlimiter : server.rateLimiter with
  | false => exact hrequest h hq hunasked
  | true =>
    refine wp_ask_then trivial fun r => ?_
    cases r with
    | error e => exact (hq.cons rfl).answered
    | ok _ => exact hrequest _ (hq.cons rfl) (hunasked.cons rfl)

theorem countP_effectful {α : Type} {p q : McpM α} {Q : Except String α → List McpExchange → Prop}
    (hp : wp (Mediated server agent) p Q []) (hf : Follows p h q) : h.countP effectful ≤ 1 := by
  induction hf with
  | start => exact Nat.zero_le _
  | @ask h o k hf a ih =>
    rw [countP_cons]
    by_cases he : effectful (⟨o, a⟩ : McpExchange)
    · have hquiet : h.countP effectful = 0 := by
        rw [countP_eq_zero]
        have hG := hp.asks hf
        cases o with
        | facade op =>
          intro e hmem
          rw [hG.2.2 he e hmem]
          exact Bool.false_ne_true
        | _ => cases he
      rw [hquiet, if_pos he]
    · rw [if_neg he]
      exact ih

/-- Complete mediation, along every run of a tool call:

- the facade is asked, but for a mode, only for what a request names that
  the scopes accept, that was consented to and then recorded;
- the controller is asked only for requests the scopes accept;
- at most one operation has an effect;
- a value is returned only once the record of the outcome was accepted. -/
theorem callTool_mediated (server : Server) (crates : Crates) (name : String) (args : Value)
    (transport : AccessTransport) (agent : Option ResolvedAgent) (h : List McpExchange)
    (q : McpM Value) (hf : Follows (callTool server crates name args transport agent) h q) :
    (∀ op k, q = .ask (.facade op) k → op.mediated →
        ∃ access, op.Serves access.target ∧ Cleared server agent access h)
      ∧ (∀ access k, q = .ask (.authorize access) k → enforceBound agent access = .ok ())
      ∧ h.countP effectful ≤ 1
      ∧ (∀ value, q = .ret (.ok value) → server.auditSink → ∃ access timestamp detail before,
          h = ⟨.record (auditEvent timestamp access .allowed detail),
              .ok ()⟩ :: ⟨.clock, timestamp⟩ :: before
            ∧ Cleared server agent access before) := by
  have hwp : wp (Mediated server agent) (callTool server crates name args transport agent)
      (Answered server agent crates transport) [] :=
    callTool_wp (fun _ hmem => absurd hmem not_mem_nil) fun _ hmem => absurd hmem not_mem_nil
  refine ⟨?_, ?_, countP_effectful hwp hf, ?_⟩
  · rintro op k rfl hop
    obtain ⟨access, hserves, hready⟩ := (hwp.asks hf).2.1 hop
    exact ⟨access, hserves, hready.toCleared⟩
  · rintro access k rfl
    exact (hwp.asks hf).1
  · rintro value rfl hsink
    exact (hwp.returns hf).concluded value rfl hsink

namespace Sample

def emptyFacade : (op : FacadeOp) → op.Ans
  | .listContainers => .ok []
  | .listFiles _ => .ok []
  | .readFile _ _ => .error "not found"
  | .writeFile _ _ _ => .ok ()
  | .deleteFile _ _ => .error "not found"
  | .createContainer _ _ _ => .ok ()
  | .containerMode _ => .error "not found"
  | .destroyContainer _ => .error "not found"
  | .listAgents => .ok []
  | .importAgentsAtomically _ _ => .ok ⟨[], [], []⟩
  | .transitCreateKey name => .ok ⟨name, 1⟩
  | .transitList => .ok []
  | .transitEncrypt _ _ => .error "not found"
  | .transitDecrypt _ _ => .error "not found"
  | .sign _ _ => .error "not found"
  | .signingPublicKey _ => .error "not found"
  | .signingCreateKey name => .ok ⟨name, 1, ""⟩
  | .signingList => .ok []
  | .brokerCreate name _ allow injection => .ok ⟨name, allow, injection⟩
  | .brokerList => .ok []
  | .brokerEnabled => false
  | .custodyModeLabel => "passphrase"
  | .brokerRequest _ _ _ _ _ => .error "not found"

def consenting : (o : McpOp) → o.Ans
  | .checkRate _ => .ok ()
  | .lockHandle => true
  | .unlockHandle => ()
  | .facade op => emptyFacade op
  | .authenticate _ _ => .error "unknown agent"
  | .authorize _ => .ok ()
  | .record _ => .ok ()
  | .clock => 0

def plainCrates : Crates where
  b64Encode := fun _ => ""
  b64Decode := fun _ => .ok []
  sha256Hex := fun _ => ""
  toVec := fun _ => .ok []
  toText := fun _ => .ok ""
  fromStr := fun _ => .error "EOF while parsing a value"
  envelope := fun _ => .error "no envelope"
  brokerAllow := fun _ => .ok []
  brokerInjection := fun _ => .ok .bearerAuth
  headers := fun _ => .ok []
  redact := fun text => ⟨text, 0⟩
  ed25519Verify := fun _ _ _ => .ok false
  version := "0.1.0"
  toolDescriptors := fun _ => .array []

def desktopServer : Server where
  pairingSecret := "secret"
  accessController := true
  auditSink := true
  agentAuthenticator := true
  rateLimiter := false

def listing : McpM Value :=
  callTool desktopServer plainCrates "vault.list" .null .mcpWs none

end Sample

/-- A listing: six exchanges in, the containers are asked for, with the
consent and the attempt record behind; three more and it returns. -/
theorem callTool_mediated_listing : (∃ access, FacadeOp.listContainers.Serves access.target
      ∧ Cleared Sample.desktopServer none access (converse Sample.consenting Sample.listing 6).1)
      ∧ (converse Sample.consenting Sample.listing 10).2 = .ret (.ok (.array [])) :=
  ⟨(callTool_mediated Sample.desktopServer Sample.plainCrates "vault.list"
      .null .mcpWs none _ _
      (converse_follows Sample.consenting Sample.listing 6)).1
      .listContainers _ rfl rfl, rfl⟩

end SovereignVault.Mcp
