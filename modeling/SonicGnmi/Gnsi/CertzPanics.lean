import SonicGnmi.Gnsi.CertzCrl

/-!
# The messages on which the certificate service panics

A message from the wire may lack any of its parts.  Most of the fields are read through
accessors that take an absent message for an empty one; four reads are not, and each is a
panic when the part is absent: the parameters of a signing request, the certificate of a
trust bundle, the certificate of a parent in a chain, and the block of a revocation list
that is not in PEM.

* `ParentsAbsent`, `ChainPanics`, `ListsPanic` — when the loop over the parts gets to one
  that is absent;
* `UploadSafe` — no entity of an upload panics in the state in which it is reached;
* `processCertzRequest_no_panic_iff` — the requests that do not panic.
-/

namespace SonicGnmi.Gnsi

open Foundation Grpc

/-- The call panics. -/
def Panics {Value : Type} (result : Except Fault Value) : Prop :=
  ∃ reason, result = .error (.panic reason)

section Results

variable {Value Other : Type}

theorem not_panics_ok (value : Value) : ¬ Panics (.ok value : Except Fault Value) := by rintro ⟨_, ⟨⟩⟩

theorem not_panics_statusError (code : Code) (message : String) :
    ¬ Panics (statusError code message : Except Fault Value) := by rintro ⟨_, ⟨⟩⟩

theorem panics_error (fault : Fault) :
    Panics (.error fault : Except Fault Value) ↔ Panics (.error fault : Except Fault Other) := by
  constructor <;> rintro ⟨reason, h⟩
  all_goals exact ⟨reason, by rw [Except.error.inj h]⟩

theorem panics_wrap (fault : Fault) (code : Code) (head : String) :
    Panics (.error (fault.wrap code head) : Except Fault Value) ↔
      Panics (.error fault : Except Fault Other) := by
  cases fault with
  | status s | plain text => exact ⟨by rintro ⟨_, ⟨⟩⟩, by rintro ⟨_, ⟨⟩⟩⟩
  | panic reason => exact ⟨fun _ => ⟨reason, rfl⟩, fun _ => ⟨reason, rfl⟩⟩

theorem panics_withCode (fault : Fault) (code : Code) :
    Panics (.error (fault.withCode code) : Except Fault Value) ↔
      Panics (.error fault : Except Fault Other) := by
  cases fault with
  | status s | plain text => exact ⟨by rintro ⟨_, ⟨⟩⟩, by rintro ⟨_, ⟨⟩⟩⟩
  | panic reason => exact ⟨fun _ => ⟨reason, rfl⟩, fun _ => ⟨reason, rfl⟩⟩

end Results

/-! ## Loops -/

section Loops

variable {Item : Type} {passes stops : Item → Prop}

/-- A loop that goes on as long as items pass gets to one at which it stops. -/
def GetsTo (passes stops : Item → Prop) (items : List Item) : Prop :=
  ∃ before item after, items = before ++ item :: after ∧ (∀ earlier ∈ before, passes earlier) ∧
    stops item

theorem not_getsTo_nil : ¬ GetsTo passes stops [] := by
  rintro ⟨before, item, after, hsplit, -⟩
  cases before <;> cases hsplit

theorem getsTo_cons (item : Item) (rest : List Item) : GetsTo passes stops (item :: rest) ↔
      stops item ∨ (passes item ∧ GetsTo passes stops rest) := by
  constructor
  · rintro ⟨before, found, after, hsplit, hbefore, hfound⟩
    cases before with
    | nil =>
      cases hsplit
      exact .inl hfound
    | cons first before =>
      obtain ⟨rfl, rfl⟩ := List.cons.inj hsplit
      exact .inr ⟨hbefore _ List.mem_cons_self, before, found, after, rfl,
        fun other hother => hbefore other (List.mem_cons_of_mem _ hother), hfound⟩
  · rintro (hitem | ⟨hitem, before, found, after, rfl, hbefore, hfound⟩)
    · exact ⟨[], item, rest, rfl, by rintro _ ⟨⟩, hitem⟩
    · exact ⟨item :: before, found, after, rfl, List.forall_mem_cons.2 ⟨hitem, hbefore⟩, hfound⟩

end Loops

/-! ## Certificate chains -/

/-- The loop over the parents gets to one without a certificate. -/
def ParentsAbsent : List (Option CertificateMsg) → Prop :=
  GetsTo (fun parent => parent.any (fun msg => msg.x509 && msg.pem) = true) (· = none)

theorem readParents_panics_iff (parents : List (Option CertificateMsg)) :
    Panics (readParents parents) ↔ ParentsAbsent parents := by
  induction parents with
  | nil => exact ⟨by rintro ⟨_, ⟨⟩⟩, fun h => (not_getsTo_nil h).elim⟩
  | cons parent rest ih =>
    rw [ParentsAbsent, getsTo_cons]
    cases parent with
    | none => exact ⟨fun _ => .inl rfl, fun _ => ⟨_, rfl⟩⟩
    | some msg =>
      obtain ⟨x509, pem, certificate, privateKey⟩ := msg
      rw [readParents]
      cases x509 with
      | false => exact ⟨by rintro ⟨_, ⟨⟩⟩, by rintro (h | ⟨h, -⟩) <;> cases h⟩
      | true =>
        cases pem with
        | false => exact ⟨by rintro ⟨_, ⟨⟩⟩, by rintro (h | ⟨h, -⟩) <;> cases h⟩
        | true =>
          rw [or_iff_right (Option.some_ne_none _)]
          refine Iff.trans ?_ (ih.trans (and_iff_right (by rfl)).symm)
          cases readParents rest with
          | error fault => exact panics_error fault
          | ok text => exact iff_of_false (not_panics_ok _) (not_panics_ok _)

/-- The certificate of the chain itself and its key are there. -/
def CertificateChain.complete (generatedKey : Option String) (chain : CertificateChain) : Bool :=
  chain.certificate.any fun msg =>
    msg.x509 && msg.pem && msg.certificate.isSome && (msg.privateKey.or generatedKey).isSome

theorem readCertChain_panics_iff (generatedKey : Option String) (chain : CertificateChain) :
    Panics (readCertChain generatedKey chain) ↔
      chain.complete generatedKey = true ∧ ParentsAbsent chain.parents := by
  obtain ⟨certificate, parents⟩ := chain
  unfold readCertChain CertificateChain.complete
  cases certificate with
  | none => exact ⟨by rintro ⟨_, ⟨⟩⟩, by rintro ⟨⟨⟩, _⟩⟩
  | some msg =>
    obtain ⟨x509, pem, certificate, privateKey⟩ := msg
    dsimp only [Option.any_some]
    cases x509 with
    | false => exact ⟨by rintro ⟨_, ⟨⟩⟩, by rintro ⟨⟨⟩, _⟩⟩
    | true =>
      cases pem with
      | false => exact ⟨by rintro ⟨_, ⟨⟩⟩, by rintro ⟨⟨⟩, _⟩⟩
      | true =>
        cases certificate with
        | none => exact ⟨by rintro ⟨_, ⟨⟩⟩, by rintro ⟨⟨⟩, _⟩⟩
        | some certificate =>
          cases privateKey.or generatedKey with
          | none => exact ⟨by rintro ⟨_, ⟨⟩⟩, by rintro ⟨⟨⟩, _⟩⟩
          | some key =>
            refine Iff.trans ?_
              ((readParents_panics_iff parents).trans (and_iff_right (by rfl)).symm)
            cases readParents parents with
            | error fault => exact panics_error fault
            | ok text => exact iff_of_false (not_panics_ok _) (not_panics_ok _)

/-! ## Revocation lists -/

/-- The list can be written: it is not the directory, and links lead somewhere. -/
def Writable (fs : FileSystem) (path : String) (crl : CrlMsg) : Prop :=
  ¬ fs.loc (joinPath path crl.id) <+: fs.loc path ∧
    (fs.follow (joinPath path crl.id)).isSome = true

/-- The checks before the list is decoded pass, and it is not in PEM. -/
def CrlMsg.NotPem (parse : String → CrlParse) (crl : CrlMsg) : Prop :=
  crl.x509 = true ∧ crl.pem = true ∧ crl.list ≠ "" ∧ parse crl.list = .notPem

variable (parse : String → CrlParse)

theorem checkCrl_panics_iff (index : Nat) (crl : CrlMsg) :
    Panics (checkCrl parse index crl) ↔ crl.NotPem parse := by
  unfold checkCrl CrlMsg.NotPem
  cases crl.x509 with
  | false => exact ⟨by rintro ⟨_, ⟨⟩⟩, by rintro ⟨⟨⟩, _⟩⟩
  | true =>
    cases crl.pem with
    | false => exact ⟨by rintro ⟨_, ⟨⟩⟩, by rintro ⟨_, ⟨⟩, _⟩⟩
    | true =>
      by_cases hlist : crl.list = ""
      · rw [if_neg (by decide), if_neg (by decide), if_pos hlist]
        exact ⟨by rintro ⟨_, ⟨⟩⟩, fun h => (h.2.2.1 hlist).elim⟩
      rw [if_neg (by decide), if_neg (by decide), if_neg hlist]
      cases hparse : parse crl.list with
      | notPem => exact ⟨fun _ => ⟨rfl, rfl, hlist, rfl⟩, fun _ => ⟨_, rfl⟩⟩
      | invalid e | valid => exact ⟨by rintro ⟨_, ⟨⟩⟩, by rintro ⟨_, _, _, ⟨⟩⟩⟩

variable (fs : FileSystem) (path : String)

/-- A write of a list succeeds if the list can be written, and what can be written stays
the same. -/
theorem writeCrl_cases (crl : CrlMsg) :
    (¬ Writable fs path crl ∧ ∃ status after,
      writeCrl fs path crl = (.error (.status status), after)) ∨
    (Writable fs path crl ∧ ∃ after, writeCrl fs path crl = (.ok (), after) ∧
      ∀ other, Writable after path other ↔ Writable fs path other) := by
  unfold writeCrl
  by_cases hdir : fs.loc (joinPath path crl.id) <+: fs.loc path
  · rw [if_pos hdir]
    exact .inl ⟨fun h => h.1 hdir, _, _, rfl⟩
  rw [if_neg hdir]
  unfold attemptWrite FileSystem.writeFile
  cases hfollow : fs.follow (joinPath path crl.id) with
  | none =>
    refine .inl ⟨fun h => ?_, _, _, rfl⟩
    have hsome := h.2
    rw [hfollow] at hsome
    cases hsome
  | some place =>
    refine .inr ⟨⟨hdir, by rw [hfollow]; rfl⟩, _, rfl, fun other => ?_⟩
    have hsame : ∀ fuel loc, (fs.set place (some (.file crl.list))).resolve fuel loc =
        fs.resolve fuel loc := fs.resolve_set (fs.resolve_not_link hfollow) fun _ => by rintro ⟨_, ⟨⟩⟩
    unfold Writable FileSystem.follow
    rw [hsame]
    rfl

/-- The loop gets to a list that is not in PEM. -/
def ListsPanic (parse : String → CrlParse) (fs : FileSystem) (path : String) : List CrlMsg → Prop :=
  GetsTo (fun crl => checkCrl parse 0 crl = .ok () ∧ Writable fs path crl) (CrlMsg.NotPem parse)

variable (crls : List CrlMsg)

theorem checkAndWrite_panics_iff :
    ∀ (fs : FileSystem) (index : Nat),
      Panics (checkAndWrite parse path fs index crls).1 ↔ ListsPanic parse fs path crls := by
  induction crls with
  | nil => exact fun fs index => ⟨by rintro ⟨_, ⟨⟩⟩, fun h => (not_getsTo_nil h).elim⟩
  | cons crl rest ih =>
    intro fs index
    rw [ListsPanic, getsTo_cons, ← checkCrl_panics_iff parse index, checkAndWrite]
    cases hcheck : checkCrl parse index crl with
    | error fault =>
      rw [or_iff_left]
      rintro ⟨⟨hok, -⟩, -⟩
      rw [checkCrl_ok_index hok index] at hcheck
      cases hcheck
    | ok passed =>
      rw [or_iff_right (not_panics_ok _), and_iff_right (checkCrl_ok_index hcheck 0)]
      obtain ⟨hnot, status, after, hwrite⟩ | ⟨hwritable, after, hwrite, hsame⟩ :=
        writeCrl_cases fs path crl <;> rw [hwrite]
      · exact ⟨by rintro ⟨_, ⟨⟩⟩, fun h => (hnot h.1).elim⟩
      · rw [ih, and_iff_right hwritable]
        unfold ListsPanic
        simp [hsame]

theorem writeCrls_not_panics : ∀ fs : FileSystem, ¬ Panics (writeCrls path fs crls).1 := by
  induction crls with
  | nil => exact fun fs => by rintro ⟨_, ⟨⟩⟩
  | cons crl rest ih =>
    intro fs
    rw [writeCrls]
    obtain ⟨-, status, after, hwrite⟩ | ⟨-, after, hwrite, -⟩ := writeCrl_cases fs path crl <;>
      rw [hwrite]
    · rintro ⟨_, ⟨⟩⟩
    · exact ih after

theorem rotateCRLBundle_panics_iff :
    Panics (rotateCRLBundle parse fs crls path).1 ↔ ListsPanic parse fs path crls := by
  rw [rotateCRLBundle]
  by_cases hempty : crls = []
  · subst hempty
    exact ⟨by rintro ⟨_, ⟨⟩⟩, fun h => (not_getsTo_nil h).elim⟩
  · rw [if_neg hempty, ← checkAndWrite_panics_iff parse path crls fs 0]
    rcases checkAndWrite parse path fs 0 crls with ⟨_ | _, after⟩
    · exact Iff.rfl
    · exact iff_of_false (writeCrls_not_panics path crls _) (not_panics_ok _)

/-! ## Entities -/

theorem saveFile_not_panics (name data : String) : ¬ Panics (saveFile fs name data).1 := by
  unfold saveFile
  split
  all_goals rintro ⟨_, ⟨⟩⟩

theorem saveAuthPolicy_not_panics (path serialized : String) :
    ¬ Panics (saveAuthPolicy fs path serialized).1 := by
  rw [saveAuthPolicy]
  cases backupAuthPolicy fs path with
  | error e => rintro ⟨_, ⟨⟩⟩
  | ok fs =>
    have hsave := saveFile_not_panics fs path serialized
    dsimp only
    rcases hresult : saveFile fs path serialized with ⟨fault | _, after⟩
    · rw [hresult] at hsave
      exact hsave
    · rintro ⟨_, ⟨⟩⟩

/-- The part of an entity that is read without a test is absent. -/
def BodyPanics (config : CertzConfig) (fs : FileSystem) (generatedKey : Option String)
    (profileID : String) : EntityBody → Prop
  | .certificateChain chain =>
    chain.complete generatedKey = true ∧ ParentsAbsent chain.parents
  | .trustBundle certificate => certificate = none
  | .crlBundle crls => ListsPanic config.parseCrl fs (config.crlPath profileID) crls
  | .authenticationPolicy _ => False
  | .other => False

section Service

variable {config : CertzConfig} {st : CertzState} {profileID : String}

theorem saveEntities_panics_iff (generatedKey : Option String) (msg : EntityMsg)
    {eType : CertzType} (htype : msg.body.eType = some eType) (t : Nat) :
    Panics (saveEntities config fs generatedKey msg
      (newGenericEntity config eType profileID msg t)).1 ↔
      BodyPanics config fs generatedKey profileID msg.body := by
  rw [saveEntities]
  cases hbody : msg.body with
  | certificateChain chain =>
    rw [BodyPanics, ← readCertChain_panics_iff]
    dsimp only
    rcases hread : readCertChain generatedKey chain with fault | ⟨cert, key⟩
    · exact panics_error fault
    refine iff_of_false ?_ (not_panics_ok _)
    dsimp only
    generalize (newGenericEntity config eType profileID msg t).keyPath = keyPath
    have hkey := saveFile_not_panics fs keyPath key
    rcases hsave : saveFile fs keyPath key with ⟨fault | _, after⟩
    · rw [hsave] at hkey
      exact hkey
    · exact saveFile_not_panics after _ _
  | trustBundle certificate =>
    cases certificate with
    | none => exact ⟨fun _ => rfl, fun _ => ⟨_, rfl⟩⟩
    | some tb =>
      refine iff_of_false ?_ (by rintro ⟨_, ⟨⟩⟩)
      dsimp only
      split
      · rintro ⟨_, ⟨⟩⟩
      split
      · rintro ⟨_, ⟨⟩⟩
      · split
        · rintro ⟨_, ⟨⟩⟩
        · exact saveFile_not_panics fs _ _
  | crlBundle crls =>
    rw [hbody] at htype
    cases htype
    rw [BodyPanics, ← rotateCRLBundle_panics_iff]
    dsimp only [newGenericEntity]
    rcases rotateCRLBundle config.parseCrl fs crls (config.crlPath profileID) with ⟨_ | _, after⟩
    · exact panics_withCode _ _
    · exact Iff.rfl
  | authenticationPolicy serialized => exact iff_of_false (saveAuthPolicy_not_panics fs _ _) id
  | other => exact iff_of_false (by rintro ⟨_, ⟨⟩⟩) id

theorem activateEntity_not_panics (st : CertzState) (entity : GenericEntity) :
    ¬ Panics (activateEntity config st profileID entity).1 := by
  rw [activateEntity]
  cases st.profiles.lookup profileID with
  | none => rintro ⟨_, ⟨⟩⟩
  | some profile =>
    rcases setLinks config st.host.fs entity.eType entity with ⟨_ | _, after⟩
    all_goals rintro ⟨_, ⟨⟩⟩

/-- The checks of an upload pass, up to the save. -/
def EntityMsg.Admitted (config : CertzConfig) (st : CertzState) (overwrite : Bool)
    (profileID : String) (msg : EntityMsg) : Prop :=
  msg.createdOn ≠ 0 ∧ msg.version ≠ "" ∧
    (msg.body.eType = some .crl → config.certCRLConfig ≠ "") ∧
    (overwrite = true ∨ ∀ profile eType, st.profiles.lookup profileID = some profile →
      msg.body.eType = some eType → msg.version ≠ (profile.active.get eType).version)

/-- An entity panics if it passes the checks and its part is absent. -/
def EntityPanics (config : CertzConfig) (st : CertzState) (overwrite : Bool) (profileID : String)
    (msg : EntityMsg) : Prop :=
  msg.Admitted config st overwrite profileID ∧
    BodyPanics config st.host.fs ((st.profiles.lookup profileID).bind (·.generatedKey)) profileID
      msg.body

theorem entityAlreadyActive_ok_iff (msg : EntityMsg) (eType : CertzType) (t : Nat) :
    entityAlreadyActive st profileID (newGenericEntity config eType profileID msg t) = .ok () ↔
      ∀ profile, st.profiles.lookup profileID = some profile →
        msg.version ≠ (profile.active.get eType).version := by
  have hversion : (newGenericEntity config eType profileID msg t).version = msg.version := by
    cases eType <;> rfl
  have htype : (newGenericEntity config eType profileID msg t).eType = eType := by
    cases eType <;> rfl
  rw [entityAlreadyActive, hversion, htype]
  cases st.profiles.lookup profileID with
  | none => exact ⟨fun _ _ h => (Option.some_ne_none _ h.symm).elim, fun _ => rfl⟩
  | some profile =>
    dsimp only
    by_cases hsame : msg.version = (profile.active.get eType).version
    · rw [if_pos hsame]
      exact ⟨by rintro ⟨_, ⟨⟩⟩, fun h => (h profile rfl hsame).elim⟩
    · rw [if_neg hsame]
      exact ⟨fun _ other hother => Option.some.inj hother ▸ hsame, fun _ => rfl⟩

theorem entityAlreadyActive_not_panics (entity : GenericEntity) :
    ¬ Panics (entityAlreadyActive st profileID entity) := by
  unfold entityAlreadyActive
  split
  · exact not_panics_ok _
  · split
    · exact not_panics_statusError _ _
    · exact not_panics_ok _

theorem uploadEntity_panics_iff (overwrite : Bool) (msg : EntityMsg) :
    Panics (uploadEntity config st overwrite profileID msg).1 ↔
      EntityPanics config st overwrite profileID msg := by
  unfold uploadEntity EntityPanics EntityMsg.Admitted
  by_cases hcreated : msg.createdOn = 0
  · rw [if_pos hcreated]
    exact iff_of_false (by rintro ⟨_, ⟨⟩⟩) fun h => h.1.1 hcreated
  by_cases hversion : msg.version = ""
  · rw [if_neg hcreated, if_pos hversion]
    exact iff_of_false (by rintro ⟨_, ⟨⟩⟩) fun h => h.1.2.1 hversion
  by_cases hcrl : msg.body.eType = some .crl ∧ config.certCRLConfig = ""
  · rw [if_neg hcreated, if_neg hversion, if_pos hcrl]
    exact iff_of_false (by rintro ⟨_, ⟨⟩⟩) fun h => h.1.2.2.1 hcrl.1 hcrl.2
  rw [if_neg hcreated, if_neg hversion, if_neg hcrl]
  cases htype : msg.body.eType with
  | none =>
    refine iff_of_false (by rintro ⟨_, ⟨⟩⟩) fun h => ?_
    cases hbody : msg.body with
    | other =>
      rw [hbody] at h
      exact h.2
    | certificateChain | trustBundle | crlBundle | authenticationPolicy =>
      rw [hbody] at htype
      cases htype
  | some eType =>
    dsimp only
    generalize st.clock + msg.elapsed + 1 = t
    generalize htest : (if overwrite = true then (.ok () : Except Fault Unit) else
      entityAlreadyActive { st with clock := t } profileID
        (newGenericEntity config eType profileID msg t)) = test
    have hadmitted : test = .ok () ↔ (overwrite = true ∨ ∀ profile eType',
        st.profiles.lookup profileID = some profile → some eType = some eType' →
          msg.version ≠ (profile.active.get eType').version) := by
      rw [← htest]
      cases overwrite with
      | true => exact ⟨fun _ => .inl rfl, fun _ => rfl⟩
      | false =>
        rw [if_neg (by decide), entityAlreadyActive_ok_iff, or_iff_right (by decide)]
        exact ⟨fun h profile _ hprofile htype => Option.some.inj htype ▸ h profile hprofile,
          fun h profile hprofile => h profile eType hprofile rfl⟩
    have hsafe : ¬ Panics test := by
      rw [← htest]
      split
      · exact not_panics_ok _
      · exact entityAlreadyActive_not_panics _
    cases test with
    | error fault => exact iff_of_false hsafe fun h => nomatch hadmitted.2 h.1.2.2.2
    | ok passed =>
      have hchecks := hadmitted.1 rfl
      have hsave : Panics (saveEntities config st.host.fs
          ((st.profiles.lookup profileID).bind (·.generatedKey)) msg
          (newGenericEntity config eType profileID msg t)).1 ↔ _ :=
        saveEntities_panics_iff st.host.fs _ msg htype t
      rw [and_iff_right ⟨hcreated, hversion, fun h hnone => hcrl ⟨htype.trans h, hnone⟩,
        hchecks⟩, ← hsave]
      rcases saveEntities config st.host.fs
        ((st.profiles.lookup profileID).bind (·.generatedKey)) msg
        (newGenericEntity config eType profileID msg t) with ⟨fault | _, fs⟩
      · exact panics_wrap _ _ _
      refine iff_of_false ?_ (not_panics_ok _)
      dsimp only
      have hactivate : ¬ Panics (activateEntity config
          { st with clock := t, host := { st.host with fs := fs } } profileID
          (newGenericEntity config eType profileID msg t)).1 :=
        activateEntity_not_panics _ _
      rcases hresult : activateEntity config
        { st with clock := t, host := { st.host with fs := fs } } profileID
        (newGenericEntity config eType profileID msg t) with ⟨fault | _, next⟩
      · rw [hresult] at hactivate
        exact fun h => hactivate ((panics_wrap _ _ _).1 h)
      · exact not_panics_ok _

/-- No entity of an upload panics in the state in which the loop gets to it. -/
def UploadSafe (config : CertzConfig) (overwrite : Bool) (profileID : String) :
    CertzState → List EntityMsg → Prop
  | _, [] => True
  | st, msg :: rest =>
    ¬ EntityPanics config st overwrite profileID msg ∧
      ∀ next, uploadEntity config st overwrite profileID msg = (.ok (), next) →
        UploadSafe config overwrite profileID next rest

theorem uploadEntities_panics_iff (overwrite : Bool) (msgs : List EntityMsg) :
    ∀ st : CertzState, Panics (uploadEntities config overwrite profileID st msgs).1 ↔
      ¬ UploadSafe config overwrite profileID st msgs := by
  induction msgs with
  | nil => exact fun st => ⟨by rintro ⟨_, ⟨⟩⟩, fun h => (h trivial).elim⟩
  | cons msg rest ih =>
    intro st
    rw [uploadEntities, UploadSafe, ← uploadEntity_panics_iff]
    rcases uploadEntity config st overwrite profileID msg with ⟨fault | _, next⟩
    · constructor
      · exact fun h hsafe => hsafe.1 h
      · intro h
        by_contra hpanics
        exact h ⟨hpanics, by rintro _ ⟨⟩⟩
    · rw [ih]
      exact not_congr ⟨fun h => ⟨not_panics_ok _, fun other hother => (Prod.mk.inj hother).2 ▸ h⟩,
        fun h => h.2 next rfl⟩

/-- No part of the request that is read without a test is absent. -/
def RequestSafe (config : CertzConfig) (st : CertzState) (profileID : String) (overwrite : Bool) :
    CertzBody → Prop
  | .generateCsr suite _ => suite.isSome = true
  | .certificates entities => UploadSafe config overwrite profileID st entities
  | .other _ => True

theorem doGenerateCsr_panics_iff (profile : CertzProfile) (suite : Option CsrSuite)
    (generated : Except Status String) :
    Panics (doGenerateCsr profile suite generated) ↔ suite = none := by
  cases suite with
  | none => exact ⟨fun _ => rfl, fun _ => ⟨_, rfl⟩⟩
  | some suite =>
    refine iff_of_false ?_ (Option.some_ne_none _)
    unfold doGenerateCsr
    dsimp only
    split
    · exact not_panics_statusError _ _
    split
    · exact not_panics_statusError _ _
    · cases generated with
      | error status | ok key => rintro ⟨_, ⟨⟩⟩

/-- The requests that do not panic: those for a profile that does not exist, and those
without an absent part that is read. -/
theorem processCertzRequest_no_panic_iff (config : CertzConfig) (st : CertzState)
    (profileID : String) (body : CertzBody) (overwrite : Bool) :
    (∀ reason, (processCertzRequest config st profileID body overwrite).1 ≠
      .error (.panic reason)) ↔
      st.profiles.lookup profileID = none ∨ RequestSafe config st profileID overwrite body := by
  have hpanics : Panics (processCertzRequest config st profileID body overwrite).1 ↔
      ¬ (st.profiles.lookup profileID = none ∨ RequestSafe config st profileID overwrite body) := by
    rw [processCertzRequest]
    cases hprofile : st.profiles.lookup profileID with
    | none => exact iff_of_false (not_panics_statusError _ _) fun h => h (.inl rfl)
    | some profile =>
      rw [or_iff_right (Option.some_ne_none _)]
      cases body with
      | generateCsr suite generated =>
        have hcsr := doGenerateCsr_panics_iff profile suite generated
        rw [RequestSafe, Option.not_isSome_iff_eq_none, ← hcsr]
        dsimp only
        cases doGenerateCsr profile suite generated with
        | error fault => exact panics_error fault
        | ok next => exact iff_of_false (not_panics_ok _) (not_panics_ok _)
      | certificates entities =>
        cases entities with
        | nil => exact iff_of_false (not_panics_statusError _ _) fun h => h trivial
        | cons msg rest => exact uploadEntities_panics_iff overwrite (msg :: rest) st
      | other typeName =>
        exact iff_of_false (not_panics_statusError _ _) fun h => h trivial
  rw [← not_exists]
  exact not_iff_comm.1 hpanics.symm

end Service

def uploadOf (body : EntityBody) : CertzBody :=
  .certificates [{ createdOn := 1, version := "V2", body := body }]

/-- A signing request without parameters, a trust bundle without a certificate, a chain with
a parent without a certificate, and a revocation list that is not in PEM. -/
def incompleteBodies : List CertzBody :=
  [.generateCsr none (.ok "key"), uploadOf (.trustBundle none), uploadOf (.certificateChain
      { certificate := some { certificate := some "certificate", privateKey := some "key" }
        parents := [none] }),
    uploadOf (.crlBundle [{ x509 := true, pem := true, id := "list", list := "not in PEM" }])]

theorem incomplete_requests_panic :
    incompleteBodies.map (fun body =>
      (processCertzRequest { keysConfig with parseCrl := fun _ => .notPem }
        (firstStart "/keys/ca.crt") defaultProfile body false).1) =
      List.replicate 4 (.error (.panic "invalid memory address or nil pointer dereference")) := by
  decide +kernel

end SonicGnmi.Gnsi
