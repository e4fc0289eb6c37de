import Epistle.Interleaving.Machine
import Epistle.Oauth.Server

/-!
# What tokens are given out for

Any number of clients send requests to the authorization server, in any order and at any times; the
clock may go back. What they send and are answered is recorded, the device flow and the
authorization code flow each in a log of its own, the latest record first. No other thing about the
server is used to say when its tokens are right (`DeviceLog`, `CodeLog`): every record of a token
must be justified by those before it.

Random codes are new: a device code, a user code or an authorization code is drawn once.

A token for a device code is for the account of the latest approval. An authorization code is good
for one request with a verifier; requests without one are refused before the code is looked at, so a
code can still be redeemed after them (`redeemed_after_empty`).
-/

namespace Epistle.Oauth

open TextFormat Smtp Interleaving
open List (mem_cons mem_cons_of_mem)

/-! ## Logs -/

/-- What is seen of device grants. -/
inductive DeviceRecord
  | started (deviceCode userCode : Text) (expiry : ℕ)
  /-- Somebody's credentials were accepted in an approval. -/
  | approved (userCode account : Text)
  | token (deviceCode token : Text) (now : ℕ)
  deriving DecidableEq

/-- What is seen of authorization codes. -/
inductive CodeRecord
  /-- Somebody has authenticated, for a challenge. -/
  | created (code account challenge : Text) (expiry : ℕ)
  | presented (code verifier : Text)
  | token (code verifier token : Text) (now : ℕ)
  deriving DecidableEq

def DeviceRecord.approvalOf (userCode : Text) : DeviceRecord → Option Text
  | .approved code account => if code = userCode then some account else none
  | _ => none

def Names (crypto : Crypto) (token account : Text) : Prop :=
  ∃ claims : Claims, crypto.sign claims = some token ∧ claims.sub = account

/-- What was recorded before a token justifies it: the grant was started and has not expired, the
account is that of its latest approval, and there has been no token for it. -/
def DeviceRecord.Justified (crypto : Crypto) (log : List DeviceRecord) : DeviceRecord → Prop
  | .token deviceCode text now => ∃ userCode expiry account,
      .started deviceCode userCode expiry ∈ log ∧ now < expiry ∧
      log.findSome? (approvalOf userCode) = some account ∧ Names crypto text account ∧
      ∀ text' now', .token deviceCode text' now' ∉ log
  | _ => True

/-- What was recorded before a token justifies it: the code was created for the account and has not
expired, the verifier is that of its challenge, there has been no token for it, and it has not been
presented with any verifier since. -/
def CodeRecord.Justified (crypto : Crypto) (log : List CodeRecord) : CodeRecord → Prop
  | .token code verifier text now => ∃ account challenge expiry later earlier,
      log = later ++ .created code account challenge expiry :: earlier ∧ now < expiry ∧
      crypto.s256 verifier = challenge ∧ Names crypto text account ∧
      (∀ verifier' text' now', .token code verifier' text' now' ∉ log) ∧
      ∀ verifier', verifier' ≠ [] → .presented code verifier' ∉ later
  | _ => True

/-- Every record is justified by those before it. -/
def DeviceLog (crypto : Crypto) : List DeviceRecord → Prop
  | [] => True
  | record :: log => record.Justified crypto log ∧ DeviceLog crypto log

@[inherit_doc DeviceLog]
def CodeLog (crypto : Crypto) : List CodeRecord → Prop
  | [] => True
  | record :: log => record.Justified crypto log ∧ CodeLog crypto log

/-! ## Requests -/

/-- A request, with the random codes that the server draws for it. -/
inductive Request
  | deviceAuthorization (fields : Fields) (deviceCode userCode : Option Text)
  | deviceApprove (fields : Fields) (authorization : Option Text)
  | authorize (fields : Fields) (authorization : Option Text) (code : Option Text)
  | token (fields : Fields)

/-- A request that comes at some time, when the directory is as it is then. -/
structure Event where
  now : ℕ
  directory : Directory
  request : Request

def AuthzServer.handle (crypto : Crypto) (e : Event) (server : AuthzServer) : Step :=
  match e.request with
  | .deviceAuthorization fields deviceCode userCode =>
    server.deviceAuthorization fields deviceCode userCode e.now
  | .deviceApprove fields authorization =>
    server.deviceApprove fields
      (authenticated crypto.primitives e.now e.directory authorization fields) e.now
  | .authorize fields authorization code =>
    server.authorize fields
      (authenticated crypto.primitives e.now e.directory authorization fields) code
      e.now
  | .token fields => server.token crypto fields e.now

def Response.issued : Response → Option Text
  | .token text _ => some text
  | _ => none

/-- What a request and its answer show of device grants. -/
def deviceRecords (crypto : Crypto) (e : Event) (response : Response) : List DeviceRecord :=
  match e.request, response with
  | .deviceAuthorization _ _ _, .device deviceCode userCode _ _ expiresIn _ =>
    [.started deviceCode userCode (e.now + expiresIn)]
  | .deviceApprove fields authorization, .approved =>
    ((authenticated crypto.primitives e.now e.directory authorization fields).map fun account ↦
      DeviceRecord.approved (field fields "user_code") account).toList
  | .token fields, response =>
    if fields.lookup "grant_type".toList = some AuthzServer.deviceCodeGrant then
      (response.issued.map fun token ↦
        DeviceRecord.token (field fields "device_code") token e.now).toList
    else []
  | _, _ => []

/-- What a request and its answer show of authorization codes. A code is presented in a request for
a token whatever the answer is. -/
def codeRecords (crypto : Crypto) (e : Event) (response : Response) : List CodeRecord :=
  match e.request with
  | .authorize fields authorization _ =>
    match response, authenticated crypto.primitives e.now e.directory authorization fields with
    | .code code _, some account =>
      [.created code account (field fields "code_challenge") (e.now + codeTtlSecs)]
    | _, _ => []
  | .token fields =>
    if fields.lookup "grant_type".toList = some "authorization_code".toList then
      let code := field fields "code"
      let verifier := field fields "code_verifier"
      CodeRecord.presented code verifier ::
        (response.issued.map fun token ↦ CodeRecord.token code verifier token e.now).toList
    else []
  | _ => []

structure World where
  server : AuthzServer
  deviceLog : List DeviceRecord
  codeLog : List CodeRecord

/-- A server that has just been started. -/
def World.start (issuer audience : Text) : World := ⟨⟨issuer, audience, ∅, ∅⟩, [], []⟩

/-- The codes that are drawn for a request are new. -/
def Fresh (w : World) : Request → Prop
  | .deviceAuthorization _ deviceCode userCode =>
    (∀ drawn ∈ deviceCode, ∀ user expiry, .started drawn user expiry ∉ w.deviceLog) ∧
      ∀ drawn ∈ userCode, ∀ code expiry, .started code drawn expiry ∉ w.deviceLog
  | .authorize _ _ code =>
    ∀ drawn ∈ code, ∀ account challenge expiry, .created drawn account challenge expiry ∉ w.codeLog
  | _ => True

def machine (crypto : Crypto) : Machine World Event where
  enabled w e := Fresh w e.request
  step w e :=
    let r := w.server.handle crypto e
    ⟨r.2, deviceRecords crypto e r.1 ++ w.deviceLog, codeRecords crypto e r.1 ++ w.codeLog⟩

section

variable {α : Type} {table : Table α} {key k : Text} {value : α}

theorem lookup_of_insert {new : α} (h : (table.insert key new).lookup k = some value) :
    k = key ∧ value = new ∨ k ≠ key ∧ table.lookup k = some value := by
  by_cases hk : k = key
  · subst hk
    exact .inl ⟨rfl, Option.some.inj (h.symm.trans (AList.lookup_insert _))⟩
  · exact .inr ⟨hk, (AList.lookup_insert_ne hk).symm.trans h⟩

theorem lookup_of_erase
    (h : (table.erase key).lookup k = some value) : k ≠ key ∧ table.lookup k = some value := by
  have hk : k ≠ key := by
    rintro rfl
    rw [AList.lookup_erase] at h
    cases h
  rw [AList.lookup_erase_ne hk] at h
  exact ⟨hk, h⟩

end

/-! ## Device grants -/

structure DeviceInv (crypto : Crypto) (devices : Table DeviceGrant) (log : List DeviceRecord) :
    Prop where
  started : ∀ code grant, devices.lookup code = some grant →
    .started code grant.userCode grant.expiresAt ∈ log
  approved : ∀ code grant, devices.lookup code = some grant →
    log.findSome? (DeviceRecord.approvalOf grant.userCode) = grant.approvedAccount
  pending : ∀ code grant, devices.lookup code = some grant →
    ∀ token now, .token code token now ∉ log
  unique : ∀ code code' user expiry expiry', .started code user expiry ∈ log →
    .started code' user expiry' ∈ log → code = code'
  known : ∀ user account, .approved user account ∈ log →
    ∃ code expiry, .started code user expiry ∈ log
  sold : ∀ code token now, .token code token now ∈ log →
    ∃ user expiry, .started code user expiry ∈ log
  sound : DeviceLog crypto log

namespace DeviceInv

variable {crypto : Crypto} {devices : Table DeviceGrant} {log : List DeviceRecord}

theorem empty : DeviceInv crypto ∅ [] := by
  constructor <;> simp [DeviceLog]

section

variable (h : DeviceInv crypto devices log)
include h

variable {code account : Text} {grant : DeviceGrant}

/-- A grant is replaced by one that is the same but for the time of the next poll. -/
theorem poll (hgrant : devices.lookup code = some grant)
    (next : ℕ) : DeviceInv crypto (devices.insert code { grant with nextPollAt := next }) log := by
  refine ⟨fun c g hg ↦ ?_, fun c g hg ↦ ?_, fun c g hg ↦ ?_, h.unique, h.known, h.sold, h.sound⟩
  · rcases lookup_of_insert hg with ⟨rfl, rfl⟩ | ⟨-, hg⟩
    · exact h.started c grant hgrant
    · exact h.started c g hg
  · rcases lookup_of_insert hg with ⟨rfl, rfl⟩ | ⟨-, hg⟩
    · exact h.approved c grant hgrant
    · exact h.approved c g hg
  · rcases lookup_of_insert hg with ⟨rfl, rfl⟩ | ⟨-, hg⟩
    · exact h.pending c grant hgrant
    · exact h.pending c g hg

theorem consume (code : Text) : DeviceInv crypto (devices.erase code) log :=
  ⟨fun c g hg ↦ h.started c g (lookup_of_erase hg).2,
    fun c g hg ↦ h.approved c g (lookup_of_erase hg).2,
    fun c g hg ↦ h.pending c g (lookup_of_erase hg).2, h.unique, h.known, h.sold, h.sound⟩

theorem start {user : Text} {expiry next : ℕ}
    (hcode : ∀ user expiry, .started code user expiry ∉ log)
    (huser : ∀ code expiry, .started code user expiry ∉ log) :
    DeviceInv crypto (devices.insert code ⟨user, none, expiry, next⟩)
      (.started code user expiry :: log) := by
  refine ⟨fun c g hg ↦ ?_, fun c g hg ↦ ?_, fun c g hg token now ↦ ?_, ?_, ?_, ?_, trivial, h.sound⟩
  · rcases lookup_of_insert hg with ⟨rfl, rfl⟩ | ⟨-, hg⟩
    · exact List.mem_cons_self
    · exact mem_cons_of_mem _ (h.started c g hg)
  · rw [List.findSome?_cons]
    rcases lookup_of_insert hg with ⟨rfl, rfl⟩ | ⟨-, hg⟩
    · -- nobody has approved a user code that was never shown
      refine List.findSome?_eq_none_iff.mpr fun record hrecord ↦ ?_
      cases record with
      | approved user' account =>
        refine if_neg ?_
        rintro rfl
        obtain ⟨c', e, hstarted⟩ := h.known _ _ hrecord
        exact huser c' e hstarted
      | started _ _ _ | token _ _ _ => rfl
    · exact h.approved c g hg
  · intro hmem
    rcases mem_cons.mp hmem with heq | hold
    · cases heq
    · rcases lookup_of_insert hg with ⟨rfl, -⟩ | ⟨-, hg⟩
      · obtain ⟨user', e, hstarted⟩ := h.sold _ _ _ hold
        exact hcode user' e hstarted
      · exact h.pending c g hg token now hold
  · intro c c' user' e e' hc hc'
    rcases mem_cons.mp hc with heq | hold
    · obtain ⟨rfl, rfl, rfl⟩ := DeviceRecord.started.inj heq
      rcases mem_cons.mp hc' with heq' | hold'
      · exact (DeviceRecord.started.inj heq').1.symm
      · exact absurd hold' (huser c' e')
    · rcases mem_cons.mp hc' with heq' | hold'
      · obtain ⟨rfl, rfl, rfl⟩ := DeviceRecord.started.inj heq'
        exact absurd hold (huser c e)
      · exact h.unique c c' user' e e' hold hold'
  · intro user' account hmem
    rcases mem_cons.mp hmem with heq | hmem
    · cases heq
    · obtain ⟨c', e, hstarted⟩ := h.known user' account hmem
      exact ⟨c', e, mem_cons_of_mem _ hstarted⟩
  · intro c token now hmem
    rcases mem_cons.mp hmem with heq | hmem
    · cases heq
    · obtain ⟨user', e, hstarted⟩ := h.sold c token now hmem
      exact ⟨user', e, mem_cons_of_mem _ hstarted⟩

theorem approve (hgrant : devices.lookup code = some grant) :
    DeviceInv crypto (devices.insert code { grant with approvedAccount := some account })
      (.approved grant.userCode account :: log) := by
  refine ⟨fun c g hg ↦ mem_cons_of_mem _ ?_, fun c g hg ↦ ?_, fun c g hg token now ↦ ?_, ?_, ?_, ?_,
    trivial, h.sound⟩
  · rcases lookup_of_insert hg with ⟨rfl, rfl⟩ | ⟨-, hg⟩
    · exact h.started c grant hgrant
    · exact h.started c g hg
  · rw [List.findSome?_cons]
    rcases lookup_of_insert hg with ⟨rfl, rfl⟩ | ⟨hc, hg⟩
    · simp [DeviceRecord.approvalOf]
    · -- the user code of another grant is another one
      have hne : grant.userCode ≠ g.userCode := by
        intro heq
        have hstarted := h.started c g hg
        rw [← heq] at hstarted
        exact hc (h.unique _ _ _ _ _ hstarted (h.started code grant hgrant))
      rw [DeviceRecord.approvalOf, if_neg hne]
      exact h.approved c g hg
  · intro hmem
    rcases mem_cons.mp hmem with heq | hmem
    · cases heq
    · rcases lookup_of_insert hg with ⟨rfl, -⟩ | ⟨-, hg⟩
      · exact h.pending c grant hgrant token now hmem
      · exact h.pending c g hg token now hmem
  · intro c c' user e e' hc hc'
    refine h.unique c c' user e e' ?_ ?_
    · simpa using hc
    · simpa using hc'
  · intro user account' hmem
    rcases mem_cons.mp hmem with heq | hmem
    · obtain ⟨rfl, rfl⟩ := DeviceRecord.approved.inj heq
      exact ⟨code, _, mem_cons_of_mem _ (h.started code grant hgrant)⟩
    · obtain ⟨c', e, hstarted⟩ := h.known user account' hmem
      exact ⟨c', e, mem_cons_of_mem _ hstarted⟩
  · intro c token now hmem
    obtain ⟨user, e, hstarted⟩ := h.sold c token now (by simpa using hmem)
    exact ⟨user, e, mem_cons_of_mem _ hstarted⟩

theorem sell {token : Text} {now : ℕ}
    (hgrant : devices.lookup code = some grant) (hnow : now < grant.expiresAt)
    (haccount : grant.approvedAccount = some account) (hnames : Names crypto token account) :
    DeviceInv crypto (devices.erase code) (.token code token now :: log) := by
  refine ⟨fun c g hg ↦ ?_, fun c g hg ↦ ?_, fun c g hg token' now' ↦ ?_, ?_, ?_, ?_, ?_, h.sound⟩
  · exact mem_cons_of_mem _ (h.started c g (lookup_of_erase hg).2)
  · rw [List.findSome?_cons]
    exact h.approved c g (lookup_of_erase hg).2
  · intro hmem
    rcases mem_cons.mp hmem with heq | hmem
    · exact (lookup_of_erase hg).1 (DeviceRecord.token.inj heq).1
    · exact h.pending c g (lookup_of_erase hg).2 token' now' hmem
  · intro c c' user e e' hc hc'
    refine h.unique c c' user e e' ?_ ?_
    · simpa using hc
    · simpa using hc'
  · intro user account' hmem
    obtain ⟨c', e, hstarted⟩ := h.known user account' (by simpa using hmem)
    exact ⟨c', e, mem_cons_of_mem _ hstarted⟩
  · intro c token' now' hmem
    rcases mem_cons.mp hmem with heq | hmem
    · obtain ⟨rfl, rfl, rfl⟩ := DeviceRecord.token.inj heq
      exact ⟨_, _, mem_cons_of_mem _ (h.started c grant hgrant)⟩
    · obtain ⟨user, e, hstarted⟩ := h.sold c token' now' hmem
      exact ⟨user, e, mem_cons_of_mem _ hstarted⟩
  · refine ⟨grant.userCode, grant.expiresAt, account, h.started code grant hgrant, hnow, ?_, hnames,
      h.pending code grant hgrant⟩
    rw [h.approved code grant hgrant, haccount]

end

end DeviceInv

/-! ## Authorization codes -/

structure CodeInv (crypto : Crypto) (codes : Table AuthCode) (log : List CodeRecord) : Prop where
  created : ∀ code stored, code ≠ [] → codes.lookup code = some stored → ∃ later earlier,
    log = later ++ .created code stored.account stored.codeChallenge stored.expiresAt :: earlier ∧
      ∀ verifier, verifier ≠ [] → .presented code verifier ∉ later
  pending : ∀ code stored, codes.lookup code = some stored →
    ∀ verifier token now, .token code verifier token now ∉ log
  sold : ∀ code verifier token now, .token code verifier token now ∈ log →
    ∃ account challenge expiry, .created code account challenge expiry ∈ log
  sound : CodeLog crypto log

namespace CodeInv

variable {crypto : Crypto} {codes : Table AuthCode} {log : List CodeRecord}

theorem empty : CodeInv crypto ∅ [] := by
  constructor <;> simp [CodeLog]

section

variable (h : CodeInv crypto codes log)
include h

variable {code verifier : Text}

theorem create {account challenge : Text} {expiry : ℕ}
    (hcode : ∀ account challenge expiry, .created code account challenge expiry ∉ log) :
    CodeInv crypto (codes.insert code ⟨account, challenge, expiry⟩)
      (.created code account challenge expiry :: log) := by
  refine ⟨fun c stored hne hstored ↦ ?_, fun c stored hstored verifier token now hmem ↦ ?_,
    ?_, trivial, h.sound⟩
  · rcases lookup_of_insert hstored with ⟨rfl, rfl⟩ | ⟨-, hstored⟩
    · exact ⟨[], log, rfl, fun _ _ ↦ List.not_mem_nil⟩
    · obtain ⟨later, earlier, hlog, hpresented⟩ := h.created c stored hne hstored
      refine ⟨_ :: later, earlier, congrArg _ hlog, fun verifier hverifier hmem ↦ ?_⟩
      exact hpresented verifier hverifier (by simpa using hmem)
  · have hold : .token c verifier token now ∈ log := by simpa using hmem
    rcases lookup_of_insert hstored with ⟨rfl, -⟩ | ⟨-, hstored⟩
    · obtain ⟨account', challenge', expiry', hcreated⟩ := h.sold _ _ _ _ hold
      exact hcode _ _ _ hcreated
    · exact h.pending c stored hstored verifier token now hold
  · intro c verifier token now hmem
    obtain ⟨account', challenge', expiry', hcreated⟩ :=
      h.sold c verifier token now (by simpa using hmem)
    exact ⟨account', challenge', expiry', mem_cons_of_mem _ hcreated⟩

/-- A request without a code or without a verifier, or with a code that is gone, changes nothing. -/
theorem presentIdle (hidle : code = [] ∨ verifier = [] ∨ codes.lookup code = none) :
    CodeInv crypto codes (.presented code verifier :: log) := by
  refine ⟨fun c stored hne hstored ↦ ?_, fun c stored hstored verifier token now hmem ↦ ?_,
    ?_, trivial, h.sound⟩
  · obtain ⟨later, earlier, hlog, hpresented⟩ := h.created c stored hne hstored
    refine ⟨_ :: later, earlier, congrArg _ hlog, fun verifier' hverifier hmem ↦ ?_⟩
    rcases mem_cons.mp hmem with heq | hold
    · obtain ⟨rfl, rfl⟩ := CodeRecord.presented.inj heq
      rcases hidle with hcode | hnone | hgone
      · exact hne hcode
      · exact hverifier hnone
      · rw [hgone] at hstored
        cases hstored
    · exact hpresented verifier' hverifier hold
  · exact h.pending c stored hstored verifier token now (by simpa using hmem)
  · intro c verifier token now hmem
    obtain ⟨account, challenge, expiry, hcreated⟩ :=
      h.sold c verifier token now (by simpa using hmem)
    exact ⟨account, challenge, expiry, mem_cons_of_mem _ hcreated⟩

theorem present (code verifier : Text) :
    CodeInv crypto (codes.erase code) (.presented code verifier :: log) := by
  have hconsumed : CodeInv crypto (codes.erase code) log :=
    ⟨fun c stored hne hstored ↦ h.created c stored hne (lookup_of_erase hstored).2,
      fun c stored hstored ↦ h.pending c stored (lookup_of_erase hstored).2, h.sold, h.sound⟩
  exact hconsumed.presentIdle (.inr (.inr (AList.lookup_erase _ _)))

theorem sell {token : Text} {stored : AuthCode} {now : ℕ} (hne : code ≠ [])
    (hstored : codes.lookup code = some stored) (hnow : now < stored.expiresAt)
    (hverifier : crypto.s256 verifier = stored.codeChallenge)
    (hnames : Names crypto token stored.account) :
    CodeInv crypto (codes.erase code) (.token code verifier token now :: log) := by
  obtain ⟨later, earlier, hlog, hpresented⟩ := h.created code stored hne hstored
  refine ⟨fun c stored' hne' hstored' ↦ ?_, fun c stored' hstored' verifier' token' now' hmem ↦
    ?_, ?_, ?_, h.sound⟩
  · obtain ⟨later', earlier', hlog', hpresented'⟩ := h.created c stored' hne'
      (lookup_of_erase hstored').2
    refine ⟨_ :: later', earlier', congrArg _ hlog', fun verifier' hverifier' hmem ↦ ?_⟩
    exact hpresented' verifier' hverifier' (by simpa using hmem)
  · obtain ⟨hc, hstored'⟩ := lookup_of_erase hstored'
    rcases mem_cons.mp hmem with heq | hold
    · exact hc (CodeRecord.token.inj heq).1
    · exact h.pending c stored' hstored' verifier' token' now' hold
  · intro c verifier' token' now' hmem
    rcases mem_cons.mp hmem with heq | hold
    · obtain ⟨rfl, -⟩ := CodeRecord.token.inj heq
      refine ⟨stored.account, stored.codeChallenge, stored.expiresAt, mem_cons_of_mem _ ?_⟩
      rw [hlog]
      simp
    · obtain ⟨account, challenge, expiry, hcreated⟩ := h.sold c verifier' token' now' hold
      exact ⟨account, challenge, expiry, mem_cons_of_mem _ hcreated⟩
  · exact ⟨stored.account, stored.codeChallenge, stored.expiresAt, later, earlier, hlog, hnow,
      hverifier, hnames, h.pending code stored hstored, hpresented⟩

end

end CodeInv

/-! ## Runs -/

section

variable {crypto : Crypto} {server : AuthzServer} {devices : List DeviceRecord}
    {codes : List CodeRecord}
  {now : ℕ} {directory : Directory}

theorem names_issueToken {account token : Text}
    (h : server.issueToken crypto account now = some token) :
    Names crypto token account :=
  ⟨_, h, rfl⟩

theorem lookup_of_findGrant {userCode code : Text} {grant : DeviceGrant}
    (h : server.findGrant userCode now = some (code, grant)) :
    server.devices.lookup code = some grant ∧ grant.userCode = userCode := by
  obtain ⟨entry, hfind, heq⟩ := Option.map_eq_some_iff.mp h
  obtain ⟨rfl, rfl⟩ := Prod.mk.inj heq
  have hmem := List.mem_of_find?_eq_some hfind
  have hcode := List.find?_some hfind
  rw [Bool.and_eq_true, beq_iff_eq] at hcode
  exact ⟨AList.mem_lookup_iff.mpr hmem, hcode.1⟩

section

variable (h : DeviceInv crypto server.devices devices)
include h

theorem deviceInv_deviceAuthorization (fields : Fields) {deviceCode userCode : Option Text}
    (hcode : ∀ drawn ∈ deviceCode, ∀ user expiry, .started drawn user expiry ∉ devices)
    (huser : ∀ drawn ∈ userCode, ∀ code expiry, .started code drawn expiry ∉ devices) :
    DeviceInv crypto (server.deviceAuthorization fields deviceCode userCode now).2.devices
      (deviceRecords crypto ⟨now, directory, .deviceAuthorization fields deviceCode userCode⟩
        (server.deviceAuthorization fields deviceCode userCode now).1 ++ devices) := by
  unfold AuthzServer.deviceAuthorization
  split
  · exact h
  · cases deviceCode with
    | none => exact h
    | some code =>
      cases userCode with
      | none => exact h
      | some user => exact h.start (hcode code rfl) (huser user rfl)

theorem deviceInv_deviceApprove (fields : Fields) (authorization : Option Text) :
    let account := authenticated crypto.primitives now directory authorization fields
    DeviceInv crypto (server.deviceApprove fields account now).2.devices
      (deviceRecords crypto ⟨now, directory, .deviceApprove fields authorization⟩
        (server.deviceApprove fields account now).1 ++ devices) := by
  intro account
  unfold AuthzServer.deviceApprove deviceRecords
  cases hfind : server.findGrant (field fields "user_code") now with
  | none => exact h
  | some found =>
    obtain ⟨code, grant⟩ := found
    obtain ⟨hgrant, huser⟩ := lookup_of_findGrant hfind
    cases haccount : account with
    | none => exact h
    | some who =>
      have hwho : authenticated crypto.primitives now directory authorization fields = some who :=
        haccount
      dsimp only
      rw [hwho, ← huser]
      exact h.approve hgrant

theorem deviceInv_redeemDeviceCode (code : Text) :
    DeviceInv crypto (server.redeemDeviceCode crypto code now).2.devices
      (((server.redeemDeviceCode crypto code now).1.issued.map fun token ↦
        DeviceRecord.token code token now).toList ++ devices) := by
  unfold AuthzServer.redeemDeviceCode
  cases hgrant : server.devices.lookup code with
  | none => exact h
  | some grant =>
    dsimp only
    by_cases hexpired : grant.expiresAt ≤ now
    · rw [if_pos hexpired]
      exact h.consume code
    · rw [if_neg hexpired]
      by_cases hsoon : now < grant.nextPollAt
      · rw [if_pos hsoon]
        exact h.poll hgrant _
      · rw [if_neg hsoon]
        cases haccount : grant.approvedAccount with
        | none =>
          have hpolled := h.poll hgrant (now + pollIntervalSecs)
          rw [haccount] at hpolled
          exact hpolled
        | some account =>
          dsimp only
          cases htoken : server.issueToken crypto account now with
          | none => exact h.consume code
          | some token =>
            exact h.sell hgrant (Nat.lt_of_not_le hexpired) haccount (names_issueToken htoken)

end

section

variable (h : CodeInv crypto server.codes codes) (fields : Fields)
include h

theorem codeInv_authorize (authorization : Option Text) {code : Option Text} (hcode : ∀ drawn ∈
    code, ∀ account challenge expiry, .created drawn account challenge expiry ∉ codes) :
    let account := authenticated crypto.primitives now directory authorization fields
    CodeInv crypto (server.authorize fields account code now).2.codes
      (codeRecords crypto ⟨now, directory, .authorize fields authorization code⟩
        (server.authorize fields account code now).1 ++ codes) := by
  intro account
  unfold AuthzServer.authorize codeRecords
  dsimp only
  split
  · exact h
  · split
    · exact h
    · have hwho : authenticated crypto.primitives now directory authorization fields =
        account := rfl
      rw [hwho]
      cases account with
      | none => exact h
      | some who =>
        cases code with
        | none => exact h
        | some drawn => exact h.create (hcode drawn rfl)

theorem codeInv_redeemAuthorizationCode :
    CodeInv crypto (server.redeemAuthorizationCode crypto fields now).2.codes
      (.presented (field fields "code") (field fields "code_verifier") ::
        ((server.redeemAuthorizationCode crypto fields now).1.issued.map fun token ↦
          CodeRecord.token (field fields "code") (field fields "code_verifier") token now).toList ++
        codes) := by
  unfold AuthzServer.redeemAuthorizationCode
  dsimp only
  by_cases hempty : field fields "code" = [] ∨ field fields "code_verifier" = []
  · rw [if_pos hempty]
    exact h.presentIdle (hempty.imp_right .inl)
  · rw [if_neg hempty]
    rw [not_or] at hempty
    cases hstored : server.codes.lookup (field fields "code") with
    | none => exact h.present _ _
    | some stored =>
      dsimp only
      by_cases hexpired : stored.expiresAt ≤ now
      · rw [if_pos hexpired]
        exact h.present _ _
      · rw [if_neg hexpired]
        by_cases hverifier : crypto.s256 (field fields "code_verifier") = stored.codeChallenge
        · rw [if_neg (not_not.mpr hverifier)]
          cases htoken : server.issueToken crypto stored.account now with
          | none => exact h.present _ _
          | some token =>
            have hsold := h.sell hempty.1 hstored (Nat.lt_of_not_le hexpired) hverifier
              (names_issueToken htoken)
            exact hsold.presentIdle (.inr (.inr (AList.lookup_erase _ _)))
        · rw [if_pos hverifier]
          exact h.present _ _

end

theorem devices_redeemAuthorizationCode (fields : Fields) :
    (server.redeemAuthorizationCode crypto fields now).2.devices = server.devices := by
  unfold AuthzServer.redeemAuthorizationCode
  dsimp only
  repeat' split
  all_goals rfl

theorem codes_redeemDeviceCode (code : Text) :
    (server.redeemDeviceCode crypto code now).2.codes = server.codes := by
  unfold AuthzServer.redeemDeviceCode
  dsimp only
  repeat' split
  all_goals rfl

theorem devices_authorize (fields : Fields) (account code : Option Text) :
    (server.authorize fields account code now).2.devices = server.devices := by
  unfold AuthzServer.authorize
  dsimp only
  repeat' split
  all_goals rfl

theorem codes_deviceAuthorization (fields : Fields) (deviceCode userCode : Option Text) :
    (server.deviceAuthorization fields deviceCode userCode now).2.codes = server.codes := by
  unfold AuthzServer.deviceAuthorization
  repeat' split
  all_goals rfl

theorem codes_deviceApprove (fields : Fields) (account : Option Text) :
    (server.deviceApprove fields account now).2.codes = server.codes := by
  unfold AuthzServer.deviceApprove
  split <;> rfl

end

structure Inv (crypto : Crypto) (w : World) : Prop where
  devices : DeviceInv crypto w.server.devices w.deviceLog
  codes : CodeInv crypto w.server.codes w.codeLog

section

variable {crypto : Crypto} {w : World} {now : ℕ} {directory : Directory} {fields : Fields}

theorem inv_of_token {r : Step} (hstep : w.server.token crypto fields now = r)
    (hdevices : DeviceInv crypto r.2.devices
      (deviceRecords crypto ⟨now, directory, .token fields⟩ r.1 ++ w.deviceLog))
    (hcodes : CodeInv crypto r.2.codes
      (codeRecords crypto ⟨now, directory, .token fields⟩ r.1 ++ w.codeLog)) :
    Inv crypto ((machine crypto).step w ⟨now, directory, .token fields⟩) := by
  have hworld : (machine crypto).step w ⟨now, directory, .token fields⟩ =
      ⟨(w.server.token crypto fields now).2,
        deviceRecords crypto ⟨now, directory, .token fields⟩ (w.server.token crypto fields now).1 ++
          w.deviceLog,
        codeRecords crypto ⟨now, directory, .token fields⟩ (w.server.token crypto fields now).1 ++
          w.codeLog⟩ := rfl
  rw [hworld, hstep]
  exact ⟨hdevices, hcodes⟩

theorem deviceRecords_token (response : Response) :
    deviceRecords crypto ⟨now, directory, .token fields⟩ response =
      if fields.lookup "grant_type".toList = some AuthzServer.deviceCodeGrant then
        (response.issued.map fun token ↦
          DeviceRecord.token (field fields "device_code") token now).toList
      else [] := by
  cases response <;> rfl

theorem codeRecords_token (response : Response) :
    codeRecords crypto ⟨now, directory, .token fields⟩ response =
      if fields.lookup "grant_type".toList = some "authorization_code".toList then
        .presented (field fields "code") (field fields "code_verifier") ::
          (response.issued.map fun token ↦
            CodeRecord.token (field fields "code") (field fields "code_verifier") token now).toList
      else [] := by
  cases response <;> rfl

theorem inv_token (h : Inv crypto w) :
    Inv crypto ((machine crypto).step w ⟨now, directory, .token fields⟩) := by
  by_cases hdevice : fields.lookup "grant_type".toList = some AuthzServer.deviceCodeGrant
  · have hcode : fields.lookup "grant_type".toList ≠ some "authorization_code".toList := by
      rw [hdevice]
      decide
    by_cases hempty : field fields "device_code" = []
    · refine inv_of_token ((if_pos hdevice).trans (if_pos hempty)) ?_ ?_
      · rw [deviceRecords_token, if_pos hdevice]
        exact h.devices
      · rw [codeRecords_token, if_neg hcode]
        exact h.codes
    · have hstep : w.server.token crypto fields now =
          w.server.redeemDeviceCode crypto (field fields "device_code") now :=
        (if_pos hdevice).trans (if_neg hempty)
      refine inv_of_token hstep ?_ ?_
      · rw [deviceRecords_token, if_pos hdevice]
        exact deviceInv_redeemDeviceCode h.devices _
      · rw [codeRecords_token, if_neg hcode, codes_redeemDeviceCode]
        exact h.codes
  · by_cases hcode : fields.lookup "grant_type".toList = some "authorization_code".toList
    · have hstep : w.server.token crypto fields now =
          w.server.redeemAuthorizationCode crypto fields now :=
        (if_neg hdevice).trans (if_pos hcode)
      refine inv_of_token hstep ?_ ?_
      · rw [deviceRecords_token, if_neg hdevice, devices_redeemAuthorizationCode]
        exact h.devices
      · rw [codeRecords_token, if_pos hcode]
        exact codeInv_redeemAuthorizationCode h.codes fields
    · refine inv_of_token ((if_neg hdevice).trans (if_neg hcode)) ?_ ?_
      · rw [deviceRecords_token, if_neg hdevice]
        exact h.devices
      · rw [codeRecords_token, if_neg hcode]
        exact h.codes

end

theorem Inv.step {crypto : Crypto} {w : World} (h : Inv crypto w) {e : Event}
    (henabled : (machine crypto).enabled w e) : Inv crypto ((machine crypto).step w e) := by
  obtain ⟨now, directory, request⟩ := e
  cases request with
  | deviceAuthorization fields deviceCode userCode =>
    refine ⟨deviceInv_deviceAuthorization h.devices fields henabled.1 henabled.2, ?_⟩
    change CodeInv crypto
      (w.server.deviceAuthorization fields deviceCode userCode now).2.codes w.codeLog
    rw [codes_deviceAuthorization]
    exact h.codes
  | deviceApprove fields authorization =>
    refine ⟨deviceInv_deviceApprove h.devices fields authorization, ?_⟩
    change CodeInv crypto (w.server.deviceApprove fields _ now).2.codes w.codeLog
    rw [codes_deviceApprove]
    exact h.codes
  | authorize fields authorization code =>
    refine ⟨?_, codeInv_authorize h.codes fields authorization henabled⟩
    change DeviceInv crypto (w.server.authorize fields _ code now).2.devices w.deviceLog
    rw [devices_authorize]
    exact h.devices
  | token fields => exact inv_token h

/-- **Grants are sound**, in every run of the endpoints, at any times, in which the codes are new. A
token for a device code is for the account of the latest approval of its user code. A token for an
authorization code is for the account that authenticated for it, to somebody who had the verifier of
its challenge. There is at most one token for a code, none when it has expired, and none for an
authorization code that has been presented with another verifier. -/
theorem grants_sound (crypto : Crypto) (issuer audience : Text) {w : World}
    (hreach : (machine crypto).Reach (fun _ _ ↦ True) (.start issuer audience) w) :
    DeviceLog crypto w.deviceLog ∧ CodeLog crypto w.codeLog := by
  have hinv : Inv crypto w := hreach.invariant ⟨DeviceInv.empty, CodeInv.empty⟩
    fun _ _ hinv henabled _ ↦ hinv.step henabled
  exact ⟨hinv.devices.sound, hinv.codes.sound⟩

/-- Hashes and signatures that hide nothing. -/
def Crypto.plain : Crypto where
  primitives := .plain
  base64Url := fun bytes ↦ (decodeUtf8 bytes).getD []
  sign := fun claims ↦ some ("token for ".toList ++ claims.sub)

def office : Directory :=
  { Directory.empty with passwordHashes := (∅ : Table Text).insert "alice".toList "a".toList }

def form (fields : List (String × String)) : Fields :=
  fields.foldl (fun table entry ↦ table.insert entry.1.toList entry.2.toList) ∅

/-- Alice authenticates for a code, which is sent once without the verifier and then with it. -/
def redemption : List Event :=
  [⟨10, office, .authorize (form [("code_challenge_method", "S256"), ("code_challenge", "v"),
      ("client_id", "cli"), ("login", "alice"), ("password", "a")]) none (some "c".toList)⟩,
    ⟨11, office, .token (form [("grant_type", "authorization_code"), ("code", "c"),
      ("code_verifier", "")])⟩,
    ⟨12, office, .token (form [("grant_type", "authorization_code"), ("code", "c"),
      ("code_verifier", "v")])⟩]

def deviceFlow : List Event :=
  [⟨10, office, .deviceAuthorization (form [("client_id", "cli")]) (some "d".toList)
    (some "u".toList)⟩,
    ⟨11, office, .deviceApprove (form [("user_code", "u"), ("login", "alice"),
      ("password", "a")]) none⟩,
    ⟨12, office, .token (form [("grant_type", "urn:ietf:params:oauth:grant-type:device_code"),
      ("device_code", "d")])⟩]

/-- The code is drawn at the first request only. -/
theorem reach_redemption : (machine .plain).Reach (fun _ _ ↦ True) (.start [] [])
    (redemption.foldl (machine .plain).step (.start [] [])) := by
  refine ((Machine.Reach.refl.step ?_ trivial).step ?_ trivial).step ?_ trivial
  · intro drawn _ account challenge expiry hmem
    cases hmem
  · trivial
  · trivial

theorem reach_deviceFlow : (machine .plain).Reach (fun _ _ ↦ True) (.start [] [])
    (deviceFlow.foldl (machine .plain).step (.start [] [])) := by
  refine ((Machine.Reach.refl.step ?_ trivial).step ?_ trivial).step ?_ trivial
  · constructor
    · intro drawn _ user expiry hmem
      cases hmem
    · intro drawn _ code expiry hmem
      cases hmem
  · trivial
  · trivial

theorem grants_sound_deviceFlow :
    let w := deviceFlow.foldl (machine .plain).step (.start [] [])
    w.deviceLog = [.token "d".toList "token for alice".toList 12,
        .approved "u".toList "alice".toList, .started "d".toList "u".toList 610] ∧
      DeviceLog .plain w.deviceLog :=
  ⟨by decide, (grants_sound .plain [] [] reach_deviceFlow).1⟩

/-- The code was presented with an empty verifier, and the token is given out all the same. -/
theorem redeemed_after_empty :
    ∃ w, (machine .plain).Reach (fun _ _ ↦ True) (.start [] []) w ∧
      ∃ later verifier token now between account challenge expiry earlier wrong,
        w.codeLog = later ++ .token "c".toList verifier token now ::
          (between ++ .created "c".toList account challenge expiry :: earlier) ∧
        .presented "c".toList wrong ∈ between ∧ Crypto.plain.s256 wrong ≠ challenge := by
  have hlog : (redemption.foldl (machine .plain).step (.start [] [])).codeLog =
      [.presented "c".toList "v".toList] ++
        .token "c".toList "v".toList "token for alice".toList 12 ::
          ([.presented "c".toList []] ++
            .created "c".toList "alice".toList "v".toList 610 :: []) := by
    decide
  refine ⟨_, reach_redemption, _, _, _, _, _, _, _, _, _, _, hlog, List.mem_cons_self, ?_⟩
  decide

end Epistle.Oauth
