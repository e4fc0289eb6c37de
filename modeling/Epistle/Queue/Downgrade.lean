import Epistle.Queue.Dispatch

/-!
# Outbound TLS is not downgraded

A domain can ask for more than opportunistic TLS in two ways: by a policy that is enforced, and by
TLSA records of its exchange hosts. Both are looked up in the attempt itself. Then `MAIL FROM` is
sent only if what was asked for has been done on the connection that it is sent on (`Upheld`), and
it is not sent at all if one of the lookups has no answer for now.

The client has three ways to treat a certificate, and which one is taken depends on both lookups.
What it guarantees is stated in its own terms first (`Secured`); the worker's part is to hand it the
right terms.
-/

namespace Epistle.Dispatch

open TextFormat Storage Queue MtaSts Dane Effects

variable {p : Smtp.Primitives} {t : Tls} {s : Sender} {network : Network}

def Event.contacted : Event → Option Text
  | .contact host => some host
  | _ => none

/-- The host that was reached, or tried last. -/
def lastContact (record : List Event) : Option Text := (record.filterMap Event.contacted).getLast?

/-- The host that was reached is permitted by the domain's policy and was verified, if the policy is
enforced; the certificates match its records, if there are any; and both lookups have had an
answer. -/
structure Upheld (t : Tls) (s : Sender) (network : Network) (domain : Text) (cache : Cache)
    (before : List Event) (stream : Stream) : Prop where
  reached : lastContact before = some stream.host
  permitted : ∀ policy, (s.policyFor network domain cache).1 = .ok (some policy) →
    policy.mode = .enforce →
      policy.permitsMx stream.host = true ∧ ∃ chain, stream.tls = some ⟨stream.host, true, chain⟩
  authenticated : ∀ records, s.tlsaFor network stream.host = some records → records ≠ [] →
    ∃ handshake, stream.tls = some handshake ∧
      verifyChain t.toX509 records handshake.chain = .authenticated ∧
      .verified records handshake.chain .authenticated ∈ before
  policyAnswered : ∀ reason, (s.policyFor network domain cache).1 ≠ .error (.temporary reason)
  tlsaAnswered : s.tlsaFor network stream.host ≠ none

/-! ## The client -/

/-- What the client was told to require of a connection. -/
structure Secured (t : Tls) (serverName : Text) (requireTls : Bool) (tlsa : List TlsaRecord)
    (stream : Stream) (before : List Event) : Prop where
  host : stream.host = serverName
  reached : lastContact before = some serverName
  required : requireTls = true → ∃ chain, stream.tls = some ⟨serverName, true, chain⟩
  authenticated : tlsa ≠ [] → ∃ handshake, stream.tls = some handshake ∧
    verifyChain t.toX509 tlsa handshake.chain = .authenticated ∧
    .verified tlsa handshake.chain .authenticated ∈ before

def Event.isMailFrom : Event → Bool
  | .exchange _ (.mailFrom _) _ => true
  | _ => false

section Client

variable {serverName : Text} {requireTls : Bool} {tlsa : List TlsaRecord} {stream : Stream}

theorem lastContact_exchange (record : List Event) (stream : Stream) (sent : Sent)
    (answer : Answer) :
    lastContact (record ++ [.exchange stream sent answer]) = lastContact record := by
  simp [lastContact, Event.contacted]

theorem Secured.exchange {before : List Event}
    (h : Secured t serverName requireTls tlsa stream before) (stream' : Stream) (sent : Sent)
    (answer : Answer) :
    Secured t serverName requireTls tlsa stream (before ++ [.exchange stream' sent answer]) := by
  refine ⟨h.host, (lastContact_exchange _ _ _ _).trans h.reached, h.required, fun htlsa ↦ ?_⟩
  obtain ⟨handshake, htls, hmatch, hverified⟩ := h.authenticated htlsa
  exact ⟨handshake, htls, hmatch, List.mem_append_left _ hverified⟩

variable {gate : List Event → Event → Prop}
  (hfree : ∀ before event, event.isMailFrom = false → gate before event)
include hfree

variable {server : Server} {ehloHostname : Text}

/-- A command other than `MAIL FROM` is free, and leaves a condition as it is that answers cannot
change. -/
theorem keeps_command {sent : Sent} {expected : ℕ} {pre : List Event → Prop}
    (hsent : ∀ answer, (Event.exchange stream sent answer).isMailFrom = false)
    (hpre : ∀ record answer, pre record → pre (record ++ [.exchange stream sent answer])) :
    Keeps gate pre (command server stream sent expected) fun _ ↦ pre := by
  intro record hguarded hrecord
  exact ⟨guarded_concat hguarded (hfree _ _ (hsent _)), fun _ _ ↦ hpre _ _ hrecord⟩

theorem keeps_proceed {handshake : Handshake} (hhost : stream.host = serverName)
    (hhandshake : requireTls = true → ∃ chain, handshake = ⟨serverName, true, chain⟩) :
    Keeps gate (lastContact · = some serverName)
      (proceed t server stream serverName ehloHostname tlsa handshake) fun secured record ↦
        Secured t serverName requireTls tlsa secured record := by
  have hgoOn : ∀ outcome, verifyChain t.toX509 tlsa handshake.chain = outcome →
    outcome ≠ .mismatch →
      Keeps gate (fun record ↦ lastContact record = some serverName ∧
          .verified tlsa handshake.chain outcome ∈ record) (do
          let _ ← command server { stream with tls := some handshake } (.ehlo ehloHostname) 250
          pure { stream with tls := some handshake })
        fun secured record ↦ Secured t serverName requireTls tlsa secured record := by
    intro outcome houtcome hne
    refine .bind (keeps_command hfree (fun _ ↦ rfl) fun record answer h ↦
      ⟨(lastContact_exchange _ _ _ _).trans h.1, List.mem_append_left _ h.2⟩) fun _ ↦ .pure ?_
    rintro record ⟨hreached, hverified⟩
    refine ⟨hhost, hreached, fun hrequired ↦ ?_, fun htlsa ↦ ?_⟩
    · obtain ⟨chain, rfl⟩ := hhandshake hrequired
      exact ⟨chain, rfl⟩
    · have hauthenticated : outcome = .authenticated := by
        cases outcome with
        | authenticated => rfl
        | noRecords => exact absurd (verifyChain_eq_noRecords_iff.1 houtcome) htlsa
        | mismatch => exact absurd rfl hne
      subst hauthenticated
      exact ⟨handshake, rfl, houtcome, hverified⟩
  have hnoted : Keeps gate (lastContact · = some serverName) (Recorded.note (.verified tlsa
      handshake.chain (verifyChain t.toX509 tlsa handshake.chain)) : Session Unit) fun _ record ↦
        lastContact record = some serverName ∧
          .verified tlsa handshake.chain (verifyChain t.toX509 tlsa handshake.chain) ∈ record :=
    Keeps.note (fun _ _ ↦ hfree _ _ rfl) fun record hreached ↦
      ⟨by simpa [lastContact, Event.contacted] using hreached,
        List.mem_append_right _ (List.mem_singleton_self _)⟩
  refine .bind hnoted fun _ ↦ ?_
  cases houtcome : verifyChain t.toX509 tlsa handshake.chain with
  | authenticated | noRecords => exact hgoOn _ houtcome (by simp)
  | mismatch => exact .fail

variable {mode : OutboundTls} {auth : Option (Text × Text)}

theorem keeps_negotiateTls (hhost : stream.host = serverName) :
    Keeps gate (lastContact · = some serverName)
      (negotiateTls t server stream serverName ehloHostname requireTls tlsa mode)
      fun secured record ↦ Secured t serverName requireTls tlsa secured record := by
  have hcommand (sent : Sent) (expected : ℕ)
      (hsent : ∀ answer, (Event.exchange stream sent answer).isMailFrom = false) :
      Keeps gate (lastContact · = some serverName) (command server stream sent expected)
        fun _ record ↦ lastContact record = some serverName :=
    keeps_command hfree hsent fun record answer h ↦ (lastContact_exchange _ _ _ _).trans h
  refine .bind (hcommand _ _ fun _ ↦ rfl) fun greeting ↦ ?_
  dsimp only
  generalize contains "STARTTLS".toList greeting = offersStarttls
  split
  · exact .fail
  · rename_i hallowed
    split
    · refine .bind (hcommand _ _ fun _ ↦ rfl) fun _ ↦ ?_
      split
      · exact .fail
      · rename_i chain _
        refine keeps_proceed hfree hhost fun hrequired ↦ ⟨chain, ?_⟩
        rw [hrequired]
        rfl
    · -- without TLS nothing may be asked for
      rename_i hoffers
      refine .pure fun record hreached ↦ ⟨hhost, hreached, fun hrequired ↦ ?_, fun htlsa ↦ ?_⟩
      · simp [hrequired, hoffers] at hallowed
      · simp [hoffers, htlsa] at hallowed

theorem keeps_authenticate :
    Keeps gate (Secured t serverName requireTls tlsa stream) (authenticate p server auth stream)
      fun _ ↦ Secured t serverName requireTls tlsa stream := by
  unfold authenticate
  split
  · exact .pure fun _ h ↦ h
  · split
    · exact .fail
    · refine .bind (keeps_command hfree (fun _ ↦ rfl) fun _ answer h ↦ h.exchange _ _ answer)
        fun _ ↦ ?_
      exact .pure fun _ h ↦ h

theorem keeps_nameRecipients (recipients : List Text) :
    Keeps gate (fun _ ↦ True) (nameRecipients server stream recipients) fun _ _ ↦ True := by
  induction recipients with
  | nil => exact .pure fun _ h ↦ h
  | cons recipient recipients ih =>
    exact .bind (keeps_command hfree (fun _ ↦ rfl) fun _ _ h ↦ h) fun _ ↦ ih

/-- The client sends `MAIL FROM` on connections that are as it was told. -/
theorem keeps_deliver {reversePath : Text} {recipients : List Text}
    {data : Bytes} (hhost : stream.host = serverName)
    (hmail : ∀ before stream path answer, Secured t serverName requireTls tlsa stream before →
      gate before (.exchange stream (.mailFrom path) answer)) :
    Keeps gate (lastContact · = some serverName)
      (deliver p t server stream serverName ehloHostname reversePath recipients data requireTls auth
        tlsa mode) fun _ _ ↦ True := by
  refine .bind (keeps_command hfree (fun _ ↦ rfl) fun record answer h ↦
    (lastContact_exchange _ _ _ _).trans h) fun _ ↦ ?_
  refine .bind (keeps_negotiateTls hfree hhost) fun secured ↦ ?_
  refine .bind (keeps_authenticate hfree) fun _ ↦ ?_
  have hmailFrom : Keeps gate (Secured t serverName requireTls tlsa secured)
      (command server secured (.mailFrom reversePath) 250) fun _ _ ↦ True := by
    intro record hguarded hsecured
    exact ⟨guarded_concat hguarded (hmail _ _ _ _ hsecured), fun _ _ ↦ trivial⟩
  refine .bind hmailFrom fun _ ↦ ?_
  refine .bind (keeps_nameRecipients hfree recipients) fun _ ↦ ?_
  refine .bind (keeps_command hfree (fun _ ↦ rfl) fun _ _ h ↦ h) fun _ ↦ ?_
  refine .bind (keeps_command hfree (fun _ ↦ rfl) fun _ _ h ↦ h) fun _ ↦ ?_
  exact .pure fun _ h ↦ h

end Client

/-! ## The connector and the worker -/

section Worker

variable {gate : List Event → Event → Prop}
  (hfree : ∀ before event, event.isMailFrom = false → gate before event)
include hfree

theorem keeps_tryHosts (place : ℕ) (hosts : List Text) (lastError : DeliveryError) :
    Keeps gate (fun _ ↦ True) (tryHosts network place hosts lastError)
      fun reached record ↦ reached.2 ∈ hosts ∧ lastContact record = some reached.2 := by
  induction hosts generalizing place lastError with
  | nil => exact .fail
  | cons host hosts ih =>
    have hnoted : Keeps gate (fun _ ↦ True) (Recorded.note (.contact host) : Session Unit)
        fun _ record ↦ lastContact record = some host :=
      Keeps.note (fun _ _ ↦ hfree _ _ rfl) fun record _ ↦ by simp [lastContact, Event.contacted]
    refine .bind hnoted fun _ ↦ ?_
    split
    · exact .pure fun _ hlast ↦ ⟨List.mem_cons_self, hlast⟩
    · intro record hguarded _
      obtain ⟨hkept, hreached⟩ := ih _ _ record hguarded trivial
      exact ⟨hkept, fun reached h ↦ ⟨List.mem_cons_of_mem _ (hreached reached h).1,
        (hreached reached h).2⟩⟩

/-- The connector reaches hosts that the policy permits. -/
theorem keeps_connect (domain : Text) (policy : Option Policy) :
    Keeps gate (fun _ ↦ True) (connect network domain policy)
      fun reached record ↦ lastContact record = some reached.2 ∧
        ∀ enforced ∈ policy, enforced.permitsMx reached.2 = true := by
  unfold connect
  split
  · exact .fail
  · dsimp only
    split
    · exact .fail
    · intro record hguarded hrecord
      obtain ⟨hkept, hreached⟩ := keeps_tryHosts hfree _ _ _ record hguarded hrecord
      refine ⟨hkept, fun reached h ↦ ⟨(hreached reached h).2, fun enforced henforced ↦ ?_⟩⟩
      have hpermitted := (List.mem_filter.1 (hreached reached h).1).2
      rw [henforced] at hpermitted
      exact hpermitted

theorem keeps_direct (domain : Text) (policy : Option Policy) (requireTls : Bool) :
    Keeps gate (fun _ ↦ True) (s.direct network domain policy requireTls)
      fun link record ↦ link.tlsRequired = requireTls ∧ lastContact record = some link.serverName ∧
        s.tlsaFor network link.serverName = some link.dane ∧
        ∀ enforced ∈ policy, enforced.permitsMx link.serverName = true := by
  refine .bind (Keeps.mapError (keeps_connect hfree domain policy)) fun reached ↦ ?_
  split
  · exact .fail
  · rename_i tlsa htlsa
    exact .pure fun _ hreached ↦ ⟨rfl, hreached.1, htlsa, hreached.2⟩

end Worker

/-- The mail of a domain goes to its exchange hosts. -/
def Sender.IsDirect (s : Sender) (envelope : Envelope) (domain : Text) : Prop :=
  ∀ rule, Transport.select s.worker.transports (senderAccount envelope) domain = some rule →
    rule.kind = .direct

variable {domain : Text} {entry : SpoolEntry}

theorem Sender.IsDirect.route_eq {envelope : Envelope}
    (h : s.IsDirect envelope domain) (policy : Option Policy) :
    s.route network envelope domain policy =
      s.direct network domain policy (policy.isSome || envelope.requireTls) := by
  unfold Sender.route
  cases hselect : Transport.select s.worker.transports (senderAccount envelope) domain with
  | none => rfl
  | some rule =>
    dsimp only
    rw [h rule hselect]

/-- What a policy in force means for the delivery. -/
theorem enforced_of_enforce {answer : Except PolicyError (Option Policy)} {policy : Policy}
    (hanswer : answer = .ok (some policy)) (hmode : policy.mode = .enforce) :
    enforced answer = .ok (some policy) := by
  rw [hanswer, enforced, Option.filter_some_pos (by rw [hmode]; rfl)]

variable (p t network) in
/-- `MAIL FROM` is sent for a domain only if its demands are upheld. -/
theorem keeps_deliverDomain
    (hdirect : s.IsDirect entry.envelope domain) (recipients : List Text) (cache : Cache) :
    Keeps (fun before event ↦ ∀ stream path answer, event =
      .exchange stream (.mailFrom path) answer →
        Upheld t s network domain cache before stream)
      (fun _ ↦ True) (s.deliverDomain p t network entry domain recipients cache) fun _ _ ↦
        True := by
  have hfree : ∀ (before : List Event) (event : Event), event.isMailFrom = false →
      ∀ stream path answer, event = .exchange stream (.mailFrom path) answer →
        Upheld t s network domain cache before stream := by
    rintro before event hfalse stream path answer rfl
    cases hfalse
  unfold Sender.deliverDomain
  split
  · exact .fail
  · rename_i policy hpolicy
    rw [hdirect.route_eq]
    refine .bind (keeps_direct hfree domain policy _) fun link ↦ ?_
    refine Keeps.mapError ?_
    intro record hguarded hlink
    obtain ⟨hrequired, hreached, htlsa, hpermitted⟩ := hlink
    refine keeps_deliver hfree rfl ?_ record hguarded hreached
    rintro before stream path answer hsecured _ _ _ ⟨⟩
    have hhost : stream.host = link.serverName := hsecured.host
    refine ⟨hhost ▸ hsecured.reached, fun enforcedPolicy hanswer hmode ↦ ?_,
      fun records hrecords hne ↦ ?_, fun reason hanswer ↦ ?_, ?_⟩
    · obtain rfl := Except.ok.inj (hpolicy.symm.trans (enforced_of_enforce hanswer hmode))
      rw [hhost]
      exact ⟨hpermitted _ rfl, hsecured.required (by rw [hrequired]; rfl)⟩
    · rw [hhost, htlsa] at hrecords
      obtain rfl := Option.some.inj hrecords
      exact hsecured.authenticated hne
    · rw [hanswer] at hpolicy
      cases hpolicy
    · rw [hhost, htlsa]
      simp

theorem record_of_mem_deliverGroups {networks : Text → Network}
    {groups : List (Text × List Text)} {cache : Cache} {attempt : Attempt}
    (h : attempt ∈ (s.deliverGroups p t networks entry groups cache).1) :
    attempt.record = (s.deliverDomain p t (networks attempt.domain) entry attempt.domain
      attempt.recipients attempt.cache []).1 := by
  induction groups generalizing cache with
  | nil => cases h
  | cons group groups ih =>
    unfold Sender.deliverGroups at h
    dsimp only at h
    split at h
    · obtain rfl := List.mem_singleton.1 h
      rfl
    · rcases List.mem_cons.1 h with rfl | h
      · rfl
      · exact ih h

/-- **No downgrade**: whatever the lookups, the policy server and the remotes answer, and whatever
policies are kept, `MAIL FROM` is sent for a domain only on a connection that upholds the domain's
policy and the records of its host. -/
theorem mailFrom_upheld {v : Visit} {networks : Text → Network} {id : Uuid} {q : State}
    {cache : Cache} {entry : SpoolEntry} (hload : v.load .entry id q = some entry)
    {attempt : Attempt} (hattempt : attempt ∈ (s.deliverEntry p t v networks id q cache).1)
    (hdirect : s.IsDirect entry.envelope attempt.domain) {before after : List Event}
    {stream : Stream}
    {path : Text} {answer : Answer}
    (hmail : attempt.record = before ++ .exchange stream (.mailFrom path) answer :: after) :
    Upheld t s (networks attempt.domain) attempt.domain attempt.cache before stream := by
  unfold Sender.deliverEntry at hattempt
  rw [hload] at hattempt
  dsimp only at hattempt
  split at hattempt
  · cases hattempt
  · split at hattempt
    · cases hattempt
    · have hrecord := record_of_mem_deliverGroups hattempt
      have hkept := (keeps_deliverDomain p t (networks attempt.domain) hdirect
        attempt.recipients attempt.cache [] guarded_nil trivial).1
      rw [← hrecord] at hkept
      exact hkept before _ after hmail stream path answer rfl

/-! ## A domain with both -/

/-- A server that takes everything and has one certificate. -/
def certified : Server where
  answer := fun sent ↦ match sent.getLast? with
    | some .connect => .reply 220 []
    | some (.ehlo _) => .reply 250 "STARTTLS".toList
    | some .startTls => .reply 220 []
    | some .data => .reply 354 []
    | _ => .reply 250 []
  handshake := fun _ _ ↦ .ok [[1]]

/-- The domain enforces a policy, and its one host has a record of its certificate. -/
def demanding : Network where
  discovery := ⟨fun _ ↦ some ["v=STSv1".toList],
    fun _ ↦ .ok (["version: STSv1\n", "mode: enforce\n",
    "mx: mx.b.org\n", "max_age: 60\n"].flatMap String.toList), 0, 0⟩
  mx := .found [(10, "mx.b.org.".toList)]
  connect := fun _ _ ↦ .ok certified
  relay := .error (.transient [])
  tlsa := fun _ ↦ some [⟨.daneEe, .fullCert, .full, [1]⟩]

def openTls : Tls := { unsigned with isServerName := fun _ ↦ true }

/-- A worker that looks for both and would take any certificate. -/
def careful : Sender := ⟨⟨"a.org".toList, false, 0, false, [], .opportunistic⟩, true, true⟩

def oneSpooled : State :=
  ⟨[⟨⟨.ofNat 1, "s@a.org".toList, ["u@b.org".toList], 0, 0, false, [], false⟩, []⟩], [], [], []⟩

def allReadable : Visit :=
  ⟨fun _ ↦ true, [], .removed, fun _ ↦ ⟨.absent, .ok [], none, noPeer⟩, some 0, 0, true⟩

/-- What is done for the domain. -/
def demandingAttempt : Attempt :=
  ⟨"b.org".toList, ["u@b.org".toList], [],
    (careful.deliverDomain .plain openTls demanding
      ⟨⟨.ofNat 1, "s@a.org".toList, ["u@b.org".toList], 0, 0, false, [], false⟩, []⟩ "b.org".toList
      ["u@b.org".toList] [] []).1⟩

/-- The connection on which the message is handed over. -/
def demandingStream : Stream := ⟨"mx.b.org".toList, some ⟨"mx.b.org".toList, true, [[1]]⟩⟩

theorem mailFrom_upheld_demanding :
    ((careful.policyFor demanding "b.org".toList []).1.toOption.map fun policy ↦
        policy.map (·.mode)) = some (some .enforce) ∧
      careful.tlsaFor demanding "mx.b.org".toList = some [⟨.daneEe, .fullCert, .full, [1]⟩] ∧
      Upheld openTls careful demanding "b.org".toList [] (demandingAttempt.record.take 6)
        demandingStream := by
  have hattempt :
    demandingAttempt ∈ (careful.deliverEntry .plain openTls allReadable (fun _ ↦ demanding)
      (.ofNat 1) oneSpooled []).1 := by decide +kernel
  have hdirect : careful.IsDirect
      ⟨.ofNat 1, "s@a.org".toList, ["u@b.org".toList], 0, 0, false, [],
        false⟩ demandingAttempt.domain := by
    intro rule h
    cases h
  have hmail : demandingAttempt.record = demandingAttempt.record.take 6 ++
      .exchange demandingStream (.mailFrom "s@a.org".toList) (.reply 250 []) ::
        demandingAttempt.record.drop 7 := by decide +kernel
  have hload : allReadable.load .entry (.ofNat 1) oneSpooled = some
      ⟨⟨.ofNat 1, "s@a.org".toList, ["u@b.org".toList], 0, 0, false, [], false⟩, []⟩ := by
        decide +kernel
  exact ⟨by decide +kernel, by decide +kernel, mailFrom_upheld hload hattempt hdirect hmail⟩

end Epistle.Dispatch
