import Epistle.Auth.Services

/-!
# Disabled accounts and second factors

`authenticate_local` turns disabled accounts away and asks for the one-time code of an account with
a TOTP secret. It is the way of passwords only. SCRAM proofs, certificates, tokens, the passwords of
POP3 and those that only the LDAP server accepts come in by another door (`Offer.pastLocal`).

In the runs in which nobody uses that door for a disabled account, no session has a disabled user
(`disabled_never_user`); in those in which nobody uses it for an account with a TOTP secret, no
sign-in by password lacks its code (`secondFactor_of_signIns`). Both doors can be opened
(`disabledByCertificate`, `passwordOnly`).
-/

namespace Epistle.Auth

open TextFormat Smtp Interleaving

/-! ## The two doors -/

/-- Whom an offer signs in without `authenticate_local`. -/
def Offer.pastLocal (p : Primitives) (now : ℕ) (directory : Directory) (protocol : Protocol) :
    Offer → Option Text
  | .password login pass ip =>
    if (directory.authenticateLocal p now login pass ip).isSome then none
    else (directory.ldap.bind fun ldap ↦ ldap login pass).filter
      (directory.isProtocolAllowed · protocol)
  | offer => offer.account p now directory protocol

def Offer.isPrimary (p : Primitives) (now : ℕ) (directory : Directory) (account : Text) :
    Offer → Bool
  | .password _ pass ip =>
    !((directory.appPasswords.lookup account).getD []).any (·.admits p pass ip now)
  | .bare _ _ => true
  | .proof _ _ _ _ => true
  | .certificate _ => false
  | .token _ => false

/-- The password as the client has sent it. -/
def Offer.text : Offer → Option Text
  | .password _ pass _ => some pass
  | .bare _ pass => some pass
  | _ => none

/-- The password ends in six digits that are a valid code. -/
def carriesCode (p : Primitives) (now : ℕ) (secret password : Text) : Bool :=
  let code := password.drop (password.length - 6)
  code.length == 6 && code.all Char.isDigit && (parseDecimal code).any fun digits ↦
    (p.decodeBase32Secret secret).any fun secretBytes ↦ p.totpVerify secretBytes digits now

/-- If the account has a TOTP secret and the offer is its own password, then there is a code with
it. -/
def Offer.SecondFactor (p : Primitives) (now : ℕ) (directory : Directory) (account : Text)
    (offer : Offer) : Prop :=
  ∀ secret ∈ directory.totp.lookup account, offer.isPrimary p now directory account = true →
    offer.text.any (carriesCode p now secret) = true

instance (p : Primitives) (now : ℕ) (directory : Directory) (account : Text) (offer : Offer) :
    Decidable (offer.SecondFactor p now directory account) :=
  by delta Offer.SecondFactor; infer_instance

section

variable {p : Primitives} {now : ℕ} {directory : Directory} {protocol : Protocol} {a : Text}

theorem totpStrip_eq_some {password secret rest : Text} :
    Directory.totpStrip p now password secret = some rest ↔
      7 ≤ utf8Len password ∧ (password.drop (password.length - 6)).length = 6 ∧
        (password.drop (password.length - 6)).all Char.isDigit = true ∧
        ∃ digits, parseDecimal (password.drop (password.length - 6)) = some digits ∧
          ∃ bytes, p.decodeBase32Secret secret = some bytes ∧
            p.totpVerify bytes digits now = true ∧ password.take (password.length - 6) = rest := by
  unfold Directory.totpStrip
  dsimp only
  split
  · grind
  · rename_i hform
    simp only [Bool.or_eq_true, decide_eq_true_eq, not_or, not_lt, bne_iff_ne, ne_eq, not_not,
      Bool.not_eq_true', Bool.not_eq_false] at hform
    simp [hform, Option.bind_eq_some_iff]

/-- The account's own password, without its code if there is to be one, or one of its app
passwords. -/
theorem authenticateLocal_eq_some {login password : Text} {ip : Option IpAddr} :
    directory.authenticateLocal p now login password ip = some a ↔
      ∃ hash, directory.credentials p login = some (a, hash) ∧ a ∉ directory.disabled ∧
        (((directory.totp.lookup a).elim (some password)
            (Directory.totpStrip p now password)).any (p.verifyPassword hash) = true ∨
          ((directory.appPasswords.lookup a).getD []).any (·.admits p password ip now) = true) := by
  unfold Directory.authenticateLocal
  split <;> grind

/-- Whoever has a secret and signs in by their own password has sent a code after it. -/
theorem totpStrip_of_authenticateLocal {login password secret : Text} {ip : Option IpAddr}
    (h : directory.authenticateLocal p now login password ip = some a)
    (hsecret : directory.totp.lookup a = some secret)
    (hown : (Offer.password login password ip).isPrimary p now directory a = true) :
    ∃ hash, directory.credentials p login = some (a, hash) ∧
      ∃ rest, Directory.totpStrip p now password secret = some rest ∧
        p.verifyPassword hash rest = true := by
  obtain ⟨hash, hcredentials, -, hproved⟩ := authenticateLocal_eq_some.mp h
  rw [Offer.isPrimary, Bool.not_eq_true', ← Bool.not_eq_true] at hown
  have hprimary := hproved.resolve_right hown
  rw [hsecret] at hprimary
  exact ⟨hash, hcredentials, (Option.any_eq_true _ _).mp hprimary⟩

/-- What `authenticate_local` has checked of the account that it returns. -/
theorem authenticateLocal_spec {login password : Text} {ip : Option IpAddr}
    (h : directory.authenticateLocal p now login password ip = some a) :
    a ∉ directory.disabled ∧ (Offer.password login password ip).SecondFactor p now directory a := by
  obtain ⟨-, -, hnot, -⟩ := authenticateLocal_eq_some.mp h
  refine ⟨hnot, fun secret hsecret hown ↦ ?_⟩
  obtain ⟨-, -, rest, hrest, -⟩ := totpStrip_of_authenticateLocal h hsecret hown
  obtain ⟨-, hsix, hall, digits, hdigits, bytes, hbytes, hverify, -⟩ := totpStrip_eq_some.mp hrest
  simp [Offer.text, carriesCode, hsix, hall, hdigits, hbytes, hverify]

/-- Whoever is signed in came by one of the doors. -/
theorem account_cases {offer : Offer} (h : offer.account p now directory protocol = some a) :
    offer.pastLocal p now directory protocol = some a ∨
      a ∉ directory.disabled ∧ offer.SecondFactor p now directory a := by
  cases offer with
  | password login pass ip =>
    change ((directory.authenticateLocal p now login pass ip).or
      (directory.ldap.bind fun ldap ↦ ldap login pass)).filter _ = some a at h
    simp only [Offer.pastLocal]
    cases hlocal : directory.authenticateLocal p now login pass ip with
    | none =>
      rw [hlocal] at h
      exact .inl h
    | some account =>
      rw [hlocal] at h
      obtain ⟨haccount, -⟩ := Option.filter_eq_some_iff.mp h
      obtain rfl : account = a := Option.some.inj haccount
      exact .inr (authenticateLocal_spec hlocal)
  | bare login pass | proof server credentials account clientFinal | certificate identity
  | token email => exact .inl h

end

/-! ## Disabled accounts -/

/-- The client does not use the other door for a disabled account. -/
def Frontend.SparesDisabled {p : Primitives} {σ ι : Type} (f : Frontend p σ ι) (s : σ)
    (i : ι) : Prop :=
  ∀ offer ∈ f.offer s i, ∀ a ∈ offer.pastLocal p (f.now i) (f.directory s) (f.protocol s),
    a ∉ (f.directory s).disabled

instance {p : Primitives} {σ ι : Type} (f : Frontend p σ ι) (s : σ) (i : ι) :
    Decidable (f.SparesDisabled s i) :=
  by delta Frontend.SparesDisabled; infer_instance

/-- **A disabled account never signs in**, in every run of a session in which no SCRAM proof,
certificate or token for it is offered, no password to POP3, and none that only the LDAP server
accepts. -/
theorem disabled_never_user (p : Primitives) (service : Service) {s₀ s : service.State}
    (h₀ : (service.frontend p).account s₀ = none)
    (hreach : (service.frontend p).machine.Reach (service.frontend p).SparesDisabled s₀ s)
    {a : Text}
    (ha : a ∈ ((service.frontend p).directory s₀).disabled) :
    (service.frontend p).account s ≠ some a := by
  generalize service.frontend p = f at *
  have hinvariant : f.directory s = f.directory s₀ ∧ f.account s ≠ some a := by
    refine Machine.Reach.invariant
      (I := fun s ↦ f.directory s = f.directory s₀ ∧ f.account s ≠ some a) ?_ ?_ hreach
    · refine ⟨rfl, ?_⟩
      rw [h₀]
      exact (Option.some_ne_none a).symm
    · rintro s i ⟨hdirectory, hnot⟩ _ hguard
      refine ⟨(f.directory_step s i).trans hdirectory, fun haccount ↦ ?_⟩
      rcases f.account_step s i a haccount with hbefore | hsigned
      · exact hnot hbefore
      · obtain ⟨offer, hoffer, hsigned⟩ := Option.bind_eq_some_iff.mp hsigned
        rw [← hdirectory] at ha
        rcases account_cases hsigned with hpast | ⟨henabled, -⟩
        · exact hguard offer hoffer a hpast ha
        · exact henabled ha
  exact hinvariant.2

/-- Alice has a second factor. Bob is disabled. -/
def office : Directory :=
  { Directory.empty with
    domains := ["x.org".toList]
    accountsByAddress := (∅ : Table Text).insert "bob@x.org".toList "bob".toList
    passwordHashes :=
      ((∅ : Table Text).insert "bob".toList "b".toList).insert "alice".toList "a".toList
    totp := (∅ : Table Text).insert "alice".toList "key".toList
    disabled := ["bob".toList] }

/-- The IMAP client knows both passwords, and the code of the moment. -/
def logins : List ImapDesk.Input :=
  [.login ⟨42, none, fun _ _ ↦ true, true⟩ "a1".toList "bob".toList "b".toList,
    .login ⟨42, none, fun _ _ ↦ true, true⟩ "a2".toList "alice".toList "a000042".toList]

instance (p : Primitives) (s : Imap.Auth.Session) (i : ImapDesk.Input) :
    Decidable ((imap p).machine.enabled s i) := isTrue trivial

theorem disabled_never_user_logins :
    let s := logins.foldl (imap .plain).machine.step (.new office)
    s.account = some "alice".toList ∧ s.account ≠ some "bob".toList := by
  have hreach : (imap .plain).machine.Reach (imap .plain).SparesDisabled (.new office)
      (logins.foldl (imap .plain).machine.step (.new office)) :=
    .of_passes (by decide)
  exact ⟨by decide, disabled_never_user .plain .imap rfl hreach (by decide)⟩

def disabledByCertificate : List ImapDesk.Input :=
  [.tlsStarted (some "bob@x.org".toList),
    .authenticate ⟨42, none, fun _ _ ↦ true, true⟩ "a1".toList "EXTERNAL".toList (some ['='])]

/-- The certificate lets Bob in. -/
theorem disabledByCertificate_user :
    ∃ s, (Service.frontend .plain .imap).machine.Reach (fun _ _ ↦ True)
        (Imap.Auth.Session.new office) s ∧
      (Service.frontend .plain .imap).account s = some "bob".toList ∧
      "bob".toList ∈ office.disabled := by
  have hreach : (imap .plain).machine.Reach (fun _ _ ↦ True) (.new office)
      (disabledByCertificate.foldl (imap .plain).machine.step (.new office)) :=
    .of_passes (by decide)
  have huser : (imap .plain).account
      (disabledByCertificate.foldl (imap .plain).machine.step (.new office)) =
        some "bob".toList := by
    decide
  exact ⟨_, hreach, huser, by decide⟩

/-! ## Second factors -/

/-- The client does not use the other door to get by without a code. -/
def Frontend.GivesCode {p : Primitives} {σ ι : Type} (f : Frontend p σ ι) (s : σ) (i : ι) : Prop :=
  ∀ offer ∈ f.offer s i, ∀ a ∈ offer.pastLocal p (f.now i) (f.directory s) (f.protocol s),
    offer.SecondFactor p (f.now i) (f.directory s) a

instance {p : Primitives} {σ ι : Type} (f : Frontend p σ ι) (s : σ) (i : ι) :
    Decidable (f.GivesCode s i) :=
  by delta Frontend.GivesCode; infer_instance

/-- **Two-factor cannot be skipped**, in every run of a session in which no SCRAM proof for an
account with a TOTP secret is offered, and neither a password to POP3 nor one that only the LDAP
server accepts without a code: every sign-in with the account's own password has a code, and whoever
is the user has signed in. -/
theorem secondFactor_of_signIns (p : Primitives) (service : Service) {s₀ : service.State}
    {w : Watched service.State} (h₀ : (service.frontend p).account s₀ = none)
    (hreach : (service.frontend p).watched.Reach
      (fun w i ↦ (service.frontend p).GivesCode w.session i) ⟨s₀, []⟩ w) :
    (∀ r ∈ w.signIns,
      r.offer.SecondFactor p r.now ((service.frontend p).directory s₀) r.account) ∧
    ∀ a, (service.frontend p).account w.session = some a → ∃ r ∈ w.signIns, r.account = a := by
  refine (service.frontend p).signIns_of_reach h₀ ?_ hreach
  intro w i r hguard hdirectory hr
  obtain ⟨hoffer, hnow, haccount⟩ := Frontend.mem_signIn _ hr
  rw [hnow, ← hdirectory]
  rcases account_cases haccount with hpast | ⟨-, hcode⟩
  · exact hguard _ hoffer _ hpast
  · exact hcode

theorem secondFactor_of_signIns_logins :
    let w := logins.foldl (imap .plain).watched.step ⟨.new office, []⟩
    w.signIns.map (·.account) = ["alice".toList] ∧
      ∀ r ∈ w.signIns, r.offer.SecondFactor .plain r.now office r.account := by
  have hreach : (imap .plain).watched.Reach (fun w i ↦ (imap .plain).GivesCode w.session i)
      ⟨.new office, []⟩ (logins.foldl (imap .plain).watched.step ⟨.new office, []⟩) :=
    .of_passes (by decide)
  exact ⟨by decide, (secondFactor_of_signIns .plain .imap rfl hreach).1⟩

/-- Alice has their mail fetched. -/
def passwordOnly : List Pop3Desk.Input :=
  [⟨42, "USER alice".toList, fun _ ↦ []⟩, ⟨42, "PASS a".toList, fun _ ↦ []⟩]

instance (p : Primitives) (s : Pop3Desk.State) (i : Pop3Desk.Input) :
    Decidable ((pop3 p).machine.enabled s i) := isTrue trivial

/-- The password alone lets Alice in. -/
theorem passwordOnly_signIns :
    ∃ w, (Service.frontend .plain .pop3).watched.Reach (fun _ _ ↦ True)
        ⟨(⟨.new, office⟩ : Pop3Desk.State), []⟩ w ∧
      (Service.frontend .plain .pop3).account w.session = some "alice".toList ∧
      ∃ r ∈ w.signIns, r.account = "alice".toList ∧
        ¬r.offer.SecondFactor .plain r.now office r.account := by
  have hreach : (pop3 .plain).watched.Reach (fun _ _ ↦ True) ⟨⟨.new, office⟩, []⟩
      (passwordOnly.foldl (pop3 .plain).watched.step ⟨⟨.new, office⟩, []⟩) :=
    .of_passes (by decide)
  have huser : let w := passwordOnly.foldl (pop3 .plain).watched.step ⟨⟨.new, office⟩, []⟩
      (pop3 .plain).account w.session = some "alice".toList ∧
        ∃ r ∈ w.signIns, r.account = "alice".toList ∧
          ¬r.offer.SecondFactor .plain r.now office r.account := by
    decide
  exact ⟨_, hreach, huser⟩

end Epistle.Auth
