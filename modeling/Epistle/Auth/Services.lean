import Epistle.Imap.Auth
import Epistle.ManageSieve.Session
import Epistle.Pop3.Session
import Epistle.Smtp.Acceptance

/-!
# The services

SMTP, IMAP, POP3 and ManageSieve as front ends. For each of them the offer that an input makes is
read off the input and what the session is waiting for, and nobody becomes the user without one.

A connection reads responses and handshakes only when it has asked for them. IMAP and ManageSieve
sessions are given their inputs in any order here, which allows more than their connections do.
-/

namespace Epistle.Auth

open TextFormat Smtp Interleaving

/-! ## SMTP -/

namespace SmtpDesk

def offer (p : Primitives) (w : Acceptance.World) : Acceptance.Input → Option Offer
  | .command env line =>
    match Command.parse line with
    | .ok (.auth mechanism initial) => authOffer p env mechanism initial w.session
    | _ => none
  | .auth _ line => lineOffer p line w.session
  | _ => none

def now : Acceptance.Input → ℕ
  | .command env _ => env.now
  | .auth env _ => env.now
  | _ => 0

variable {p : Primitives} {env : Env} {s : Session}

section

variable (w : Acceptance.World) (input : Acceptance.Input)

theorem account_respond {a : Text} (h : (Acceptance.respond p w input).2.1.authenticated = some a) :
    w.session.authenticated = some a ∨ judge p (now input) w.session (offer p w input) =
      some a := by
  cases input with
  | command env line =>
    change (w.session.commandLine p env line).2.authenticated = some a at h
    rcases Acceptance.commandLine_cases p env line w.session with
      ⟨hsame, -⟩ | ⟨size, last, -, heq⟩ | ⟨mechanism, initial, hparse, heq⟩
    · exact .inl (hsame.2.symm.trans h)
    · rw [heq] at h
      exact .inl h
    · rw [heq] at h
      rw [offer, hparse]
      rcases auth_cases p env mechanism initial w.session with ⟨reply, hreply⟩ | ⟨-, -, hsigns⟩
      · rw [hreply] at h
        exact .inl h
      · exact eq_some_of_or (hsigns.2.symm.trans h)
  | auth env line =>
    exact eq_some_of_or ((signs_authLine line w.session).2.symm.trans h)
  | data line => exact .inl ((Acceptance.dataLine_spec line w.session).1.2.symm.trans h)
  | chunk bytes => exact .inl ((Acceptance.bdatChunk_spec bytes _ w.session).1.2.symm.trans h)
  | tlsStarted identity => exact .inl h

theorem directory_respond : (Acceptance.respond p w input).2.1.directory = w.session.directory := by
  cases input with
  | command env line =>
    change (w.session.commandLine p env line).2.directory = _
    rcases Acceptance.commandLine_cases p env line w.session with
      ⟨hsame, -⟩ | ⟨size, last, -, heq⟩ | ⟨mechanism, initial, -, heq⟩
    · exact hsame.1
    · rw [heq]
    · rw [heq]
      rcases auth_cases p env mechanism initial w.session with ⟨reply, heq⟩ | ⟨-, -, hsigns⟩
      · rw [heq]
      · exact hsigns.1.2.1
  | auth env line => exact (signs_authLine line w.session).1.2.1
  | data line => exact (Acceptance.dataLine_spec line w.session).1.1
  | chunk bytes => exact (Acceptance.bdatChunk_spec bytes _ w.session).1.1
  | tlsStarted identity => rfl

end

end SmtpDesk

def smtp (p : Primitives) : Frontend p Acceptance.World Acceptance.Input where
  machine := Acceptance.machine p
  account := fun w ↦ w.session.authenticated
  directory := fun w ↦ w.session.directory
  protocol := fun w ↦ w.session.authProtocol
  now := SmtpDesk.now
  offer := SmtpDesk.offer p
  directory_step := SmtpDesk.directory_respond
  account_step := fun w input _ h ↦ SmtpDesk.account_respond w input h

/-! ## IMAP -/

namespace ImapDesk

open Imap (Auth.Session)

inductive Input
  | login (env : Env) (tag username password : Text)
  | authenticate (env : Env) (tag mechanism : Text) (initial : Option Text)
  | response (env : Env) (line : Text)
  | startTls (tag : Text)
  /-- The handshake is complete, with a client certificate for the identity if there is one. -/
  | tlsStarted (identity : Option Text)
  /-- Any other command. -/
  | other

def step (p : Primitives) (s : Auth.Session) : Input → Auth.Session
  | .login env tag username password => (s.login p env.now tag username password).2
  | .authenticate env tag mechanism initial => (s.auth p env tag mechanism initial).2
  | .response env line => (s.authResponse p env line).2
  | .startTls tag => (s.startTls tag).2
  | .tlsStarted identity => s.tlsStarted identity
  | .other => s

/-- What an `AUTHENTICATE` command offers. -/
def authOffer (p : Primitives) (env : Env) (mechanism : Text) (initial : Option Text)
    (s : Auth.Session) : Option Offer :=
  if !s.tlsActive || s.account.isSome then none
  else match (Sasl.Mechanism.parse mechanism).filter fun mechanism ↦
      (Sasl.available s.clientIdentity.isSome s.cbindData.isSome s.oauth.isSome).contains
        mechanism with
    | some .external => initial.bind (externalOffer p s.clientIdentity)
    | some .plain => initial.bind (plainOffer p s.peerIp)
    | some .oauthBearer => tokenOffer p s.oauth env.now initial
    | some .xoauth2 => tokenOffer p s.oauth env.now initial
    | _ => none

/-- What the response to a challenge offers. -/
def lineOffer (p : Primitives) (line : Text) (s : Auth.Session) : Option Offer :=
  if line == ['*'] then none
  else match s.pendingAuth with
    | some (.plain _) => plainOffer p s.peerIp line
    | some (.scramFinal _ server credentials account) =>
      (Imap.Auth.decode p line).map fun clientFinal ↦ .proof server credentials account clientFinal
    | some (.loginPass _ user) =>
      (Imap.Auth.decode p line).map fun pass ↦ .password user pass s.peerIp
    | some (.external _) => externalOffer p s.clientIdentity line
    | _ => none

def offer (p : Primitives) (s : Auth.Session) : Input → Option Offer
  | .login _ _ username password =>
    if !s.tlsActive || s.account.isSome then none else some (.password username password none)
  | .authenticate env _ mechanism initial => authOffer p env mechanism initial s
  | .response _ line => lineOffer p line s
  | _ => none

def now : Input → ℕ
  | .login env _ _ _ => env.now
  | .authenticate env _ _ _ => env.now
  | .response env _ => env.now
  | _ => 0

variable {p : Primitives} {env : Env} {s : Auth.Session}

/-- Whom an offer signs in here. -/
abbrev judge (p : Primitives) (now : ℕ) (s : Auth.Session) (offer : Option Offer) : Option Text :=
  offer.bind (Offer.account p now s.directory s.authProtocol)

/-- The user after a step is the one of an offer, or else the one before; the directory is the
same. -/
def Signs (s s' : Auth.Session) (account : Option Text) : Prop :=
  s'.account = account.or s.account ∧ s'.directory = s.directory

theorem signs_countFailure (response : Text) (s : Auth.Session) :
    Signs s (s.countFailure response).2 none := by
  unfold Auth.Session.countFailure
  split
  · exact ⟨rfl, rfl⟩
  · split <;> exact ⟨rfl, rfl⟩

theorem signs_authFailure (tag : Text) (s : Auth.Session) : Signs s (s.authFailure tag).2 none :=
  signs_countFailure _ { s with pendingAuth := none }

theorem signs_authOutcome (tag : Text) (account : Option Text) (s : Auth.Session) :
    Signs s (s.authOutcome tag account).2 account := by
  cases account with
  | none => exact signs_authFailure tag s
  | some account => exact ⟨rfl, rfl⟩

theorem signs_login (tag username password : Text) :
    Signs s (s.login p env.now tag username password).2
      (judge p env.now s (offer p s (.login env tag username password))) := by
  unfold Auth.Session.login offer
  cases s.tlsActive with
  | false => exact ⟨rfl, rfl⟩
  | true =>
    cases s.account.isSome with
    | true => exact ⟨rfl, rfl⟩
    | false =>
      simp only [Bool.not_true, Bool.false_eq_true, if_false, Bool.or_false, judge,
        Option.bind_some, Offer.account]
      cases s.directory.authenticateWithIp p env.now username password none s.authProtocol with
      | some account => exact ⟨rfl, rfl⟩
      | none => exact signs_countFailure _ s

theorem signs_authPlain (tag encoded : Text) :
    Signs s (s.authPlain p env.now tag encoded).2
      (judge p env.now s (plainOffer p s.peerIp encoded)) := by
  rw [judge, bind_plainOffer]
  exact signs_authOutcome tag _ s

theorem signs_authExternal (now : ℕ) (tag encoded : Text) :
    Signs s (s.authExternal p tag encoded).2
      (judge p now s (externalOffer p s.clientIdentity encoded)) := by
  rw [judge, bind_externalOffer]
  exact signs_authOutcome tag _ s

theorem signs_oauthBearer (tag : Text) (initial : Option Text) :
    Signs s (s.oauthBearer p env.now tag initial).2
      (judge p env.now s (tokenOffer p s.oauth env.now initial)) := by
  rw [judge, bind_tokenOffer]
  exact signs_authOutcome tag _ s

theorem signs_loginUser (tag encoded : Text) : Signs s (s.loginUser p tag encoded).2 none := by
  unfold Auth.Session.loginUser
  split
  · exact signs_authFailure tag s
  · exact ⟨rfl, rfl⟩

theorem signs_loginPass (tag user encoded : Text) :
    Signs s (s.loginPass p env.now tag user encoded).2
      (judge p env.now s ((Imap.Auth.decode p encoded).map fun pass ↦
        .password user pass s.peerIp)) := by
  rw [judge, Option.bind_map]
  exact signs_authOutcome tag _ s

theorem signs_scramFirst (nonce : Option Text) (tag encoded : Text) (binding : ChannelBinding) :
    Signs s (s.scramFirst p nonce tag encoded binding).2 none := by
  unfold Auth.Session.scramFirst
  extract_lets outcome
  cases outcome with
  | none => exact signs_authFailure tag s
  | some found => exact ⟨rfl, rfl⟩

theorem signs_scramBegin (nonce : Option Text) (tag : Text) (initial : Option Text) (plus : Bool) :
    Signs s (s.scramBegin p nonce tag initial plus).2 none := by
  unfold Auth.Session.scramBegin
  split
  · exact signs_scramFirst nonce tag _ _
  · exact ⟨rfl, rfl⟩

theorem signs_scramFinal (now : ℕ) (tag encoded : Text) (server : ScramServer)
    (credentials : ScramCredentials) (account : Text) :
    Signs s (s.scramFinal p tag encoded server credentials account).2
      (judge p now s ((Imap.Auth.decode p encoded).map fun clientFinal ↦
        .proof server credentials account clientFinal)) := by
  unfold Auth.Session.scramFinal judge
  cases Imap.Auth.decode p encoded with
  | none => exact signs_authFailure tag s
  | some clientFinal =>
    simp only [Option.map_some, Option.bind_some, Offer.account]
    cases server.finish p clientFinal credentials with
    | error error => exact signs_authFailure tag s
    | ok serverFinal => exact ⟨rfl, rfl⟩

theorem signs_auth (tag mechanism : Text) (initial : Option Text) :
    Signs s (s.auth p env tag mechanism initial).2
      (judge p env.now s (authOffer p env mechanism initial s)) := by
  unfold Auth.Session.auth authOffer
  cases s.tlsActive with
  | false => exact ⟨rfl, rfl⟩
  | true =>
    cases s.account.isSome with
    | true => exact ⟨rfl, rfl⟩
    | false =>
      cases (Sasl.Mechanism.parse mechanism).filter _ with
      | none => exact ⟨rfl, rfl⟩
      | some mechanism =>
        cases mechanism with
        | external =>
          cases initial with
          | none => exact ⟨rfl, rfl⟩
          | some response => exact signs_authExternal _ tag response
        | plain =>
          cases initial with
          | none => exact ⟨rfl, rfl⟩
          | some response => exact signs_authPlain tag response
        | scramSha256 => exact signs_scramBegin env.nonce tag initial false
        | scramSha256Plus => exact signs_scramBegin env.nonce tag initial true
        | oauthBearer | xoauth2 => exact signs_oauthBearer tag initial
        | login =>
          cases initial with
          | none => exact ⟨rfl, rfl⟩
          | some user => exact signs_loginUser tag user

theorem signs_authResponse (line : Text) :
    Signs s (s.authResponse p env line).2 (judge p env.now s (lineOffer p line s)) := by
  unfold Auth.Session.authResponse lineOffer
  split
  · exact ⟨rfl, rfl⟩
  · cases hpending : s.pendingAuth with
    | none => exact ⟨rfl, rfl⟩
    | some pending =>
      cases pending with
      | plain tag => exact signs_authPlain (s := { s with pendingAuth := none }) tag line
      | scramFirst tag binding =>
        exact signs_scramFirst (s := { s with pendingAuth := none }) env.nonce tag line binding
      | scramFinal tag server credentials account =>
        exact signs_scramFinal (s := { s with pendingAuth := none }) env.now tag line server
          credentials account
      | loginUser tag => exact signs_loginUser (s := { s with pendingAuth := none }) tag line
      | loginPass tag user =>
        exact signs_loginPass (s := { s with pendingAuth := none }) tag user line
      | external tag =>
        exact signs_authExternal (s := { s with pendingAuth := none }) env.now tag line

/-- What an input does to the user, except that a handshake makes the session forget it. -/
theorem signs_step (input : Input) :
    Signs s (step p s input) (judge p (now input) s (offer p s input)) ∨
      (step p s input).account = none ∧ (step p s input).directory = s.directory := by
  cases input with
  | login env tag username password => exact .inl (signs_login tag username password)
  | authenticate env tag mechanism initial => exact .inl (signs_auth tag mechanism initial)
  | response env line => exact .inl (signs_authResponse line)
  | startTls tag =>
    left
    change Signs s (s.startTls tag).2 none
    unfold Auth.Session.startTls
    split <;> exact ⟨rfl, rfl⟩
  | tlsStarted identity => exact .inr ⟨rfl, rfl⟩
  | other => exact .inl ⟨rfl, rfl⟩

end ImapDesk

def imap (p : Primitives) : Frontend p Imap.Auth.Session ImapDesk.Input where
  machine := ⟨fun _ _ ↦ True, ImapDesk.step p⟩
  account := fun s ↦ s.account
  directory := fun s ↦ s.directory
  protocol := fun s ↦ s.authProtocol
  now := ImapDesk.now
  offer := ImapDesk.offer p
  directory_step := fun s input ↦ by
    rcases ImapDesk.signs_step (p := p) (s := s) input with h | h
    · exact h.2
    · exact h.2
  account_step := fun s input a h ↦ by
    rcases ImapDesk.signs_step (p := p) (s := s) input with hsigns | hnone
    · exact eq_some_of_or (hsigns.1.symm.trans h)
    · exact absurd (hnone.1.symm.trans h) nofun

/-! ## POP3 -/

namespace Pop3Desk

structure State where
  session : Pop3.Session
  directory : Directory

/-- A line of the client, and what the mailboxes hold. -/
structure Input where
  now : ℕ
  line : Text
  load : Text → List (Text × Bytes)

def backend (p : Primitives) (s : State) (input : Input) : Pop3.Backend :=
  ⟨Pop3.verify p s.directory, input.load⟩

def step (p : Primitives) (s : State) (input : Input) : State :=
  { s with session := (s.session.line p (backend p s input) input.line).2.2 }

def commandOffer (p : Primitives) (s : State) : Pop3.Command → Option Offer
  | .pass pass => s.session.user.map fun user ↦ .bare user pass
  | .auth (some mechanism) initial =>
    if mechanism ≠ "PLAIN".toList then none
    else (initial.bind (parsePlain p)).map fun credentials ↦ .bare credentials.1 credentials.2
  | _ => none

def offer (p : Primitives) (s : State) (input : Input) : Option Offer :=
  match s.session.state, Pop3.Command.parse input.line with
  | .authorization, .ok command => commandOffer p s command
  | _, _ => none

variable {p : Primitives} {s : State} {b : Pop3.Backend}

theorem account_authorization (now : ℕ) (command : Pop3.Command)
    (hb : b.verify = Pop3.verify p s.directory) :
    (s.session.authorization p b command).2.2.account =
      ((commandOffer p s command).bind (Offer.account p now s.directory .pop3s)).or
        s.session.account := by
  unfold Pop3.Session.authorization commandOffer
  cases command with
  | pass pass =>
    cases s.session.user with
    | none => rfl
    | some user =>
      change (s.session.login b user pass).2.2.account =
        (Pop3.verify p s.directory user pass).or s.session.account
      unfold Pop3.Session.login
      rw [hb]
      cases Pop3.verify p s.directory user pass with
      | none | some account => rfl
  | auth mechanism initial =>
    unfold Pop3.Session.auth
    cases mechanism with
    | none => rfl
    | some mechanism =>
      by_cases hplain : mechanism ≠ "PLAIN".toList
      · simp only [if_pos hplain]
        rfl
      · simp only [if_neg hplain, hb]
        cases initial.bind (parsePlain p) with
        | none => rfl
        | some credentials =>
          change _ = (Pop3.verify p s.directory credentials.1 credentials.2).or s.session.account
          rw [Option.bind_some]
          cases Pop3.verify p s.directory credentials.1 credentials.2 with
          | none | some account => rfl
  | _ => rfl

theorem session_withMessage (number : ℕ) (answer : Pop3.Message → Pop3.Response)
    (s : Pop3.Session) :
    (s.withMessage number answer).2.2 = s := by
  unfold Pop3.Session.withMessage
  split <;> rfl

theorem account_transaction (command : Pop3.Command) (s : Pop3.Session) :
    (s.transaction command).2.2.account = s.account := by
  unfold Pop3.Session.transaction
  cases command with
  | list number | uidl number =>
    cases number with
    | none => rfl
    | some number => exact congrArg Pop3.Session.account (session_withMessage number _ s)
  | retr number | top number lines =>
    exact congrArg Pop3.Session.account (session_withMessage number _ s)
  | dele number =>
    simp only
    split <;> rfl
  | _ => rfl

theorem account_step (input : Input) :
    (step p s input).session.account =
      ((offer p s input).bind (Offer.account p input.now s.directory .pop3s)).or
        s.session.account := by
  unfold step offer Pop3.Session.line Pop3.Session.handle
  cases Pop3.Command.parse input.line with
  | error error =>
    cases s.session.state with
    | authorization | transaction => rfl
  | ok command =>
    cases s.session.state with
    | authorization => exact account_authorization input.now command rfl
    | transaction => exact account_transaction command s.session

end Pop3Desk

def pop3 (p : Primitives) : Frontend p Pop3Desk.State Pop3Desk.Input where
  machine := ⟨fun _ _ ↦ True, Pop3Desk.step p⟩
  account := fun s ↦ s.session.account
  directory := fun s ↦ s.directory
  protocol := fun _ ↦ .pop3s
  now := Pop3Desk.Input.now
  offer := Pop3Desk.offer p
  directory_step := fun _ _ ↦ rfl
  account_step := fun s input _ h ↦
    eq_some_of_or ((Pop3Desk.account_step (p := p) (s := s) input).symm.trans h)

/-! ## ManageSieve -/

namespace SieveDesk

structure State where
  session : ManageSieve.Session
  directory : Directory

inductive Input
  | command (now : ℕ) (command : ManageSieve.Command)
      (answer : Text → ManageSieve.ScriptCommand → ManageSieve.Response)
  /-- The handshake is complete. -/
  | tlsStarted

def step (p : Primitives) (s : State) : Input → State
  | .command now command answer =>
    { s with
      session := (s.session.handle p ⟨ManageSieve.verify p now s.directory, answer⟩ command).2 }
  | .tlsStarted => { s with session := s.session.setTls }

def now : Input → ℕ
  | .command now _ _ => now
  | .tlsStarted => 0

def offer (p : Primitives) (s : State) : Input → Option Offer
  | .command _ (.authenticate mechanism initial) _ =>
    if s.session.account.isSome || !s.session.tls ||
      !eqIgnoreAsciiCase mechanism "PLAIN".toList then none
    else initial.bind (plainOffer p none)
  | _ => none

variable {p : Primitives} {s : State}

theorem account_step (input : Input) {a : Text} (h : (step p s input).session.account = some a) :
    s.session.account = some a ∨
      (offer p s input).bind (Offer.account p (now input) s.directory .manageSieve) = some a := by
  cases input with
  | tlsStarted => exact .inl h
  | command now command answer =>
    cases command with
    | authenticate mechanism initial =>
      change (s.session.authenticate p _ mechanism initial).2.account = some a at h
      unfold ManageSieve.Session.authenticate at h
      unfold offer
      by_cases haccount : s.session.account.isSome = true
      · rw [if_pos haccount] at h
        exact .inl h
      · rw [if_neg haccount] at h
        by_cases htls : (!s.session.tls) = true
        · rw [if_pos htls] at h
          exact .inl h
        · rw [if_neg htls] at h
          by_cases hplain : (!eqIgnoreAsciiCase mechanism "PLAIN".toList) = true
          · rw [if_pos hplain] at h
            exact .inl h
          · rw [if_neg hplain] at h
            simp only [haccount, htls, hplain, Bool.or_self, Bool.false_eq_true, if_false,
              Option.bind_assoc, bind_plainOffer, SieveDesk.now]
            rw [Option.bind_assoc] at h
            split at h
            · rename_i account hverify
              exact .inr (hverify.trans h)
            · exact .inl h
    | unauthenticate =>
      simp only [step, ManageSieve.Session.handle] at h
      split at h
      · exact absurd h nofun
      · exact .inl h
    | script command =>
      simp only [step, ManageSieve.Session.handle] at h
      split at h <;> exact .inl h
    | _ => exact .inl h

end SieveDesk

def manageSieve (p : Primitives) : Frontend p SieveDesk.State SieveDesk.Input where
  machine := ⟨fun _ _ ↦ True, SieveDesk.step p⟩
  account := fun s ↦ s.session.account
  directory := fun s ↦ s.directory
  protocol := fun _ ↦ .manageSieve
  now := SieveDesk.now
  offer := SieveDesk.offer p
  directory_step := fun s input ↦ by
    cases input with
    | command now command answer => rfl
    | tlsStarted => rfl
  account_step := fun _ input _ h ↦ SieveDesk.account_step input h

/-! ## All services -/

inductive Service
  | smtp
  | imap
  | pop3
  | manageSieve

namespace Service

/-- What a connection to the service keeps. -/
def State : Service → Type
  | .smtp => Acceptance.World
  | .imap => Imap.Auth.Session
  | .pop3 => Pop3Desk.State
  | .manageSieve => SieveDesk.State

def Input : Service → Type
  | .smtp => Acceptance.Input
  | .imap => ImapDesk.Input
  | .pop3 => Pop3Desk.Input
  | .manageSieve => SieveDesk.Input

def frontend (p : Primitives) : (service : Service) → Frontend p service.State service.Input
  | .smtp => Auth.smtp p
  | .imap => Auth.imap p
  | .pop3 => Auth.pop3 p
  | .manageSieve => Auth.manageSieve p

end Service

end Epistle.Auth
