import Epistle.Interleaving.Machine
import Epistle.Smtp.Session

/-!
# What clients sign in with

A client signs in by offering something: a login and a password, a SCRAM proof, its certificate, a
token. Whom an offer signs in depends on the offer, the directory and the time. A *front end* is a
service with sessions; its law is that nobody becomes the user of a session except by an offer.

`Frontend.watched` records the offers that have signed somebody in.
-/

namespace Epistle.Auth

open TextFormat Smtp Interleaving

inductive Offer
  | password (login password : Text) (ip : Option IpAddr)
  /-- A password that is compared with the account's hash only. -/
  | bare (login password : Text)
  /-- The client-final message of a SCRAM exchange about an account. -/
  | proof (server : ScramServer) (credentials : ScramCredentials) (account clientFinal : Text)
  | certificate (identity : Text)
  /-- A token that was found to be for an address. -/
  | token (email : Text)

def bareAccount (p : Primitives) (directory : Directory) (login password : Text) : Option Text :=
  ((directory.credentials p login).filter fun credentials ↦
    p.verifyPassword credentials.2 password).map Prod.fst

/-- Whom an offer signs in to a service. The right to use the service is not asked for once more at
the end of a SCRAM exchange. -/
def Offer.account (p : Primitives) (now : ℕ) (directory : Directory) (protocol : Protocol) :
    Offer → Option Text
  | .password login pass ip => directory.authenticateWithIp p now login pass ip protocol
  | .bare login pass =>
    (bareAccount p directory login pass).filter (directory.isProtocolAllowed · protocol)
  | .proof server credentials account clientFinal =>
    if (server.finish p clientFinal credentials).toBool then some account else none
  | .certificate identity =>
    (directory.accountOf p identity).filter (directory.isProtocolAllowed · protocol)
  | .token email => (directory.accountOf p email).filter (directory.isProtocolAllowed · protocol)

/-! ## Offers in the responses of clients -/

def plainOffer (p : Primitives) (ip : Option IpAddr) (encoded : Text) : Option Offer :=
  (parsePlain p encoded).map fun credentials ↦ .password credentials.1 credentials.2 ip

/-- The certificate, if an EXTERNAL response asks for nobody else. -/
def externalOffer (p : Primitives) (identity : Option Text) (encoded : Text) : Option Offer := do
  let identity ← identity
  let authzid ← Session.externalAuthzid p encoded
  if !authzid.isEmpty && authzid != identity then none else some (.certificate identity)

def tokenOffer (p : Primitives) (oauth : Option (Text → ℕ → Option Text)) (now : ℕ)
    (initial : Option Text) : Option Offer := do
  let verify ← oauth
  let token ← initial.bind (parseBearer p)
  let email ← verify token now
  pure (.token email)

/-! ## Front ends -/

/-- A service with sessions `σ` that take inputs `ι`. -/
structure Frontend (p : Primitives) (σ ι : Type) where
  machine : Machine σ ι
  /-- The user of a session. -/
  account : σ → Option Text
  directory : σ → Directory
  protocol : σ → Protocol
  now : ι → ℕ
  offer : σ → ι → Option Offer
  directory_step : ∀ s i, directory (machine.step s i) = directory s
  /-- The user has been the user before, or is signed in by what was offered. -/
  account_step : ∀ s i a, account (machine.step s i) = some a → account s = some a ∨
    (offer s i).bind (Offer.account p (now i) (directory s) (protocol s)) = some a

/-- An offer has signed somebody in. -/
structure SignIn where
  account : Text
  offer : Offer
  now : ℕ

/-- A session, and who has signed in how. -/
structure Watched (σ : Type) where
  session : σ
  signIns : List SignIn

namespace Frontend

variable {p : Primitives} {σ ι : Type} (f : Frontend p σ ι)

def signIn (s : σ) (i : ι) : Option SignIn := do
  let o ← f.offer s i
  let a ← o.account p (f.now i) (f.directory s) (f.protocol s)
  if f.account (f.machine.step s i) = some a then some ⟨a, o, f.now i⟩ else none

def watched : Machine (Watched σ) ι where
  enabled := fun w i ↦ f.machine.enabled w.session i
  step := fun w i ↦ ⟨f.machine.step w.session i, w.signIns ++ (f.signIn w.session i).toList⟩

instance [∀ s i, Decidable (f.machine.enabled s i)] (w : Watched σ) (i : ι) :
    Decidable (f.watched.enabled w i) := inferInstanceAs (Decidable (f.machine.enabled w.session i))

theorem mem_signIn {s : σ} {i : ι} {r : SignIn} (h : f.signIn s i = some r) :
    f.offer s i = some r.offer ∧ r.now = f.now i ∧
      r.offer.account p (f.now i) (f.directory s) (f.protocol s) = some r.account := by
  obtain ⟨o, hoffer, h⟩ := Option.bind_eq_some_iff.mp h
  obtain ⟨a, haccount, h⟩ := Option.bind_eq_some_iff.mp h
  split at h
  · rw [← Option.some.inj h]
    exact ⟨hoffer, rfl, haccount⟩
  · exact absurd h nofun

/-- Whoever is the user now and was not before has signed in. -/
theorem signIn_of_account {s : σ} {i : ι} {a : Text}
    (h : f.account (f.machine.step s i) = some a) :
    f.account s = some a ∨ ∃ r, f.signIn s i = some r ∧ r.account = a := by
  rcases f.account_step s i a h with hbefore | hsigned
  · exact .inl hbefore
  · obtain ⟨o, hoffer, haccount⟩ := Option.bind_eq_some_iff.mp hsigned
    simp [signIn, hoffer, haccount, h]

/-- What every new sign-in has, given that the condition is met, every sign-in of a run has. The
directory stays the same, and whoever is the user has signed in. -/
theorem signIns_of_reach {guard : Watched σ → ι → Prop} {s₀ : σ} (h₀ : f.account s₀ = none)
    {P : SignIn → Prop} (hP : ∀ w i r, guard w i → f.directory w.session = f.directory s₀ →
      f.signIn w.session i = some r → P r) {w : Watched σ}
    (hreach : f.watched.Reach guard ⟨s₀, []⟩ w) :
    (∀ r ∈ w.signIns, P r) ∧ ∀ a, f.account w.session = some a →
      ∃ r ∈ w.signIns, r.account = a := by
  have hinvariant : f.directory w.session = f.directory s₀ ∧ (∀ r ∈ w.signIns, P r) ∧
      ∀ a, f.account w.session = some a → ∃ r ∈ w.signIns, r.account = a := by
    refine Machine.Reach.invariant (I := fun w ↦ f.directory w.session = f.directory s₀ ∧
      (∀ r ∈ w.signIns, P r) ∧
        ∀ a, f.account w.session = some a → ∃ r ∈ w.signIns, r.account = a) ?_ ?_ hreach
    · refine ⟨rfl, nofun, fun a ha ↦ ?_⟩
      rw [h₀] at ha
      exact absurd ha nofun
    · intro w i ⟨hdirectory, hall, huser⟩ _ hguard
      refine ⟨(f.directory_step w.session i).trans hdirectory, ?_, ?_⟩
      · intro r hr
        rcases List.mem_append.mp hr with hr | hr
        · exact hall r hr
        · exact hP w i r hguard hdirectory (Option.mem_toList.mp hr)
      · intro a ha
        rcases f.signIn_of_account ha with hbefore | ⟨r, hr, heq⟩
        · obtain ⟨r, hr, heq⟩ := huser a hbefore
          exact ⟨r, List.mem_append_left _ hr, heq⟩
        · exact ⟨r, List.mem_append_right _ (Option.mem_toList.mpr hr), heq⟩
  exact hinvariant.2

end Frontend

end Epistle.Auth
