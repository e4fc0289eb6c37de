import Epistle.Auth.Gates

/-!
# One-time codes

A code is the HOTP value of a time step. `totp::verify` compares a code with those of the current
step and of the two beside it, and nothing records which codes have been used: the directory is
shared by all servers and none of them changes it.

A step and its code are therefore accepted again and again, by every server, while the step is
within one of the current one (`replayed`), and never by a later attempt
(`accepted_iff_within_window`). The attempts that accept it lie in less than 90 seconds.

HMAC-SHA1 is a parameter.
-/

namespace Epistle.Totp

open TextFormat Smtp

/-- A message authentication code, of a key and a message. -/
abbrev Mac : Type := Bytes → Bytes → Bytes

def stepSeconds : ℕ := 30

def digits : ℕ := 6

/-- How many steps before and after the current one are accepted. -/
def skewWindow : ℕ := 1

/-- A number of 64 bits, the highest byte first. -/
def toBeBytes (counter : ℕ) : Bytes :=
  (List.range 8).map fun i ↦ UInt8.ofNat (counter / 256 ^ (7 - i))

/-- The HOTP value of a secret at a counter. The low four bits of the digest's last byte say where
in it the value is. -/
def hotp (hmacSha1 : Mac) (secret : Bytes) (counter digits : ℕ) : ℕ :=
  let digest := hmacSha1 secret (toBeBytes counter)
  let offset := (digest.getLastD 0 &&& 0x0f).toNat
  let binary := (digest.getD offset 0 &&& 0x7f).toNat * 2 ^ 24 +
    (digest.getD (offset + 1) 0).toNat * 2 ^ 16 + (digest.getD (offset + 2) 0).toNat * 2 ^ 8 +
      (digest.getD (offset + 3) 0).toNat
  binary % 10 ^ digits

/-- A number with zeros before it, up to `width` digits. -/
def zeroPadded (width n : ℕ) : Text :=
  List.replicate (width - (decimal n).length) '0' ++ decimal n

/-- Whether a code is that of the current step or of one beside it. -/
def verify (hmacSha1 : Mac) (secret : Bytes) (code now : ℕ) : Bool :=
  let counter := now / stepSeconds
  let expected := zeroPadded digits code
  let low := counter - skewWindow
  (List.range' low (counter + skewWindow + 1 - low)).any fun step ↦
    zeroPadded digits (hotp hmacSha1 secret step digits) == expected

theorem ofDigitChars_zeroPadded (width n : ℕ) : Nat.ofDigitChars 10 (zeroPadded width n) 0 = n := by
  rw [zeroPadded, Nat.ofDigitChars_append, Nat.ofDigitChars_replicate_zero, mul_zero, decimal,
    Nat.ofDigitChars_ten_toDigits]

theorem zeroPadded_inj {width m n : ℕ} : zeroPadded width m = zeroPadded width n ↔ m = n := by
  constructor
  · intro h
    rw [← ofDigitChars_zeroPadded width m, h, ofDigitChars_zeroPadded]
  · intro h
    rw [h]

/-- The step is the current one or beside it. -/
def Near (now step : ℕ) : Prop :=
  now / stepSeconds ≤ step + skewWindow ∧ step ≤ now / stepSeconds + skewWindow

instance (now step : ℕ) : Decidable (Near now step) :=
  inferInstanceAs (Decidable (_ ∧ _))

theorem near_iff {now step : ℕ} :
    Near now step ↔ now < (step + 2) * 30 ∧ step * 30 ≤ now + 30 := by
  simp only [Near, stepSeconds, skewWindow]
  omega

/-- `verify` accepts the codes of the steps that are near. -/
theorem verify_iff {hmacSha1 : Mac} {secret : Bytes} {code now : ℕ} :
    verify hmacSha1 secret code now = true ↔
      ∃ step, Near now step ∧ hotp hmacSha1 secret step digits = code := by
  unfold verify
  rw [List.any_eq_true]
  constructor
  · rintro ⟨step, hstep, heq⟩
    refine ⟨step, ?_, zeroPadded_inj.mp (beq_iff_eq.mp heq)⟩
    rw [List.mem_range'_1] at hstep
    rw [Near]
    omega
  · rintro ⟨step, hnear, rfl⟩
    refine ⟨step, ?_, beq_self_eq_true _⟩
    rw [Near] at hnear
    rw [List.mem_range'_1]
    omega

/-! ## Attempts -/

/-- The primitives with this `totp::verify`. -/
def primitives (hmacSha1 : Mac) (p : Primitives) : Primitives :=
  { p with totpVerify := verify hmacSha1 }

/-- A login and a password, sent to one of the services. -/
structure Attempt where
  now : ℕ
  login : Text
  password : Text
  ip : Option IpAddr
  protocol : Protocol

namespace Attempt

/-- The account that the attempt signs in. -/
def outcome (hmacSha1 : Mac) (p : Primitives) (directory : Directory) (attempt : Attempt) :
    Option Text :=
  directory.authenticateWithIp (primitives hmacSha1 p) attempt.now attempt.login attempt.password
    attempt.ip attempt.protocol

def offer (attempt : Attempt) : Auth.Offer := .password attempt.login attempt.password attempt.ip

def code (attempt : Attempt) : Text := attempt.password.drop (attempt.password.length - 6)

/-- What is before the code. -/
def rest (attempt : Attempt) : Text := attempt.password.take (attempt.password.length - 6)

end Attempt

section

variable (hmacSha1 : Mac) (p : Primitives) (directory : Directory)

def CodeOf (account : Text) (step code : ℕ) : Prop :=
  ∃ secret ∈ directory.totp.lookup account, ∃ bytes ∈ p.decodeBase32Secret secret,
    hotp hmacSha1 bytes step digits = code

/-- The attempt gives the account's own password with a code after it, and the account may use the
service. The time has no part in this. -/
structure Entitled (account : Text) (code : ℕ) (attempt : Attempt) : Prop where
  hash : ∃ hash, directory.credentials p attempt.login = some (account, hash) ∧
    p.verifyPassword hash attempt.rest = true
  enabled : account ∉ directory.disabled
  allowed : directory.isProtocolAllowed account attempt.protocol = true
  long : 7 ≤ utf8Len attempt.password
  six : attempt.code.length = 6
  digits : attempt.code.all Char.isDigit = true
  value : parseDecimal attempt.code = some code

/-- The attempt signs the account in by its own password, with the code of the step. -/
structure AcceptedWith (account : Text) (step code : ℕ) (attempt : Attempt) : Prop where
  outcome : attempt.outcome hmacSha1 p directory = some account
  own : Entitled p directory account code attempt
  near : Near attempt.now step
  codeOf : CodeOf hmacSha1 p directory account step code

/-- The attempt signs the account in, not by one of its app passwords and not because the LDAP
server says so. -/
structure ByOwnPassword (account : Text) (attempt : Attempt) : Prop where
  outcome : attempt.outcome hmacSha1 p directory = some account
  notPast : attempt.offer.pastLocal (primitives hmacSha1 p) attempt.now directory attempt.protocol =
    none
  own : attempt.offer.isPrimary (primitives hmacSha1 p) attempt.now directory account = true

variable {hmacSha1 p directory} {account : Text} {step code : ℕ} {attempt : Attempt}

/-- Nothing but the clock decides on a code that was valid once. -/
theorem outcome_of_near (hown : Entitled p directory account code attempt)
    (hnear : Near attempt.now step) (hcode : CodeOf hmacSha1 p directory account step code) :
    attempt.outcome hmacSha1 p directory = some account := by
  obtain ⟨secret, hsecret, bytes, hbytes, hvalue⟩ := hcode
  obtain ⟨hash, hcredentials, hhash⟩ := hown.hash
  have hverify : verify hmacSha1 bytes code attempt.now = true :=
    verify_iff.mpr ⟨step, hnear, hvalue⟩
  have hstrip : Directory.totpStrip (primitives hmacSha1 p) attempt.now attempt.password secret =
      some attempt.rest :=
    Auth.totpStrip_eq_some.mpr ⟨hown.long, hown.six, hown.digits, code, hown.value, bytes, hbytes,
      hverify, rfl⟩
  have hlocal : directory.authenticateLocal (primitives hmacSha1 p) attempt.now attempt.login
      attempt.password attempt.ip = some account := by
    refine Auth.authenticateLocal_eq_some.mpr ⟨hash, hcredentials, hown.enabled, .inl ?_⟩
    rw [Option.mem_def.mp hsecret, Option.elim_some, hstrip]
    exact hhash
  rw [Attempt.outcome, Directory.authenticateWithIp, hlocal]
  simp [hown.allowed]

theorem acceptedWith_iff : AcceptedWith hmacSha1 p directory account step code attempt ↔
    Entitled p directory account code attempt ∧ CodeOf hmacSha1 p directory account step code ∧
      Near attempt.now step := by
  constructor
  · intro h
    exact ⟨h.own, h.codeOf, h.near⟩
  · rintro ⟨hown, hcode, hnear⟩
    exact ⟨outcome_of_near hown hnear hcode, hown, hnear, hcode⟩

theorem AcceptedWith.lt_add {later : Attempt}
    (h : AcceptedWith hmacSha1 p directory account step code attempt)
    (hlater : AcceptedWith hmacSha1 p directory account step code later) :
    later.now < attempt.now + 90 := by
  have hfirst := near_iff.mp h.near
  have hsecond := near_iff.mp hlater.near
  omega

/-- The same login and password, sent to the same service, are entitled again. -/
theorem Entitled.again {again : Attempt} (h : Entitled p directory account code attempt)
    (hlogin : again.login = attempt.login) (hpassword : again.password = attempt.password)
    (hprotocol : directory.isProtocolAllowed account again.protocol = true) :
    Entitled p directory account code again := by
  have hrest : again.rest = attempt.rest := by rw [Attempt.rest, Attempt.rest, hpassword]
  have hcode : again.code = attempt.code := by rw [Attempt.code, Attempt.code, hpassword]
  constructor
  · rw [hlogin, hrest]
    exact h.hash
  · exact h.enabled
  · exact hprotocol
  · rw [hpassword]
    exact h.long
  · rw [hcode]
    exact h.six
  · rw [hcode]
    exact h.digits
  · rw [hcode]
    exact h.value

theorem ByOwnPassword.authenticateLocal (h : ByOwnPassword hmacSha1 p directory account attempt) :
    directory.authenticateLocal (primitives hmacSha1 p) attempt.now attempt.login attempt.password
        attempt.ip = some account ∧
      directory.isProtocolAllowed account attempt.protocol = true := by
  obtain ⟨houtcome, hpast, -⟩ := h
  rw [Attempt.outcome, Directory.authenticateWithIp, Option.filter_eq_some_iff] at houtcome
  obtain ⟨houtcome, hallowed⟩ := houtcome
  refine ⟨?_, hallowed⟩
  cases hlocal : directory.authenticateLocal (primitives hmacSha1 p) attempt.now attempt.login
      attempt.password attempt.ip with
  | some found =>
    rw [hlocal] at houtcome
    exact houtcome
  | none =>
    -- then the LDAP server has accepted the password
    rw [hlocal, Option.none_or] at houtcome
    rw [Attempt.offer, Auth.Offer.pastLocal, hlocal, houtcome, Option.isSome_none,
      if_neg Bool.false_ne_true, Option.filter_some, if_pos hallowed] at hpast
    cases hpast

/-- Whoever has a secret and is signed in by their own password has sent the code of a step that is
near. -/
theorem exists_acceptedWith {secret : Text} (hsecret : directory.totp.lookup account = some secret)
    (h : ByOwnPassword hmacSha1 p directory account attempt) :
    ∃ step code, AcceptedWith hmacSha1 p directory account step code attempt := by
  obtain ⟨hlocal, hallowed⟩ := h.authenticateLocal
  obtain ⟨hash, hcredentials, rest, hrest, hhash⟩ :=
    Auth.totpStrip_of_authenticateLocal hlocal hsecret h.own
  obtain ⟨hlong, hsix, hdigits, code, hvalue, bytes, hbytes, hverify, rfl⟩ :=
    Auth.totpStrip_eq_some.mp hrest
  obtain ⟨step, hnear, hcode⟩ := verify_iff.mp hverify
  have hown : Entitled p directory account code attempt :=
    ⟨⟨hash, hcredentials, hhash⟩, (Auth.authenticateLocal_spec hlocal).1, hallowed, hlong,
      hsix, hdigits, hvalue⟩
  exact ⟨step, code, acceptedWith_iff.mpr ⟨hown, ⟨secret, hsecret, bytes, hbytes, hcode⟩, hnear⟩⟩

end

/-! ## Sequences of attempts -/

/-- **A code is accepted while its step is near**, for every account with a TOTP secret and in every
sequence of attempts, at any services, in which the time does not go back. A step and its code are
accepted in every attempt that gives the account's password and is made within one step of it, and
in no other. After they have been accepted, the same login and password are accepted again, by every
service that the account may use, until the step is more than one step ago; so all attempts that
accept them are less than 90 seconds apart. Every sign-in by the account's own password is with such
a step and code. -/
theorem accepted_iff_within_window (hmacSha1 : Mac) (p : Primitives) (directory : Directory)
    (account secret : Text) (hsecret : directory.totp.lookup account = some secret)
    (attempts : List Attempt) (hordered : attempts.Pairwise fun a b ↦ a.now ≤ b.now) :
    (∀ step code, CodeOf hmacSha1 p directory account step code →
      (∀ a ∈ attempts, Entitled p directory account code a →
        (AcceptedWith hmacSha1 p directory account step code a ↔
          a.now / stepSeconds ≤ step + 1 ∧ step ≤ a.now / stepSeconds + 1)) ∧
      attempts.Pairwise fun a b ↦ AcceptedWith hmacSha1 p directory account step code a →
        (b.login = a.login → b.password = a.password →
          directory.isProtocolAllowed account b.protocol = true →
          (AcceptedWith hmacSha1 p directory account step code b ↔
            b.now / stepSeconds ≤ step + 1)) ∧
        (AcceptedWith hmacSha1 p directory account step code b → b.now < a.now + 90)) ∧
    ∀ a ∈ attempts, ByOwnPassword hmacSha1 p directory account a →
      ∃ step code, AcceptedWith hmacSha1 p directory account step code a := by
  refine ⟨fun step code hcode ↦ ⟨fun a _ hown ↦ ?_, ?_⟩, fun a _ hsigned ↦ ?_⟩
  · rw [acceptedWith_iff]
    constructor
    · rintro ⟨-, -, hnear⟩
      exact hnear
    · intro hnear
      exact ⟨hown, hcode, hnear⟩
  · refine hordered.imp fun hle hfirst ↦ ⟨fun hlogin hpassword hallowed ↦ ?_, hfirst.lt_add⟩
    constructor
    · intro hsecond
      exact hsecond.near.1
    · intro hnear
      exact acceptedWith_iff.mpr ⟨hfirst.own.again hlogin hpassword hallowed, hcode, hnear,
        hfirst.near.2.trans (Nat.add_le_add_right (Nat.div_le_div_right hle) _)⟩
  · exact exists_acceptedWith hsecret hsigned

/-- A digest of twenty bytes that begins with the counter's low half. -/
def counting : Mac := fun _ message ↦ message.drop 4 ++ List.replicate 16 0

/-- Alice signs in to read, and a minute later somebody else sends what they have seen. -/
def overheard : List Attempt :=
  [⟨59, "alice".toList, "a000002".toList, none, .imaps⟩,
    ⟨118, "alice".toList, "a000002".toList, none, .submission⟩]

theorem codeOf_overheard : CodeOf counting .plain Auth.office "alice".toList 2 2 :=
  ⟨"key".toList, by decide, encodeUtf8 "key".toList, by decide, by decide⟩

theorem entitled_overheard :
    ∀ a ∈ overheard, Entitled .plain Auth.office "alice".toList 2 a := by
  intro a ha
  have hall : ∀ a ∈ overheard, Auth.office.credentials .plain a.login =
    some ("alice".toList, ['a']) ∧
      a.rest = ['a'] ∧ Auth.office.isProtocolAllowed "alice".toList a.protocol = true ∧
      7 ≤ utf8Len a.password ∧ a.code.length = 6 ∧ a.code.all Char.isDigit = true ∧
      parseDecimal a.code = some 2 := by
    decide
  obtain ⟨hcredentials, hrest, hallowed, hlong, hsix, hdigits, hvalue⟩ := hall a ha
  refine ⟨⟨['a'], hcredentials, ?_⟩, by decide, hallowed, hlong, hsix, hdigits, hvalue⟩
  rw [hrest]
  decide

theorem accepted_iff_within_window_overheard :
    overheard.Forall (AcceptedWith counting .plain Auth.office "alice".toList 2 2) := by
  refine List.forall_iff_forall_mem.2 fun a ha ↦ ?_
  have hnear : ∀ a ∈ overheard, a.now / stepSeconds ≤ 2 + 1 ∧ 2 ≤ a.now / stepSeconds + 1 := by
    decide
  have hwindow := accepted_iff_within_window counting .plain Auth.office "alice".toList "key".toList
    (by decide) overheard (by decide)
  exact ((hwindow.1 2 2 codeOf_overheard).1 a ha (entitled_overheard a ha)).mpr (hnear a ha)

/-- The code is accepted twice. -/
theorem replayed :
    ∃ a b : Attempt, a.now < b.now ∧ AcceptedWith counting .plain Auth.office "alice".toList 2 2 a ∧
      AcceptedWith counting .plain Auth.office "alice".toList 2 2 b := by
  have hall : ∀ a ∈ overheard, Near a.now 2 := by decide
  have haccepted : ∀ a ∈ overheard, AcceptedWith counting .plain Auth.office "alice".toList 2 2 a :=
    fun a ha ↦ acceptedWith_iff.mpr ⟨entitled_overheard a ha, codeOf_overheard, hall a ha⟩
  refine ⟨_, _, ?_, haccepted _ List.mem_cons_self,
    haccepted _ (List.mem_cons_of_mem _ List.mem_cons_self)⟩
  decide

end Epistle.Totp
