import Epistle.Smtp.Scram

/-!
# The SCRAM exchange

`first` reads the client-first message and `finish` the client-final message. What they check is
stated here for the two messages as they were sent (`Transcript`): the parts of the first message,
the values in the final message, and the bytes that the proof is about. On a link with channel
binding the server accepts exactly the messages with a transcript, every client that follows the
protocol and knows the password has one, and no final message has one with two server nonces of the
same length.

The libraries are assumed to be as `Primitives.Lawful` says.
-/

namespace Epistle.Smtp

open TextFormat

/-- What the exchange needs of the libraries. -/
structure Primitives.Lawful (p : Primitives) : Prop where
  base64Decode_encode : ∀ bytes, p.base64Decode (p.base64Encode bytes) = some bytes
  comma_not_mem : ∀ bytes, ',' ∉ p.base64Encode bytes
  length_hmac : ∀ key message, (p.hmacSha256 key message).length = 32
  length_sha : ∀ message, (p.sha256 message).length = 32

/-- PBKDF2 of a password, a salt and an iteration count. -/
abbrev Pbkdf2 : Type := Text → Bytes → ℕ → Bytes

section Credentials

variable (p : Primitives) (pbkdf2 : Pbkdf2)

/-- The client's key. Without a valid count there is one iteration. -/
def clientKey (password : Text) (salt : Bytes) (iterations : ℕ) : Bytes :=
  p.hmacSha256 (pbkdf2 password salt (max iterations 1)) (encodeUtf8 "Client Key".toList)

def ScramCredentials.derive (password : Text) (salt : Bytes) (iterations : ℕ) :
    ScramCredentials where
  salt := salt
  iterations := iterations
  storedKey := p.sha256 (clientKey p pbkdf2 password salt iterations)
  serverKey := p.hmacSha256 (pbkdf2 password salt (max iterations 1))
    (encodeUtf8 "Server Key".toList)

def ScramStored.fromCredentials (credentials : ScramCredentials) : ScramStored where
  salt := p.base64Encode credentials.salt
  iterations := credentials.iterations
  storedKey := p.base64Encode credentials.storedKey
  serverKey := p.base64Encode credentials.serverKey

variable {p pbkdf2}

theorem decodeKey_encode (hp : p.Lawful) {key : Bytes} (hkey : key.length = 32) :
    decodeKey p (p.base64Encode key) = some key := by
  rw [decodeKey, hp.base64Decode_encode, Option.filter_some, if_pos (by simpa using hkey)]

theorem ScramStored.toCredentials_fromCredentials (hp : p.Lawful) {credentials : ScramCredentials}
    (hstored : credentials.storedKey.length = 32) (hserver : credentials.serverKey.length = 32) :
    (fromCredentials p credentials).toCredentials p = some credentials := by
  rw [toCredentials, fromCredentials]
  dsimp only
  rw [decodeKey_encode hp hstored, decodeKey_encode hp hserver, hp.base64Decode_encode]
  rfl

theorem ScramStored.toCredentials_derive (hp : p.Lawful) (password : Text) (salt : Bytes)
    (iterations : ℕ) :
    (fromCredentials p (.derive p pbkdf2 password salt iterations)).toCredentials p =
      some (.derive p pbkdf2 password salt iterations) :=
  toCredentials_fromCredentials hp (hp.length_sha _) (hp.length_hmac _ _)

end Credentials

/-! ## Texts -/

variable {t pattern : Text} {i : ℕ} {a b : Bytes}

theorem nthCommaRest_two {bare : Text} :
    nthCommaRest t 2 = some bare ↔
      ∃ flag authzid, t = flag ++ ',' :: (authzid ++ ',' :: bare) ∧ ',' ∉ flag ∧ ',' ∉ authzid := by
  constructor
  · intro h
    obtain ⟨⟨flag, rest⟩, hflag, h⟩ := Option.bind_eq_some_iff.mp h
    obtain ⟨⟨authzid, last⟩, hauthzid, h⟩ := Option.bind_eq_some_iff.mp h
    obtain rfl := Option.some.inj h
    obtain ⟨rfl, hcomma⟩ := splitOnce_eq_some.mp hflag
    obtain ⟨rfl, hcomma'⟩ := splitOnce_eq_some.mp hauthzid
    exact ⟨flag, authzid, rfl, hcomma, hcomma'⟩
  · rintro ⟨flag, authzid, rfl, hflag, hauthzid⟩
    rw [nthCommaRest, splitOnce_append hflag, Option.bind_some, nthCommaRest,
      splitOnce_append hauthzid, Option.bind_some, nthCommaRest]

theorem tag_append_cons (ht : ',' ∉ t) (rest : Text) (key : String) :
    tag (t ++ ',' :: rest) key = (stripStart key.toList t).or (tag rest key) := by
  rw [tag, tag, List.splitOn_append_cons_self_of_not_mem ht, List.findSome?_cons]
  cases stripStart key.toList t <;> rfl

theorem tag_of_not_mem (ht : ',' ∉ t) (key : String) : tag t key = stripStart key.toList t := by
  rw [tag, List.splitOn_eq_singleton ht, List.findSome?_singleton]

theorem stripStart_append (beginning t : Text) :
    stripStart beginning (beginning ++ t) = some t := by
  rw [stripStart, if_pos (List.isPrefixOf_iff_prefix.mpr (List.prefix_append _ _)), List.drop_left]

theorem find_range_reverse {n : ℕ} {q : ℕ → Bool} :
    (List.range n).reverse.find? q = some i ↔
      i < n ∧ q i = true ∧ ∀ j < n, q j = true → j ≤ i := by
  induction n with
  | zero => simp
  | succ n ih =>
    rw [List.range_succ, List.reverse_append, List.reverse_singleton, List.singleton_append,
      List.find?_cons]
    cases hn : q n with
    | true =>
      constructor
      · intro h
        obtain rfl := Option.some.inj h
        exact ⟨Nat.lt_succ_self n, hn, fun j hj _ ↦ Nat.lt_succ_iff.mp hj⟩
      · rintro ⟨hi, -, hlast⟩
        rw [Nat.le_antisymm (hlast n (Nat.lt_succ_self n) hn) (Nat.lt_succ_iff.mp hi)]
    | false =>
      dsimp only
      rw [ih]
      constructor
      · rintro ⟨hi, hq, hlast⟩
        refine ⟨Nat.lt_succ_of_lt hi, hq, fun j hj hqj ↦ ?_⟩
        rcases Nat.lt_succ_iff_lt_or_eq.mp hj with hlt | rfl
        · exact hlast j hlt hqj
        · rw [hn] at hqj
          cases hqj
      · rintro ⟨hi, hq, hlast⟩
        rcases Nat.lt_succ_iff_lt_or_eq.mp hi with hlt | rfl
        · exact ⟨hlt, hq, fun j hj ↦ hlast j (Nat.lt_succ_of_lt hj)⟩
        · rw [hn] at hq
          cases hq

/-- `head` is what comes before the last occurrence of `pattern`. -/
def IsBeforeLast (pattern t head : Text) : Prop :=
  (∃ rest, t = head ++ (pattern ++ rest)) ∧
    ∀ before rest, t = before ++ (pattern ++ rest) → before.length ≤ head.length

theorem isPrefixOf_drop_iff_exists :
    pattern.isPrefixOf (t.drop i) = true ↔ ∃ rest, t = t.take i ++ (pattern ++ rest) := by
  rw [List.isPrefixOf_iff_prefix]
  constructor
  · rintro ⟨rest, hrest⟩
    exact ⟨rest, by rw [hrest, List.take_append_drop]⟩
  · rintro ⟨rest, hrest⟩
    refine ⟨rest, ?_⟩
    exact List.append_cancel_left (hrest.symm.trans (List.take_append_drop i t).symm)

theorem beforeLast_eq_some {head : Text} :
    beforeLast pattern t = some head ↔ IsBeforeLast pattern t head := by
  rw [beforeLast, Option.map_eq_some_iff]
  constructor
  · rintro ⟨i, hi, rfl⟩
    obtain ⟨hlt, hoccurs, hlast⟩ := find_range_reverse.mp hi
    refine ⟨isPrefixOf_drop_iff_exists.mp hoccurs, fun before rest hbefore ↦ ?_⟩
    have hle : before.length ≤ t.length := by
      rw [hbefore, List.length_append]
      exact Nat.le_add_right _ _
    have hat : pattern.isPrefixOf (t.drop before.length) = true := by
      rw [List.isPrefixOf_iff_prefix, hbefore, List.drop_left]
      exact List.prefix_append _ _
    have := hlast before.length (Nat.lt_succ_of_le hle) hat
    rw [List.length_take]
    omega
  · rintro ⟨⟨rest, hrest⟩, hlast⟩
    have hle : head.length ≤ t.length := by
      rw [hrest, List.length_append]
      exact Nat.le_add_right _ _
    refine ⟨head.length, find_range_reverse.mpr ⟨Nat.lt_succ_of_le hle, ?_, fun j hj hoccurs ↦ ?_⟩,
      ?_⟩
    · rw [List.isPrefixOf_iff_prefix, hrest, List.drop_left]
      exact List.prefix_append _ _
    · obtain ⟨after, hafter⟩ := isPrefixOf_drop_iff_exists.mp hoccurs
      have := hlast _ _ hafter
      rw [List.length_take] at this
      omega
    · rw [hrest, List.take_left]

theorem isBeforeLast_append (head : Text) {tail : Text} (htail : ',' ∉ tail) :
    IsBeforeLast ",p=".toList (head ++ (",p=".toList ++ tail)) head := by
  refine ⟨⟨tail, rfl⟩, fun before rest h ↦ ?_⟩
  by_contra hlonger
  -- a later occurrence has its comma in what follows the pattern
  obtain ⟨between, rfl, hbetween⟩ | ⟨between, rfl, -⟩ := List.append_eq_append_iff.mp h
  · cases between with
    | nil => simp at hlonger
    | cons c between =>
      have hrest : "p=".toList ++ tail = between ++ (",p=".toList ++ rest) :=
        (List.cons.inj hbetween).2
      have hmem : ',' ∈ "p=".toList ++ tail := by
        rw [hrest]
        simp
      simp [htail] at hmem
  · simp at hlonger

/-! ## The messages of an exchange -/

/-- The flag that the client's first message begins with, and the data that the exchange is bound
to. -/
def ChannelBinding.demands : ChannelBinding → Option (Text × Bytes)
  | .unsupported => none
  | .supported => some ("n".toList, [])
  | .required data => some ("p=tls-server-end-point".toList, data)

def firstReply (p : Primitives) (combinedNonce : Text) (credentials : ScramCredentials) : Text :=
  "r=".toList ++ combinedNonce ++ ",s=".toList ++ p.base64Encode credentials.salt ++ ",i=".toList ++
    decimal credentials.iterations

/-- What the proof is about: the bytes of three messages with commas between them. -/
def authMessage (clientFirstBare serverFirst withoutProof : Text) : Bytes :=
  encodeUtf8 clientFirstBare ++ 0x2c :: (encodeUtf8 serverFirst ++ 0x2c :: encodeUtf8 withoutProof)

/-- The bytes of two keys, combined. -/
def xorBytes (a b : Bytes) : Bytes := a.zipWith (· ^^^ ·) b

theorem encodeUtf8_joined (clientFirstBare serverFirst withoutProof : Text) :
    encodeUtf8 (clientFirstBare ++ ',' :: (serverFirst ++ ',' :: withoutProof)) =
      authMessage clientFirstBare serverFirst withoutProof := by
  rw [encodeUtf8_append, encodeUtf8_cons, encodeUtf8_append, encodeUtf8_cons, authMessage]
  rfl

/-- Two messages that the server is to accept: how they are made up, and what the values in them
are. -/
structure Transcript (p : Primitives) (flag : Text) (data : Bytes) (serverNonce : Text)
    (credentials : ScramCredentials) (clientFirst clientFinal : Text) where
  authzid : Text
  bare : Text
  username : Text
  clientNonce : Text
  cbind : Text
  proofText : Text
  proof : Bytes
  withoutProof : Text
  /-- The GS2 header has the flag, and ends with the second comma. -/
  clientFirst_eq : clientFirst = flag ++ ',' :: (authzid ++ ',' :: bare)
  comma_not_mem : ',' ∉ authzid
  username_eq : tag bare "n=" = some username
  clientNonce_eq : tag bare "r=" = some clientNonce
  nonce_eq : tag clientFinal "r=" = some (clientNonce ++ serverNonce)
  cbind_eq : tag clientFinal "c=" = some cbind
  decode_cbind :
    p.base64Decode cbind = some (encodeUtf8 (flag ++ ',' :: (authzid ++ [','])) ++ data)
  proofText_eq : tag clientFinal "p=" = some proofText
  decode_proof : p.base64Decode proofText = some proof
  length_proof : proof.length = 32
  withoutProof_eq : IsBeforeLast ",p=".toList clientFinal withoutProof
  sha_eq : p.sha256 (xorBytes proof (p.hmacSha256 credentials.storedKey
    (authMessage bare (firstReply p (clientNonce ++ serverNonce) credentials) withoutProof))) =
      credentials.storedKey

def exchange (p : Primitives) (serverNonce : Text) (policy : ChannelBinding)
    (credentials : ScramCredentials) (clientFirst clientFinal : Text) : Except ScramError Text :=
  let step := (ScramServer.new serverNonce policy).first p clientFirst credentials
  match step.1 with
  | .ok _ => step.2.finish p clientFinal credentials
  | .error e => .error e

def Accepted (p : Primitives) (serverNonce : Text) (policy : ChannelBinding)
    (credentials : ScramCredentials) (clientFirst clientFinal : Text) : Prop :=
  ∃ serverFinal, exchange p serverNonce policy credentials clientFirst clientFinal = .ok serverFinal

section

variable {p : Primitives} {serverNonce : Text} {policy : ChannelBinding}
  {credentials : ScramCredentials} {clientFirst clientFinal flag : Text} {data : Bytes}

theorem flagOk_iff (hpolicy : policy.demands = some (flag, data)) (t : Text) :
    ScramServer.flagOk policy t = true ↔ t = flag := by
  cases policy with
  | unsupported => cases hpolicy
  | supported | required bound =>
    obtain ⟨rfl, rfl⟩ := Prod.mk.inj (Option.some.inj hpolicy)
    exact beq_iff_eq

theorem comma_not_mem_flag (hpolicy : policy.demands = some (flag, data)) : ',' ∉ flag := by
  cases policy with
  | unsupported => cases hpolicy
  | supported | required bound =>
    obtain ⟨rfl, rfl⟩ := Prod.mk.inj (Option.some.inj hpolicy)
    decide

def ScramServer.afterFirst (p : Primitives) (serverNonce : Text) (policy : ChannelBinding)
    (credentials : ScramCredentials) (gs2Header bare clientNonce : Text) : ScramServer :=
  ⟨serverNonce, policy, some bare, some (firstReply p (clientNonce ++ serverNonce) credentials),
    some (clientNonce ++ serverNonce), some gs2Header⟩

variable {t clientNonce gs2Header : Text}

theorem headD_splitOn (ht : ',' ∉ t) (rest : Text) :
    ((t ++ ',' :: rest).splitOn ',').headD [] = t := by
  rw [List.splitOn_append_cons_self_of_not_mem ht, List.headD_cons]

theorem take_header (flag authzid bare : Text) :
    (flag ++ ',' :: (authzid ++ ',' :: bare)).take
        ((flag ++ ',' :: (authzid ++ ',' :: bare)).length - bare.length) =
      flag ++ ',' :: (authzid ++ [',']) := by
  have hsplit : flag ++ ',' :: (authzid ++ ',' :: bare) =
      flag ++ ',' :: (authzid ++ [',']) ++ bare := by
    simp
  rw [hsplit, List.length_append, Nat.add_sub_cancel, List.take_left]

theorem first_of_parts {authzid bare username : Text} (hflag : ',' ∉ flag)
    (hok : ScramServer.flagOk policy flag = true) (hauthzid : ',' ∉ authzid)
    (husername : tag bare "n=" = some username) (hnonce : tag bare "r=" = some clientNonce) :
    (ScramServer.new serverNonce policy).first p (flag ++
      ',' :: (authzid ++ ',' :: bare)) credentials =
      (.ok (username, firstReply p (clientNonce ++ serverNonce) credentials),
        .afterFirst p serverNonce policy credentials (flag ++ ',' :: (authzid ++ [','])) bare
          clientNonce) := by
  rw [ScramServer.first, nthCommaRest_two.mpr ⟨flag, authzid, rfl, hflag, hauthzid⟩]
  dsimp only
  rw [headD_splitOn hflag, if_neg (by rw [ScramServer.new, hok]; decide), husername, hnonce]
  dsimp only
  rw [take_header]
  rfl

theorem parts_of_first {r : Text × Text}
    (h : ((ScramServer.new serverNonce policy).first p clientFirst credentials).1 = .ok r) :
    ∃ flag authzid bare username clientNonce,
      clientFirst = flag ++ ',' :: (authzid ++ ',' :: bare) ∧ ',' ∉ flag ∧
        ScramServer.flagOk policy flag = true ∧ ',' ∉ authzid ∧ tag bare "n=" = some username ∧
          tag bare "r=" = some clientNonce := by
  rw [ScramServer.first] at h
  cases hbare : nthCommaRest clientFirst 2 with
  | none =>
    rw [hbare] at h
    cases h
  | some bare =>
    obtain ⟨flag, authzid, rfl, hflag, hauthzid⟩ := nthCommaRest_two.mp hbare
    rw [hbare] at h
    dsimp only at h
    rw [headD_splitOn hflag] at h
    cases hok : ScramServer.flagOk policy flag with
    | false =>
      rw [if_pos (by rw [ScramServer.new, hok]; rfl)] at h
      cases h
    | true =>
      rw [if_neg (by rw [ScramServer.new, hok]; decide)] at h
      cases husername : tag bare "n=" with
      | none =>
        rw [husername] at h
        cases h
      | some username =>
        cases hnonce : tag bare "r=" with
        | none =>
          rw [husername, hnonce] at h
          cases h
        | some clientNonce =>
          exact ⟨flag, authzid, bare, username, clientNonce, rfl, hflag, hok, hauthzid,
            husername, hnonce⟩

theorem bindingOk_iff (hpolicy : policy.demands = some (flag, data)) {bare : Text} :
    (ScramServer.afterFirst p serverNonce policy credentials gs2Header bare clientNonce).bindingOk p
        clientFinal = true ↔
      ∃ cbind, tag clientFinal "c=" = some cbind ∧
        p.base64Decode cbind = some (encodeUtf8 gs2Header ++ data) := by
  rw [← Option.bind_eq_some_iff]
  unfold ScramServer.bindingOk ScramServer.afterFirst
  dsimp only
  cases policy with
  | unsupported => cases hpolicy
  | supported | required bound =>
    obtain ⟨rfl, rfl⟩ := Prod.mk.inj (Option.some.inj hpolicy)
    cases (tag clientFinal "c=").bind p.base64Decode with
    | none | some cbind => simp

theorem decodeKey_eq_some {key : Bytes} :
    decodeKey p t = some key ↔ p.base64Decode t = some key ∧ key.length = 32 := by
  rw [decodeKey, Option.filter_eq_some_iff, beq_iff_eq]

theorem finish_ok_iff {bare : Text} :
    (∃ serverFinal, (ScramServer.afterFirst p serverNonce policy credentials gs2Header bare
        clientNonce).finish p clientFinal credentials = .ok serverFinal) ↔
      tag clientFinal "r=" = some (clientNonce ++ serverNonce) ∧
      (ScramServer.afterFirst p serverNonce policy credentials gs2Header bare
        clientNonce).bindingOk p clientFinal = true ∧
      ∃ proofText proof withoutProof, tag clientFinal "p=" = some proofText ∧
        p.base64Decode proofText = some proof ∧ proof.length = 32 ∧
        IsBeforeLast ",p=".toList clientFinal withoutProof ∧
        p.sha256 (xorBytes proof (p.hmacSha256 credentials.storedKey (authMessage bare
          (firstReply p (clientNonce ++ serverNonce) credentials) withoutProof))) =
            credentials.storedKey := by
  unfold ScramServer.finish ScramServer.afterFirst
  dsimp only
  constructor
  · rintro ⟨serverFinal, h⟩
    split at h
    · cases h
    · rename_i hnonce
      split at h
      · cases h
      · rename_i hbinding
        split at h
        · rename_i proof withoutProof hkey hwithout
          obtain ⟨proofText, hproofText, hkey⟩ := Option.bind_eq_some_iff.mp hkey
          obtain ⟨hproof, hlength⟩ := decodeKey_eq_some.mp hkey
          rw [encodeUtf8_joined] at h
          split at h
          · rename_i hsha
            rw [Bool.not_eq_true, Bool.not_eq_false'] at hbinding
            exact ⟨by simpa using hnonce, hbinding, proofText, proof, withoutProof, hproofText,
              hproof, hlength, beforeLast_eq_some.mp hwithout, beq_iff_eq.mp hsha⟩
          · cases h
        · cases h
  · rintro ⟨hnonce, hbinding, proofText, proof, withoutProof, hproofText, hproof, hlength, hwithout,
      hsha⟩
    have hkey : (tag clientFinal "p=").bind (decodeKey p) = some proof := by
      rw [hproofText]
      exact decodeKey_eq_some.mpr ⟨hproof, hlength⟩
    rw [if_neg (by rw [hnonce, bne_self_eq_false]; decide), if_neg (by rw [hbinding]; decide), hkey,
      beforeLast_eq_some.mpr hwithout]
    dsimp only
    rw [encodeUtf8_joined]
    exact ⟨_, if_pos (beq_iff_eq.mpr hsha)⟩

/-- An accepted exchange is a first message with the parts of one, and then a final message that the
server in the state after it accepts. -/
theorem parts_of_accepted (h : Accepted p serverNonce policy credentials clientFirst clientFinal) :
    ∃ flag authzid bare username clientNonce,
      clientFirst = flag ++ ',' :: (authzid ++ ',' :: bare) ∧
        ScramServer.flagOk policy flag = true ∧ ',' ∉ authzid ∧ tag bare "n=" = some username ∧
          tag bare "r=" = some clientNonce ∧
      ∃ serverFinal, (ScramServer.afterFirst p serverNonce policy credentials
        (flag ++ ',' :: (authzid ++ [','])) bare clientNonce).finish p clientFinal credentials =
          .ok serverFinal := by
  obtain ⟨serverFinal, h⟩ := h
  unfold exchange at h
  dsimp only at h
  cases hfirst : ((ScramServer.new serverNonce policy).first p clientFirst credentials).1 with
  | error e =>
    rw [hfirst] at h
    cases h
  | ok r =>
    obtain ⟨flag, authzid, bare, username, clientNonce, rfl, hflag, hok, hauthzid, husername,
      hnonce⟩ := parts_of_first hfirst
    rw [first_of_parts hflag hok hauthzid husername hnonce] at h
    exact ⟨flag, authzid, bare, username, clientNonce, rfl, hok, hauthzid, husername, hnonce,
      serverFinal, h⟩

/-- The server accepts two messages exactly if they have a transcript. -/
theorem accepted_iff (hpolicy : policy.demands = some (flag, data)) :
    Accepted p serverNonce policy credentials clientFirst clientFinal ↔
      Nonempty (Transcript p flag data serverNonce credentials clientFirst clientFinal) := by
  constructor
  · intro h
    obtain ⟨sent, authzid, bare, username, clientNonce, rfl, hok, hauthzid, husername, hnonce, h⟩ :=
      parts_of_accepted h
    obtain rfl := (flagOk_iff hpolicy sent).mp hok
    obtain ⟨hcombined, hbinding, proofText, proof, withoutProof, hproofText, hproof,
      hlength, hwithout, hsha⟩ := finish_ok_iff.mp h
    obtain ⟨cbind, hcbind, hdecode⟩ := (bindingOk_iff hpolicy).mp hbinding
    exact ⟨⟨authzid, bare, username, clientNonce, cbind, proofText, proof, withoutProof,
      rfl, hauthzid, husername, hnonce, hcombined, hcbind, hdecode, hproofText, hproof, hlength,
      hwithout, hsha⟩⟩
  · rintro ⟨t⟩
    rw [Accepted, exchange, t.clientFirst_eq, first_of_parts (comma_not_mem_flag hpolicy)
      ((flagOk_iff hpolicy flag).mpr rfl) t.comma_not_mem t.username_eq t.clientNonce_eq]
    exact finish_ok_iff.mpr ⟨t.nonce_eq,
      (bindingOk_iff hpolicy).mpr ⟨_, t.cbind_eq, t.decode_cbind⟩,
      _, _, _, t.proofText_eq, t.decode_proof, t.length_proof, t.withoutProof_eq, t.sha_eq⟩

section

variable (h : Accepted p serverNonce policy credentials clientFirst clientFinal)
include h

theorem nonce_of_accepted :
    ∃ clientNonce, tag clientFinal "r=" = some (clientNonce ++ serverNonce) := by
  obtain ⟨_, _, _, _, clientNonce, -, -, -, -, -, h⟩ := parts_of_accepted h
  exact ⟨clientNonce, (finish_ok_iff.mp h).1⟩

/-- A final message is accepted with one server nonce of each length at most. -/
theorem serverNonce_unique {other clientFirst' : Text} {policy' : ChannelBinding}
    {credentials' : ScramCredentials}
    (h' : Accepted p other policy' credentials' clientFirst' clientFinal) (hlength :
    serverNonce.length = other.length ∨ (encodeUtf8 serverNonce).length = (encodeUtf8 other).length)
    : serverNonce = other := by
  obtain ⟨clientNonce, hnonce⟩ := nonce_of_accepted h
  obtain ⟨clientNonce', hnonce'⟩ := nonce_of_accepted h'
  have heq : clientNonce ++ serverNonce = clientNonce' ++ other :=
    Option.some.inj (hnonce.symm.trans hnonce')
  rcases hlength with hlength | hlength
  · exact (List.append_inj' heq hlength).2
  · have hbytes := congrArg encodeUtf8 heq
    rw [encodeUtf8_append, encodeUtf8_append] at hbytes
    exact encodeUtf8_injective (List.append_inj' hbytes hlength).2

end

end

/-! ## Honest clients -/

/-- A client that follows the protocol. The authorisation identity may be empty. -/
structure ScramClient where
  user : Text
  authzid : Text
  nonce : Text
  password : Text
  comma_not_mem_user : ',' ∉ user
  /-- An `=` would have to be escaped. -/
  eq_not_mem_user : '=' ∉ user
  comma_not_mem_authzid : ',' ∉ authzid
  comma_not_mem_nonce : ',' ∉ nonce

namespace ScramClient

def bare (client : ScramClient) : Text :=
  "n=".toList ++ client.user ++ ',' :: ("r=".toList ++ client.nonce)

def first (flag : Text) (client : ScramClient) : Text :=
  flag ++ ',' :: (client.authzid ++ ',' :: client.bare)

def withoutProof (p : Primitives) (flag : Text) (data : Bytes) (nonce : Text)
    (client : ScramClient) :
    Text :=
  "c=".toList ++ p.base64Encode (encodeUtf8 (flag ++ ',' :: (client.authzid ++ [','])) ++ data) ++
    ',' :: ("r=".toList ++ nonce)

def proof (p : Primitives) (pbkdf2 : Pbkdf2) (salt : Bytes) (iterations : ℕ)
    (serverFirst withoutProof : Text) (client : ScramClient) : Bytes :=
  let key := clientKey p pbkdf2 client.password salt iterations
  xorBytes key (p.hmacSha256 (p.sha256 key) (authMessage client.bare serverFirst withoutProof))

def final (p : Primitives) (pbkdf2 : Pbkdf2) (flag : Text) (data : Bytes) (serverFirst : Text)
    (client : ScramClient) : Option Text := do
  let nonce ← tag serverFirst "r="
  let salt ← (tag serverFirst "s=").bind p.base64Decode
  let iterations ← (tag serverFirst "i=").bind parseDecimal
  if client.nonce.isPrefixOf nonce then
    let withoutProof := client.withoutProof p flag data nonce
    let proof := client.proof p pbkdf2 salt iterations serverFirst withoutProof
    some (withoutProof ++ (",p=".toList ++ p.base64Encode proof))
  else none

end ScramClient

theorem length_xorBytes (h : a.length = b.length) : (xorBytes a b).length = a.length := by
  rw [xorBytes, List.length_zipWith, h, Nat.min_self]

theorem xorBytes_cancel (h : a.length = b.length) : xorBytes (xorBytes a b) b = a := by
  induction a generalizing b with
  | nil => rfl
  | cons x a ih =>
    cases b with
    | nil => cases h
    | cons y b =>
      change (x ^^^ y ^^^ y) :: xorBytes (xorBytes a b) b = x :: a
      rw [ih (Nat.succ.inj h), UInt8.xor_assoc, UInt8.xor_self, UInt8.xor_zero]

section

variable {p : Primitives} {pbkdf2 : Pbkdf2} {client : ScramClient} {policy : ChannelBinding}
  {flag : Text} {data : Bytes} {serverNonce : Text} {salt : Bytes} {iterations : ℕ}

theorem tag_bare_user : tag client.bare "n=" = some client.user := by
  have hcomma : ',' ∉ "n=".toList ++ client.user := by
    simpa using client.comma_not_mem_user
  rw [ScramClient.bare, tag_append_cons hcomma, stripStart_append]
  rfl

theorem tag_bare_nonce : tag client.bare "r=" = some client.nonce := by
  have hcomma : ',' ∉ "n=".toList ++ client.user := by
    simpa using client.comma_not_mem_user
  have hcomma' : ',' ∉ "r=".toList ++ client.nonce := by
    simpa using client.comma_not_mem_nonce
  rw [ScramClient.bare, tag_append_cons hcomma, tag_of_not_mem hcomma', stripStart_append]
  rfl

theorem firstReply_eq (nonce : Text) (credentials : ScramCredentials) :
    firstReply p nonce credentials =
      ("r=".toList ++ nonce) ++ ',' :: (("s=".toList ++ p.base64Encode credentials.salt) ++
        ',' :: ("i=".toList ++ decimal credentials.iterations)) := by
  have hsalt : ",s=".toList = ',' :: "s=".toList := by decide
  have hcount : ",i=".toList = ',' :: "i=".toList := by decide
  delta firstReply
  rw [hsalt, hcount]
  simp only [List.append_assoc, List.cons_append]

variable {nonce : Text}

theorem tag_firstReply (hp : p.Lawful) (hnonce : ',' ∉ nonce) (credentials : ScramCredentials) :
    tag (firstReply p nonce credentials) "r=" = some nonce ∧
      tag (firstReply p nonce credentials) "s=" = some (p.base64Encode credentials.salt) ∧
      tag (firstReply p nonce credentials) "i=" = some (decimal credentials.iterations) := by
  have hfirst : ',' ∉ "r=".toList ++ nonce := by simpa using hnonce
  have hsecond : ',' ∉ "s=".toList ++ p.base64Encode credentials.salt := by
    simpa using hp.comma_not_mem credentials.salt
  have hthird : ',' ∉ "i=".toList ++ decimal credentials.iterations := by
    simpa using not_mem_decimal (n := credentials.iterations) (c := ',') (by decide)
  rw [firstReply_eq]
  refine ⟨?_, ?_, ?_⟩
  · rw [tag_append_cons hfirst, stripStart_append]
    rfl
  · rw [tag_append_cons hfirst, tag_append_cons hsecond, stripStart_append]
    rfl
  · rw [tag_append_cons hfirst, tag_append_cons hsecond, tag_of_not_mem hthird, stripStart_append]
    rfl

theorem tag_final {binding proofText : Text} (hbinding : ',' ∉ binding) (hnonce : ',' ∉ nonce)
    (hproof : ',' ∉ proofText) :
    let final :=
      "c=".toList ++ binding ++ ',' :: ("r=".toList ++ nonce) ++ (",p=".toList ++ proofText)
    tag final "c=" = some binding ∧ tag final "r=" = some nonce ∧ tag final "p=" = some proofText ∧
      IsBeforeLast ",p=".toList final ("c=".toList ++ binding ++
        ',' :: ("r=".toList ++ nonce)) := by
  have hfirst : ',' ∉ "c=".toList ++ binding := by simpa using hbinding
  have hsecond : ',' ∉ "r=".toList ++ nonce := by simpa using hnonce
  have hthird : ',' ∉ "p=".toList ++ proofText := by simpa using hproof
  have hsplit : "c=".toList ++ binding ++ ',' :: ("r=".toList ++ nonce) ++
    (",p=".toList ++ proofText) =
      ("c=".toList ++ binding) ++ ',' :: (("r=".toList ++ nonce) ++
        ',' :: ("p=".toList ++ proofText)) := by
    simp
  dsimp only
  refine ⟨?_, ?_, ?_, isBeforeLast_append _ hproof⟩
  · rw [hsplit, tag_append_cons hfirst, stripStart_append]
    rfl
  · rw [hsplit, tag_append_cons hfirst, tag_append_cons hsecond, stripStart_append]
    rfl
  · rw [hsplit, tag_append_cons hfirst, tag_append_cons hsecond, tag_of_not_mem hthird,
      stripStart_append]
    rfl

theorem final_firstReply (hp : p.Lawful) (hnonce : ',' ∉ serverNonce)
    {credentials : ScramCredentials} :
    client.final p pbkdf2 flag data (firstReply p (client.nonce ++ serverNonce) credentials) =
      some (client.withoutProof p flag data (client.nonce ++ serverNonce) ++ (",p=".toList ++
        p.base64Encode (client.proof p pbkdf2 credentials.salt credentials.iterations
          (firstReply p (client.nonce ++ serverNonce) credentials)
          (client.withoutProof p flag data (client.nonce ++ serverNonce))))) := by
  have hcombined : ',' ∉ client.nonce ++ serverNonce := by
    simp [client.comma_not_mem_nonce, hnonce]
  have hbegins : client.nonce.isPrefixOf (client.nonce ++ serverNonce) = true :=
    List.isPrefixOf_iff_prefix.mpr (List.prefix_append _ _)
  obtain ⟨hr, hs, hi⟩ := tag_firstReply hp hcombined credentials
  unfold ScramClient.final
  rw [hr, hs, hi, Option.bind_some, Option.bind_some, hp.base64Decode_encode, parseDecimal_decimal]
  exact if_pos hbegins

theorem length_proof (hp : p.Lawful) (serverFirst withoutProof : Text) :
    (client.proof p pbkdf2 salt iterations serverFirst withoutProof).length = 32 := by
  have hkey : (clientKey p pbkdf2 client.password salt iterations).length = 32 := hp.length_hmac _ _
  rw [ScramClient.proof, length_xorBytes (hkey.trans (hp.length_hmac _ _).symm), hkey]

theorem xorBytes_proof (hp : p.Lawful) (serverFirst withoutProof : Text) :
    xorBytes (client.proof p pbkdf2 salt iterations serverFirst withoutProof)
        (p.hmacSha256 (p.sha256 (clientKey p pbkdf2 client.password salt iterations))
          (authMessage client.bare serverFirst withoutProof)) =
      clientKey p pbkdf2 client.password salt iterations :=
  xorBytes_cancel ((hp.length_hmac _ _).trans (hp.length_hmac _ _).symm)

/-- A client that knows the password answers with a message that has a transcript. -/
theorem exists_transcript (pbkdf2 : Pbkdf2) (client : ScramClient) (flag : Text) (data salt : Bytes)
    (iterations : ℕ) (hp : p.Lawful) (hnonce : ',' ∉ serverNonce) :
    ∃ final, client.final p pbkdf2 flag data (firstReply p (client.nonce ++ serverNonce)
        (.derive p pbkdf2 client.password salt iterations)) = some final ∧
      Nonempty (Transcript p flag data serverNonce
        (.derive p pbkdf2 client.password salt iterations)
        (client.first flag) final) := by
  have hcombined : ',' ∉ client.nonce ++ serverNonce := by
    simp [client.comma_not_mem_nonce, hnonce]
  refine ⟨_, final_firstReply hp hnonce, ?_⟩
  obtain ⟨hc, hr, hproof, hwithout⟩ := tag_final (hp.comma_not_mem _) hcombined (hp.comma_not_mem _)
  refine ⟨⟨client.authzid, client.bare, client.user, client.nonce, _, _, _, _, rfl,
    client.comma_not_mem_authzid, tag_bare_user, tag_bare_nonce, hr, hc,
    hp.base64Decode_encode _, hproof, hp.base64Decode_encode _, length_proof hp _ _, hwithout, ?_⟩⟩
  exact congrArg p.sha256 (xorBytes_proof hp _ _)

end

def freshNonce (p : Primitives) (random : Bytes) : Text := p.base64Encode random

/-- **SCRAM is sound and complete** on links with channel binding, for credentials that are stored
for any password. The server accepts two messages exactly if they have a transcript: the flag that
the policy demands, the nonce and the binding of this exchange, and a proof for the bytes of the
messages that makes the stored key. A client that knows the password answers the server's first
message and is accepted, whichever nonce without a comma the server has; its own nonces have none.
And a final message that is accepted once is not accepted in an exchange, by whomever and under any
policy, in which the server's nonce has the same length and is another. -/
theorem accepted_iff_transcript (p : Primitives) (hp : p.Lawful) (pbkdf2 : Pbkdf2) (password : Text)
    (salt : Bytes) (iterations : ℕ) (credentials : ScramCredentials)
    (hstored : (ScramStored.fromCredentials p
      (.derive p pbkdf2 password salt iterations)).toCredentials p = some credentials)
    (policy : ChannelBinding) (flag : Text) (data : Bytes) (hpolicy : policy.demands =
      some (flag, data)) :
    (∀ serverNonce clientFirst clientFinal,
      Accepted p serverNonce policy credentials clientFirst clientFinal ↔
        Nonempty (Transcript p flag data serverNonce credentials clientFirst clientFinal)) ∧
    ((∀ serverNonce, ',' ∉ serverNonce → ∀ client : ScramClient, client.password = password →
      ∃ serverFirst clientFinal,
        ((ScramServer.new serverNonce policy).first p (client.first flag) credentials).1 =
          .ok (client.user, serverFirst) ∧
        client.final p pbkdf2 flag data serverFirst = some clientFinal ∧
        Accepted p serverNonce policy credentials (client.first flag) clientFinal) ∧
      ∀ random, ',' ∉ freshNonce p random) ∧
    ∀ serverNonce other clientFirst clientFirst' clientFinal policy' credentials',
      (serverNonce.length = other.length ∨
        (encodeUtf8 serverNonce).length = (encodeUtf8 other).length) → serverNonce ≠ other →
      Accepted p serverNonce policy credentials clientFirst clientFinal →
      ¬Accepted p other policy' credentials' clientFirst' clientFinal := by
  have hcredentials : credentials = .derive p pbkdf2 password salt iterations :=
    Option.some.inj
      (hstored.symm.trans (ScramStored.toCredentials_derive hp password salt iterations))
  refine ⟨fun _ _ _ ↦ accepted_iff hpolicy, ⟨fun serverNonce hnonce client hknows ↦ ?_,
    fun random ↦ hp.comma_not_mem random⟩, ?_⟩
  · subst hknows hcredentials
    obtain ⟨final, hfinal, htranscript⟩ :=
      exists_transcript pbkdf2 client flag data salt iterations hp
      hnonce
    refine ⟨_, final, ?_, hfinal, (accepted_iff hpolicy).mpr htranscript⟩
    rw [ScramClient.first, first_of_parts (comma_not_mem_flag hpolicy)
      ((flagOk_iff hpolicy flag).mpr rfl) client.comma_not_mem_authzid tag_bare_user tag_bare_nonce]
  · intro serverNonce other clientFirst clientFirst' clientFinal policy' credentials'
      hlength hne h h'
    exact hne (serverNonce_unique h h' hlength)

/-- Primitives in which a byte is written as one character, and a digest is the beginning of its
message. -/
def Primitives.visible : Primitives :=
  { Primitives.plain with
    base64Encode := fun bytes ↦ bytes.map fun b ↦ Char.ofNat (b.toNat + 256)
    base64Decode := fun t ↦ some (t.map fun c ↦ UInt8.ofNat (c.toNat - 256))
    hmacSha256 := fun key message ↦ (key ++ message ++ List.replicate 32 0).take 32
    sha256 := fun message ↦ (message ++ List.replicate 32 0).take 32 }

theorem toNat_ofNat_byte (b : UInt8) : (Char.ofNat (b.toNat + 256)).toNat = b.toNat + 256 := by
  have hb : b.toNat < 256 := b.toNat_lt
  have hvalid : (b.toNat + 256).isValidChar := .inl (by omega)
  rw [Char.ofNat, dif_pos hvalid]
  rfl

theorem lawful_visible : Primitives.visible.Lawful where
  base64Decode_encode bytes := by
    change some ((bytes.map fun b ↦ Char.ofNat (b.toNat + 256)).map fun c ↦
      UInt8.ofNat (c.toNat - 256)) =
      some bytes
    rw [List.map_map]
    congr 1
    refine (List.map_congr_left fun b _ ↦ ?_).trans (List.map_id bytes)
    rw [Function.comp_apply, toNat_ofNat_byte, Nat.add_sub_cancel, UInt8.ofNat_toNat, id]
  comma_not_mem bytes := by
    intro h
    obtain ⟨b, -, hb⟩ := List.mem_map.mp h
    have hnat := congrArg Char.toNat hb
    rw [toNat_ofNat_byte] at hnat
    have hcomma : ','.toNat = 44 := rfl
    omega
  length_hmac key message := by
    simp only [Primitives.visible, List.length_take, List.length_append, List.length_replicate]
    omega
  length_sha message := by simp [Primitives.visible]

def ScramClient.sample : ScramClient where
  user := "alice".toList
  authzid := []
  nonce := "fyko".toList
  password := "pencil".toList
  comma_not_mem_user := by decide
  eq_not_mem_user := by decide
  comma_not_mem_authzid := by decide
  comma_not_mem_nonce := by decide

theorem accepted_iff_transcript_sample :
    let credentials :=
      ScramCredentials.derive .visible (fun password salt _ ↦ encodeUtf8 password ++ salt)
      "pencil".toList [1, 2] 4096
    let flag := "p=tls-server-end-point".toList
    ∃ serverFirst clientFinal,
      ((ScramServer.new "3rfc".toList (.required [7])).first .visible
        (ScramClient.sample.first flag)
        credentials).1 = .ok ("alice".toList, serverFirst) ∧
      ScramClient.sample.final .visible (fun password salt _ ↦ encodeUtf8 password ++ salt) flag [7]
        serverFirst = some clientFinal ∧
      Accepted .visible "3rfc".toList (.required [7]) credentials (ScramClient.sample.first flag)
        clientFinal :=
  (accepted_iff_transcript .visible lawful_visible (fun password salt _ ↦
    encodeUtf8 password ++ salt)
    "pencil".toList [1, 2] 4096 _ (ScramStored.toCredentials_derive lawful_visible _ _ _)
      (.required [7]) _ _
    rfl).2.1.1 "3rfc".toList (by decide) .sample rfl

end Epistle.Smtp
