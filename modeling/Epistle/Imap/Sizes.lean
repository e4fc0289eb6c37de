import Epistle.Imap.AccountSound
import Epistle.Imap.Resync
import Epistle.Imap.SequenceSync

/-!
# The sizes that opens show

A message file may be encrypted, and then it is longer than the message. The size of a message is to
be the length of the message; it can be told from the file without decrypting it, but only with the
key at hand. Sizes are kept in the index. An open that has no key takes the length of the file, and
writes it into the index like any other open; the next open with the key loads it from there.

Such opens are made where only UIDs or flags are wanted: to look up the UID of a message that has
just been appended or copied, to find a message that JMAP destroys, and to count messages. As long
as they find an index that is up to date, or only files that are as long as their messages, sizes
are right (`sizes_right_iff`).
-/

namespace Epistle.Imap

open TextFormat Interleaving
open Prog (run_bind op_bind run_call)

variable (crypto : MessageCrypto) (d : Dir)

/-! ## Sizes without decryption -/

/-- The cipher adds a tag of 16 bytes. -/
def Aead.TagLength (key : Aead) : Prop :=
  ∀ nonce ciphertext plaintext, key.openInPlace nonce ciphertext = some plaintext →
    ciphertext.length = plaintext.length + 16

namespace MessageCrypto

def sizeOf (stored : List UInt8) : ℕ :=
  if crypto.key.isNone then stored.length
  else if stored.length < overhead then stored.length
  else if magic.isPrefixOf stored then stored.length - overhead
  else stored.length

theorem sizeOf_disabled (stored : List UInt8) : disabled.sizeOf stored = stored.length := rfl

theorem length_of_decode {crypto : MessageCrypto} {key : Aead} (hkey : crypto.key = some key)
    (htag : key.TagLength) {stored body : List UInt8} (h : crypto.decode stored = some body) :
    crypto.sizeOf stored = body.length := by
  have hsome : ¬crypto.key.isNone = true := by simp [hkey]
  rw [decode] at h
  rw [sizeOf, if_neg hsome]
  split at h
  next hmagic =>
    rw [hkey] at h
    dsimp only at h
    split at h
    next => cases h
    next hlen =>
      have hbody := htag _ _ _ h
      rw [List.length_drop, List.length_drop] at hbody
      rw [List.length_drop] at hlen
      rw [if_pos hmagic]
      have hoverhead : overhead = magic.length + nonceLen + 16 := rfl
      split <;> omega
  next hmagic =>
    rw [if_neg hmagic, ite_self]
    exact congrArg List.length (Option.some.inj h)

end MessageCrypto

def zeroTag : Aead where
  sealAppendTag := fun _ plaintext ↦ plaintext ++ List.replicate 16 0
  openInPlace := fun _ ciphertext ↦
    if 16 ≤ ciphertext.length then some (ciphertext.take (ciphertext.length - 16)) else none

theorem tagLength_zeroTag : zeroTag.TagLength := by
  intro nonce ciphertext plaintext h
  simp only [zeroTag] at h
  split at h
  next hlen =>
    obtain rfl := Option.some.inj h
    rw [List.length_take]
    omega
  next => cases h

/-- A store that encrypts with it. -/
def sealing : MessageCrypto := ⟨some zeroTag, true⟩

/-! ## Reading back -/

/-- Opening what was sealed gives it back. -/
def Aead.RoundTrip (key : Aead) : Prop :=
  ∀ nonce plaintext, key.openInPlace nonce (key.sealAppendTag nonce plaintext) = some plaintext

theorem roundTrip_zeroTag : zeroTag.RoundTrip := by
  intro nonce plaintext
  simp [zeroTag]

namespace MessageCrypto

/-- New files are encrypted. -/
def encrypts : Bool := crypto.key.isSome && crypto.enabled

/-- What is stored for a message reads as the message, also once encryption is switched off, and the
length of the message is told from the file. -/
structure Invisible (crypto : MessageCrypto) (nonce body : List UInt8) : Prop where
  decoded : crypto.decode (crypto.encode nonce body) = some body
  switchedOff : { crypto with enabled := false }.decode (crypto.encode nonce body) = some body
  length : ∀ (d : Dir) (id : Uuid) (mtime : SystemTime),
    d.mails.lookup id = some ⟨crypto.encode nonce body, mtime⟩ →
      ((storedPlaintextLen crypto id (crypto.encode nonce body).length).run Dir.exec d).1 =
        body.length

section

variable {crypto : MessageCrypto} {nonce : List UInt8} (body : List UInt8)

theorem encode_of_not_encrypts (h : crypto.encrypts = false) : crypto.encode nonce body = body := by
  rw [encode]
  split
  next key hkey =>
    rw [encrypts, hkey, Option.isSome_some, Bool.true_and] at h
    rw [h, if_neg Bool.false_ne_true]
  next => rfl

theorem decode_encode_of_encrypts (h : crypto.encrypts = true)
    (hround : ∀ key ∈ crypto.key, key.RoundTrip) (hnonce : nonce.length = nonceLen) :
    crypto.decode (crypto.encode nonce body) = some body := by
  rw [encrypts, Bool.and_eq_true] at h
  obtain ⟨key, hkey⟩ := Option.isSome_iff_exists.1 h.1
  have hmagic : magic.isPrefixOf (magic ++ (nonce ++ key.sealAppendTag nonce body)) = true :=
    List.isPrefixOf_iff_prefix.2 (List.prefix_append _ _)
  have hencode : crypto.encode nonce body = magic ++ (nonce ++ key.sealAppendTag nonce body) := by
    rw [encode, hkey]
    dsimp only
    rw [if_pos h.2, List.append_assoc]
  rw [hencode, decode, if_pos hmagic, hkey]
  dsimp only
  rw [List.drop_left, if_neg (by simp [hnonce]), ← hnonce, List.take_left, List.drop_left]
  exact hround key hkey nonce body

/-- What begins with the mark is not read as it is: something is cut off, if it is read at all. -/
theorem decode_ne_self (htag : ∀ key ∈ crypto.key, key.TagLength)
    (hmagic : magic.isPrefixOf body = true) : crypto.decode body ≠ some body := by
  rw [decode, if_pos hmagic]
  cases hkey : crypto.key with
  | none => exact (Option.some_ne_none body).symm
  | some key =>
    dsimp only
    split
    · exact (Option.some_ne_none body).symm
    · intro hopen
      have hlen := htag key hkey _ _ _ hopen
      rw [List.length_drop, List.length_drop] at hlen
      omega

/-- **When encryption at rest is invisible**: unless messages are encrypted, they must not begin
with the mark of an encrypted file. -/
theorem invisible_iff (hkey : ∀ key ∈ crypto.key, key.RoundTrip ∧ key.TagLength)
    (hnonce : nonce.length = nonceLen) :
    crypto.Invisible nonce body ↔ crypto.encrypts = true ∨ ¬ magic.isPrefixOf body = true := by
  constructor
  · intro h
    by_contra hnot
    obtain ⟨hplain, hmagic⟩ := not_or.1 hnot
    have hdecoded := h.decoded
    rw [encode_of_not_encrypts body (Bool.eq_false_of_not_eq_true hplain)] at hdecoded
    exact decode_ne_self body (fun key h ↦ (hkey key h).2) (not_not.1 hmagic) hdecoded
  · intro h
    have hdecoded : crypto.decode (crypto.encode nonce body) = some body := by
      cases hencrypts : crypto.encrypts with
      | true => exact decode_encode_of_encrypts body hencrypts (fun key h ↦ (hkey key h).1) hnonce
      | false =>
        rw [encode_of_not_encrypts body hencrypts, decode, if_neg]
        exact h.resolve_left (by simp [hencrypts])
    refine ⟨hdecoded, hdecoded, fun d id mtime hmail ↦ ?_⟩
    rw [run_storedPlaintextLen hmail]
    change crypto.sizeOf (crypto.encode nonce body) = body.length
    cases hcase : crypto.key with
    | none =>
      rw [encode_of_not_encrypts body (by simp [encrypts, hcase]), sizeOf, hcase]
      rfl
    | some key => exact length_of_decode hcase (hkey key hcase).2 hdecoded

end

/-- Encrypted, a message may begin with the mark. -/
theorem invisible_iff_sealing : sealing.Invisible (List.replicate 12 7) (magic ++ [65]) := by
  refine (invisible_iff _ ?_ rfl).2 (.inl rfl)
  rintro key ⟨⟩
  exact ⟨roundTrip_zeroTag, tagLength_zeroTag⟩

/-- Stored as it is, it cannot be read. -/
theorem marked_not_invisible : disabled.encode [] (magic ++ [65]) = magic ++ [65] ∧
    disabled.decode (magic ++ [65]) = none ∧ ¬ disabled.Invisible [] (magic ++ [65]) :=
  ⟨rfl, rfl, fun h ↦ absurd h.decoded (by decide)⟩

end MessageCrypto

/-! ## Scans -/

/-- The messages have the sizes that the key tells from their files. -/
def SizedBy (messages : List MessageRef) : Prop :=
  ∀ message ∈ messages, ∀ mail, d.mails.lookup message.id = some mail →
    message.size = crypto.sizeOf mail.stored

theorem sizedBy_scanMailbox :
    SizedBy crypto d (((scanMailbox crypto).run Dir.exec d).1.getD []) := by
  obtain ⟨messages, d', hrun, -, -, hsizes⟩ := current_scanMailbox crypto d
  rw [hrun]
  exact hsizes

namespace Dir

/-- What the index shows, if it is up to date. -/
def indexed : Option (List MessageRef) :=
  (d.files .index).bind fun text ↦ Index.parse text d.core.generation

/-- An open with an index that is up to date shows what the index shows. -/
theorem opened_of_indexed {d : Dir} {messages : List MessageRef} (h : d.indexed = some messages)
    (crypto : MessageCrypto) (clock : SystemTime) :
    (d.opened crypto clock).1 = messages ∧ (d.opened crypto clock).2.indexed = some messages := by
  have hopened : d.opened crypto clock =
      (messages, d.setFile .uidvalidity (some (d.validity clock))) := by
    rw [opened]
    rw [indexed] at h
    rw [h]
  rw [hopened]
  refine ⟨rfl, ?_⟩
  rw [← h, indexed, indexed]
  rfl

/-- Without one the mailbox is scanned, and there is an index afterwards. -/
theorem opened_of_not_indexed {d : Dir} (h : d.indexed = none) (crypto : MessageCrypto)
    (clock : SystemTime) :
    SizedBy crypto d (d.opened crypto clock).1 ∧
      (d.opened crypto clock).1.map MessageRef.id = sortIds d.mails.keys ∧
      (d.opened crypto clock).2.indexed = some ((d.opened crypto clock).1.map Index.clamp) := by
  obtain ⟨hnumbered, ⟨text, htext, hparse, -⟩ | ⟨hcurrent, hindex⟩⟩ := opened_cases crypto clock d
  · rw [indexed, htext, Option.bind_some, hparse] at h
    cases h
  · have hids := hcurrent.ids
    rw [hnumbered.mails] at hids
    refine ⟨?_, hids, ?_⟩
    · have hopened :
        (d.opened crypto clock).1 = ((scanMailbox crypto).run Dir.exec d).1.getD [] := by
        rw [opened]
        rw [indexed] at h
        rw [h]
      rw [hopened]
      exact sizedBy_scanMailbox crypto d
    · have hgeneration : (d.opened crypto clock).2.core.generation = d.core.generation := by
        have hctr := hnumbered.files .modseqctr (by simp) (by simp) (by simp) (by simp)
        simp only [Core.generation, core, hnumbered.mails, hctr]
      have hlen : (d.opened crypto clock).1.length = d.core.generation.2 := by
        have hmap := congrArg List.length hids
        rw [List.length_map, sortIds, List.length_insertionSort] at hmap
        exact hmap
      rw [indexed, hindex, Option.bind_some, hgeneration, Index.parse_render, if_pos ⟨rfl, hlen⟩]

end Dir

/-! ## Right sizes -/

def readBody (id : Uuid) : FileM (Option (List UInt8)) := do
  let stored : Option (List UInt8) ← call (.readMail id)
  pure (stored.bind crypto.decode)

def RightSize (message : MessageRef) : Prop :=
  ∀ body, ((readBody crypto message.id).run Dir.exec d).1 = some body → message.size = body.length

def Sized : Prop :=
  ∀ messages ∈ d.indexed, ∀ message ∈ messages, RightSize crypto d message

def PlainFile (stored : List UInt8) : Prop :=
  ∀ body ∈ crypto.decode stored, stored.length = body.length

def AllPlain : Prop :=
  ∀ id ∈ d.mails.keys, ∀ mail ∈ d.mails.lookup id, PlainFile crypto mail.stored

section

variable {crypto : MessageCrypto} {d d' : Dir}

theorem run_readBody (crypto : MessageCrypto) (id : Uuid) (d : Dir) :
    ((readBody crypto id).run Dir.exec d).1 =
      (d.mails.lookup id).bind fun mail ↦ crypto.decode mail.stored := by
  change ((d.mails.lookup id).map Mail.stored).bind crypto.decode = _
  rw [Option.bind_map]
  rfl

variable {message : MessageRef}

theorem rightSize_iff : RightSize crypto d message ↔
    ∀ mail, d.mails.lookup message.id = some mail → ∀ body, crypto.decode mail.stored = some body →
      message.size = body.length := by
  constructor
  · intro h mail hmail body hbody
    refine h body ?_
    rw [run_readBody, hmail]
    exact hbody
  · intro h body hbody
    rw [run_readBody] at hbody
    obtain ⟨mail, hmail, hbody⟩ := Option.bind_eq_some_iff.1 hbody
    exact h mail hmail body hbody

theorem RightSize.of_lookup (h : RightSize crypto d message)
    (hlookup : ∀ mail, d'.mails.lookup message.id = some mail →
      d.mails.lookup message.id = some mail) : RightSize crypto d' message :=
  rightSize_iff.2 fun mail hmail ↦ rightSize_iff.1 h mail (hlookup mail hmail)

theorem SizedBy.rightSize {messages : List MessageRef} (h : SizedBy crypto d messages) {key : Aead}
    (hkey : crypto.key = some key) (htag : key.TagLength) :
    ∀ message ∈ messages, RightSize crypto d message := by
  intro message hmessage
  refine rightSize_iff.2 fun mail hmail body hbody ↦ ?_
  rw [h message hmessage mail hmail, MessageCrypto.length_of_decode hkey htag hbody]

theorem rightSize_clamp :
    RightSize crypto d (Index.clamp message) ↔ RightSize crypto d message := by
  rw [rightSize_iff, rightSize_iff, Index.clamp_id, Index.clamp_size]

theorem rightSize_congr (hmails : d'.mails = d.mails) :
    RightSize crypto d' message ↔ RightSize crypto d message := by
  rw [rightSize_iff, rightSize_iff, hmails]

theorem Sized.opened (h : Sized crypto d) {key : Aead} (hkey : crypto.key = some key)
    (htag : key.TagLength) (clock : SystemTime) :
    (∀ message ∈ (d.opened crypto clock).1, RightSize crypto d message) ∧
      Sized crypto (d.opened crypto clock).2 := by
  have hmails : (d.opened crypto clock).2.mails = d.mails := (opened_cases crypto clock d).1.mails
  cases hindexed : d.indexed with
  | some messages =>
    obtain ⟨hshown, hafter⟩ := Dir.opened_of_indexed hindexed crypto clock
    rw [hshown]
    refine ⟨h messages hindexed, fun found hfound message hmessage ↦ ?_⟩
    obtain rfl := Option.some.inj (hafter.symm.trans hfound)
    rw [rightSize_congr hmails]
    exact h messages hindexed message hmessage
  | none =>
    obtain ⟨hsized, -, hafter⟩ := Dir.opened_of_not_indexed hindexed crypto clock
    have hright := hsized.rightSize hkey htag
    refine ⟨hright, fun found hfound message hmessage ↦ ?_⟩
    obtain rfl := Option.some.inj (hafter.symm.trans hfound)
    obtain ⟨original, horiginal, rfl⟩ := List.mem_map.1 hmessage
    rw [rightSize_clamp, rightSize_congr hmails]
    exact hright original horiginal

/-- What an open without the key makes of the index. -/
theorem sized_opened_disabled_iff (crypto : MessageCrypto) (d : Dir) (clock : SystemTime) :
    (d.opened .disabled clock).2.indexed.isSome ∧ (Sized crypto (d.opened .disabled clock).2 ↔
      d.indexed.isSome ∧ Sized crypto d ∨ d.indexed = none ∧ AllPlain crypto d) := by
  have hmails : (d.opened .disabled clock).2.mails = d.mails :=
    (opened_cases .disabled clock d).1.mails
  cases hindexed : d.indexed with
  | some messages =>
    obtain ⟨-, hafter⟩ := Dir.opened_of_indexed hindexed .disabled clock
    have hsame : Sized crypto (d.opened .disabled clock).2 ↔ Sized crypto d := by
      simp only [Sized, hafter, hindexed, Option.mem_some_iff, forall_eq', rightSize_congr hmails]
    rw [hafter, hsame]
    simp
  | none =>
    obtain ⟨hsized, hids, hafter⟩ := Dir.opened_of_not_indexed hindexed .disabled clock
    refine ⟨by rw [hafter]; rfl, ?_⟩
    have hiff : Sized crypto (d.opened .disabled clock).2 ↔ AllPlain crypto d := by
      constructor
      · intro h id hid mail hmail body hbody
        have hshown : id ∈ (d.opened .disabled clock).1.map MessageRef.id := by
          rw [hids]
          exact (List.mem_insertionSort _).2 hid
        obtain ⟨message, hmessage, rfl⟩ := List.mem_map.1 hshown
        have hright := h _ hafter _ (List.mem_map_of_mem hmessage)
        rw [rightSize_clamp, rightSize_congr hmails, rightSize_iff] at hright
        rw [← hright mail hmail body hbody, hsized message hmessage mail hmail,
          MessageCrypto.sizeOf_disabled]
      · intro h found hfound message hmessage
        obtain rfl := Option.some.inj (hafter.symm.trans hfound)
        obtain ⟨original, horiginal, rfl⟩ := List.mem_map.1 hmessage
        rw [rightSize_clamp, rightSize_congr hmails, rightSize_iff]
        intro mail hmail body hbody
        have hkey : original.id ∈ d.mails.keys := by
          refine AList.lookup_isSome.1 ?_
          rw [hmail]
          rfl
        rw [hsized original horiginal mail hmail, MessageCrypto.sizeOf_disabled]
        exact h original.id hkey mail hmail body hbody
    rw [hiff]
    simp

end

/-! ## What makes an index old -/

theorem Sound.indexed_eq_none {d d' : Dir} (h : Sound d) (h' : Sound d')
    (hindex : d'.files .index = d.files .index)
    (hlt : d.modseqCounter < d'.modseqCounter ∨
      d.modseqCounter = d'.modseqCounter ∧ d.mails.keys.length < d'.mails.keys.length) :
    d'.indexed = none := by
  rw [Dir.indexed, hindex, h'.generation, Option.bind_eq_none_iff]
  intro text htext
  by_contra hsome
  obtain ⟨messages, hparse⟩ := Option.ne_none_iff_exists'.1 hsome
  have hstamp := h.stamp_le text htext _ _ hparse
  have hlength := h.length_le text htext _ _ hparse
  dsimp only at hstamp hlength
  omega

theorem Expunged.indexed_eq_none {d d' : Dir} {messages : List MessageRef}
    (h : Expunged messages d d') (hd : Sound d) (hd' : Sound d') : d'.indexed = none := by
  refine hd.indexed_eq_none hd' (h.files _ (by simp) (by simp) fun _ _ ↦ ⟨(by simp), (by simp)⟩)
    (.inl ?_)
  rw [h.counter]
  exact Nat.lt_succ_self _

theorem indexed_eq_none_of_insert {d d' : Dir} {id : Uuid} {mail : Mail} (hd : Sound d)
    (hd' : Sound d') (hid : d.mails.lookup id = none) (hmails : d'.mails = d.mails.insert id mail)
    (hfiles : ∀ k ≠ .flags id, d'.files k = d.files k) : d'.indexed = none := by
  refine hd.indexed_eq_none hd' (hfiles _ (by simp)) (.inr ⟨?_, ?_⟩)
  · rw [Dir.modseqCounter, Dir.modseqCounter, hfiles .modseqctr (by simp)]
  · rw [hmails, AList.keys_insert, List.erase_of_not_mem (AList.lookup_eq_none.1 hid)]
    exact Nat.lt_succ_self _

variable {c : Command} {snapshot : Snapshot}
variable (crypto : MessageCrypto)

/-- A command other than an open changes nothing, or it makes the index old. -/
theorem Effect.indexed {d d' : Dir} (h : Effect c snapshot d d')
    (hsound : Sound d) (hnew : ∀ id, c.newId = some id → d.mails.lookup id = none) :
    d' = d ∨ d'.indexed = none := by
  have hsound' := h.sound hsound hnew
  cases h with
  | nothing hd => exact .inl hd
  | stored message _ flags hd =>
    refine .inr (hsound.indexed_eq_none hsound' ?_ (.inl ?_))
    · rw [hd]
      simp [FlagUpdates.written]
    · rw [hd, modseqCounter_written]
      exact Nat.lt_succ_self _
  | removed messages _ hexpunged => exact .inr (hexpunged.indexed_eq_none hsound hsound')
  | added id hid mail hmails hfiles =>
    exact .inr (indexed_eq_none_of_insert hsound hsound' (hnew id hid) hmails hfiles)

theorem Effect.lookup_of_some {d d' : Dir}
    (h : Effect c snapshot d d') {id : Uuid} (hid : c.newId ≠ some id) {mail : Mail}
    (hmail : d'.mails.lookup id = some mail) : d.mails.lookup id = some mail := by
  cases h with
  | nothing hd => rwa [hd] at hmail
  | stored message _ flags hd =>
    rw [hd] at hmail
    exact hmail
  | removed messages _ hexpunged =>
    rw [hexpunged.lookup] at hmail
    split at hmail
    · cases hmail
    · exact hmail
  | added new hnew mail' hmails _ =>
    rw [hmails, AList.lookup_insert_ne] at hmail
    · exact hmail
    · rintro rfl
      exact hid hnew

/-! ## Operations -/

namespace Sizes

structure New where
  stamp : Stamp
  data : List UInt8
  flags : List Flag

def New.mail (new : New) : Mail :=
  ⟨crypto.encode new.stamp.nonce new.data, new.stamp.mtime⟩

/-- Append messages, one after the other. -/
def appendAll (crypto : MessageCrypto) : List New → FileM Unit
  | [] => pure ()
  | new :: rest => do
    let _ ← append new.stamp.id (new.mail crypto) new.flags
    appendAll crypto rest

/-- Look up the UIDs of messages that have been appended, without the key. -/
def lookupUids (mailbox : Text) (clock : SystemTime) : List Uuid → FileM Bool
  | [] => pure true
  | id :: ids => do
    match ← Snapshot.openAt .disabled mailbox 0 clock.secs.toNat clock with
    | none => pure false
    | some snapshot =>
      if snapshot.messages.any fun message ↦ message.id == id then lookupUids mailbox clock ids
      else pure false

def appendAndLookUp (mailbox : Text) (clock : SystemTime)
    (messages : List New) : FileM Bool := do
  appendAll crypto messages
  lookupUids mailbox clock (messages.map fun new ↦ new.stamp.id)

/-- What JMAP does to destroy a message: it finds it without the key. -/
def destroyEmail (mailbox : Text) (id : Uuid) (clock : SystemTime) : FileM Bool := do
  match ← Snapshot.openAt .disabled mailbox 0 clock.secs.toNat clock with
  | none => pure false
  | some snapshot =>
    match snapshot.messages.findIdx? fun message ↦ message.id == id with
    | none => pure false
    | some index => do
      let (removed, _) ← snapshot.removeAt (min (index + 1) u32Max)
      pure removed

/-- What JMAP does to describe a mailbox: it counts the messages, and those not seen. -/
def mailboxObject (mailbox : Text) (clock : SystemTime) : FileM (ℕ × ℕ) := do
  match ← Snapshot.openAt .disabled mailbox 0 clock.secs.toNat clock with
  | none => pure (0, 0)
  | some snapshot =>
    pure (snapshot.messages.length,
      (snapshot.messages.filter fun message ↦ !message.flags.contains .seen).length)

inductive Operation
  /-- A session, of IMAP or JMAP, opens the mailbox with the key, or it changes flags or removes
  messages through the snapshot it holds; or a message is stored, and its UID is not asked for. -/
  | run (session : ℕ) (command : Command)
  /-- An APPEND, or a COPY or MOVE to this mailbox, which answers with UIDs. -/
  | append (mailbox : Text) (clock : SystemTime) (messages : List New)
  /-- An Email/set that destroys a message. -/
  | destroy (mailbox : Text) (clock : SystemTime) (id : Uuid)
  | get (mailbox : Text) (clock : SystemTime)

structure World where
  dir : Dir
  /-- The snapshot that each session holds. -/
  held : ℕ → Snapshot
  opened : List Snapshot
  /-- The ids that messages have been added under. -/
  used : List Uuid

def World.start : World := ⟨.empty, fun _ ↦ .empty, [], []⟩

def Operation.newIds : Operation → List Uuid
  | .run _ command => command.newId.toList
  | .append _ _ messages => messages.map fun new ↦ new.stamp.id
  | _ => []

/-- What an operation without the key does to the mailbox. -/
def Operation.keyless (d : Dir) : Operation → Dir
  | .run _ _ => d
  | .append mailbox clock messages =>
    ((appendAndLookUp crypto mailbox clock messages).run Dir.exec d).2
  | .destroy mailbox clock id => ((destroyEmail mailbox id clock).run Dir.exec d).2
  | .get mailbox clock => ((mailboxObject mailbox clock).run Dir.exec d).2

/-- One operation after the other, in a store with the given key. -/
def machine : Machine World Operation where
  enabled := fun w e ↦ NewIds e.newIds w.used
  step := fun w e ↦ match e with
    | .run s command =>
      let r := (command.body crypto (w.held s)).run Dir.exec w.dir
      { dir := r.2
        held := Function.update w.held s r.1
        opened := if command.opens then r.1 :: w.opened else w.opened
        used := e.newIds ++ w.used }
    | _ => { w with dir := e.keyless crypto w.dir, used := e.newIds ++ w.used }

/-- In every snapshot opened with the key, and in the next one, sizes are right. -/
def Right (w : World) : Prop :=
  (∀ snapshot ∈ w.opened, ∀ message ∈ snapshot.messages, RightSize crypto w.dir message) ∧
    ∀ mailbox retentionDays now clock snapshot d',
      (Snapshot.openAt crypto mailbox retentionDays now clock).run Dir.exec w.dir =
        (some snapshot, d') → ∀ message ∈ snapshot.messages, RightSize crypto d' message

/-- The condition on an operation: if it opens the mailbox without the key when the index is old,
and leaves the index at that, then all files are as long as their messages. -/
def Plain (w : World) : Operation → Prop
  | .run _ _ => True
  | .append _ _ messages => messages = [] ∨
      AllPlain crypto w.dir ∧ ∀ new ∈ messages, PlainFile crypto (new.mail crypto).stored
  -- a message that is found is removed, which makes the index old again
  | .destroy _ _ id => (w.dir.mails.lookup id).isSome ∨ w.dir.indexed.isSome ∨ AllPlain crypto w.dir
  | .get _ _ => w.dir.indexed.isSome ∨ AllPlain crypto w.dir

variable {crypto : MessageCrypto}

/-! ## What the operations do -/

variable {key : Aead} {w : World} {used : List Uuid} {e : Operation}

/-- An open with the key shows right sizes if and only if the index does. -/
theorem right_iff (hkey : crypto.key = some key) (htag : key.TagLength) :
    Right crypto w ↔ (∀ snapshot ∈ w.opened, ∀ message ∈ snapshot.messages,
      RightSize crypto w.dir message) ∧ Sized crypto w.dir := by
  refine and_congr_right fun _ ↦ ⟨fun h messages hmessages ↦ ?_, fun h ↦ ?_⟩
  · obtain ⟨snapshot, hrun, -, hshown, -⟩ := run_openAt crypto [] 0 0 ⟨0, 0⟩ w.dir
    have hright := h [] 0 0 ⟨0, 0⟩ snapshot _ hrun
    rw [hshown, (Dir.opened_of_indexed hmessages crypto ⟨0, 0⟩).1] at hright
    intro message hmessage
    rw [← rightSize_congr (opened_cases crypto ⟨0, 0⟩ w.dir).1.mails]
    exact hright message hmessage
  · intro mailbox retentionDays now clock snapshot d' hopen message hmessage
    obtain ⟨snapshot', hrun, -, hshown, -⟩ :=
      run_openAt crypto mailbox retentionDays now clock w.dir
    rw [hrun, Prod.mk.injEq, Option.some.injEq] at hopen
    obtain ⟨rfl, rfl⟩ := hopen
    rw [rightSize_congr (opened_cases crypto clock w.dir).1.mails]
    rw [hshown] at hmessage
    exact (h.opened hkey htag clock).1 message hmessage

section

variable {mailbox : Text} {clock : SystemTime}

/-- Lookups open the mailbox, once or more. -/
theorem run_lookupUids {P : Dir → Prop} (hopen : ∀ d, P d → P (d.opened .disabled clock).2)
    (ids : List Uuid) {d : Dir} (h : P d) :
      P ((lookupUids mailbox clock ids).run Dir.exec d).2 := by
  induction ids generalizing d with
  | nil => exact h
  | cons id ids ih =>
    obtain ⟨snapshot, hrun, -⟩ := run_openAt .disabled mailbox 0 clock.secs.toNat clock d
    rw [lookupUids, run_bind, hrun]
    dsimp only
    split
    · exact ih (hopen d h)
    · exact hopen d h

theorem sized_lookupUids_cons (id : Uuid) (ids : List Uuid) {d : Dir} (h : d.indexed = none) :
    Sized crypto ((lookupUids mailbox clock (id :: ids)).run Dir.exec d).2 ↔ AllPlain crypto d := by
  let P (d' : Dir) : Prop := d'.indexed.isSome ∧ (Sized crypto d' ↔ AllPlain crypto d)
  have hfirst : P (d.opened .disabled clock).2 := by
    obtain ⟨hindexed, hiff⟩ := sized_opened_disabled_iff crypto d clock
    refine ⟨hindexed, ?_⟩
    rw [hiff, h]
    simp
  -- the opens after it find the index that it has left
  have hopen : ∀ d', P d' → P (d'.opened .disabled clock).2 := by
    rintro d' ⟨hsome, hplain⟩
    obtain ⟨hindexed, hiff⟩ := sized_opened_disabled_iff crypto d' clock
    refine ⟨hindexed, ?_⟩
    rw [hiff, ← hplain]
    simp [hsome, Option.isSome_iff_ne_none.1 hsome]
  obtain ⟨snapshot, hrun, -⟩ := run_openAt .disabled mailbox 0 clock.secs.toNat clock d
  rw [lookupUids, run_bind, hrun]
  dsimp only
  split
  · exact (run_lookupUids hopen ids hfirst).2
  · exact hfirst.2

end

variable {id : Uuid} {messages : List New} {used' : List Uuid} {c : Command}

theorem allPlain_insert {d d' : Dir} {mail : Mail} (hid : d.mails.lookup id = none)
    (hmails : d'.mails = d.mails.insert id mail) :
    AllPlain crypto d' ↔ AllPlain crypto d ∧ PlainFile crypto mail.stored := by
  have hkey : id ∉ d.mails.keys := AList.lookup_eq_none.1 hid
  rw [AllPlain, hmails, AList.keys_insert, List.erase_of_not_mem hkey, List.forall_mem_cons,
    AList.lookup_insert, and_comm]
  refine and_congr ?_ (by simp)
  refine forall₂_congr fun other hother ↦ ?_
  rw [AList.lookup_insert_ne]
  rintro rfl
  exact hkey hother

theorem indexed_append {d : Dir} (hd : d.Tidy used) (hid : id ∉ used)
    (mail : Mail) (flags : List Flag) :
    ((append id mail flags).run Dir.exec d).2.indexed = none := by
  obtain ⟨hmails, hfiles, -⟩ := added_append id mail flags d
  exact indexed_eq_none_of_insert hd.sound (takes_append hid mail flags d hd).sound
    (hd.unused id hid)
    hmails hfiles

theorem run_appendAll (crypto : MessageCrypto) {d : Dir}
    (hd : d.Tidy used) (hnew : NewIds (messages.map fun new ↦ new.stamp.id) used) :
    ((appendAll crypto messages).run Dir.exec d).2.Tidy
        (messages.map (fun new ↦ new.stamp.id) ++ used) ∧
      (∀ id ∈ used, ((appendAll crypto messages).run Dir.exec d).2.mails.lookup id =
        d.mails.lookup id) ∧
      (messages ≠ [] → ((appendAll crypto messages).run Dir.exec d).2.indexed = none) ∧
      (AllPlain crypto ((appendAll crypto messages).run Dir.exec d).2 ↔
        AllPlain crypto d ∧ ∀ new ∈ messages, PlainFile crypto (new.mail crypto).stored) := by
  induction messages generalizing used d with
  | nil =>
    refine ⟨hd, fun _ _ ↦ rfl, fun h ↦ absurd rfl h, ?_⟩
    simp [appendAll]
  | cons new rest ih =>
    have hid : new.stamp.id ∉ used := hnew.unused _ List.mem_cons_self
    obtain ⟨hmails, hfiles, -⟩ := added_append new.stamp.id (new.mail crypto) new.flags d
    have htidy := takes_append hid (new.mail crypto) new.flags d hd
    set d₁ := ((append new.stamp.id (new.mail crypto) new.flags).run Dir.exec d).2
    have hunused := hd.unused _ hid
    obtain ⟨hafter, hlookup, hindexed, hplain⟩ := ih htidy hnew.tail
    rw [appendAll, run_bind]
    refine ⟨hafter.mono List.perm_middle.subset, fun id hused ↦ ?_, fun _ ↦ ?_, ?_⟩
    · rw [hlookup id (List.mem_cons_of_mem _ hused), hmails, AList.lookup_insert_ne]
      rintro rfl
      exact hid hused
    · by_cases hrest : rest = []
      · subst hrest
        exact indexed_append hd hid _ _
      · exact hindexed hrest
    · rw [hplain, allPlain_insert hunused hmails, List.forall_mem_cons, and_assoc]

/-- What an operation may do to a mailbox: message files that are there are those that were. -/
structure Kept (used used' : List Uuid) (d d' : Dir) : Prop where
  tidy : d'.Tidy used'
  lookup : ∀ id ∈ used, ∀ mail, d'.mails.lookup id = some mail → d.mails.lookup id = some mail

theorem kept_opened {d : Dir} (hd : d.Tidy used) (c : MessageCrypto)
    (clock : SystemTime) : Kept used used d (d.opened c clock).2 := by
  have hmails := (opened_cases c clock d).1.mails
  refine ⟨⟨(hd.sound.opened c clock).sound, fun id hid ↦ ?_⟩, fun id _ mail hmail ↦ ?_⟩
  · rw [hmails, hd.unused id hid]
  · rwa [hmails] at hmail

theorem Kept.trans {used'' : List Uuid} {d d' d'' : Dir} (h : Kept used used' d d')
    (h' : Kept used' used'' d' d'') (hsub : used ⊆ used') : Kept used used'' d d'' :=
  ⟨h'.tidy, fun id hid mail hmail ↦ h.lookup id hid mail (h'.lookup id (hsub hid) mail hmail)⟩

theorem kept_body (crypto : MessageCrypto) {d : Dir} (hd : d.Tidy used)
    (hopens : c.opens = false) (hnew : ∀ id, c.newId = some id → id ∉ used) (snapshot : Snapshot) :
    Kept used (c.newId.toList ++ used) d ((c.body crypto snapshot).run Dir.exec d).2 := by
  have heffect := c.effect crypto (Command.ne_openMailbox hopens) snapshot d
  refine ⟨takes_body hnew crypto snapshot d hd, fun id hid mail hmail ↦ ?_⟩
  exact heffect.lookup_of_some (fun heq ↦ hnew id heq hid) hmail

theorem kept_appendAndLookUp {d : Dir} (hd : d.Tidy used)
    (hnew : NewIds (messages.map fun new ↦ new.stamp.id) used) (mailbox : Text)
    (clock : SystemTime) :
    Kept used (messages.map (fun new ↦ new.stamp.id) ++ used) d
      ((appendAndLookUp crypto mailbox clock messages).run Dir.exec d).2 := by
  obtain ⟨htidy, hlookup, -⟩ := run_appendAll crypto hd hnew
  obtain ⟨htidy', hmails⟩ := run_lookupUids (P := fun d' ↦ d'.Tidy _ ∧ d'.mails = _)
    (fun d' h ↦ ⟨(kept_opened h.1 .disabled clock).tidy,
      (opened_cases .disabled clock d').1.mails.trans h.2⟩) _ ⟨htidy, rfl⟩
  rw [appendAndLookUp, run_bind]
  refine ⟨htidy', fun id hid mail hmail ↦ ?_⟩
  rwa [hmails, hlookup id hid] at hmail

theorem kept_expunged {d d' : Dir} (hd : d.Tidy used) {messages : List MessageRef}
    (h : Expunged messages d d') : Kept used used d d' ∧ d'.indexed = none := by
  have heffect : Effect .expunge { Snapshot.empty with messages := messages } d d' :=
    .removed messages (.refl _) h
  have htidy : d'.Tidy used := hd.of_effect heffect (fun id hid ↦ by cases hid) (.refl _)
    fun id hid ↦ by cases hid
  exact ⟨⟨htidy, fun id _ mail hmail ↦ heffect.lookup_of_some (by simp [Command.newId]) hmail⟩,
    h.indexed_eq_none hd.sound htidy.sound⟩

/-- A message that is there is found and removed. -/
theorem destroy_cases {d : Dir} (hd : d.Tidy used) (mailbox : Text)
    (clock : SystemTime) (id : Uuid) :
    d.mails.lookup id = none ∧
        ((destroyEmail mailbox id clock).run Dir.exec d).2 = (d.opened .disabled clock).2 ∨
      (d.mails.lookup id).isSome ∧ ∃ message, Expunged [message] (d.opened .disabled clock).2
        ((destroyEmail mailbox id clock).run Dir.exec d).2 := by
  obtain ⟨snapshot, hrun, -, hmessages, -⟩ :=
    run_openAt .disabled mailbox 0 clock.secs.toNat clock d
  have hopened := hd.sound.opened .disabled clock
  have hids : snapshot.messages.map MessageRef.id = sortIds d.mails.keys := by
    rw [hmessages, hopened.current.ids, hopened.numbered.mails]
  have hfound : (∃ message ∈ snapshot.messages, message.id = id) ↔ (d.mails.lookup id).isSome := by
    rw [← List.mem_map, hids, AList.lookup_isSome]
    exact List.mem_insertionSort _
  rw [destroyEmail, run_bind, hrun]
  dsimp only
  cases hindex : snapshot.messages.findIdx? fun message ↦ message.id == id with
  | none =>
    refine .inl ⟨?_, rfl⟩
    rw [← Option.not_isSome_iff_eq_none, ← hfound]
    rintro ⟨message, hmessage, hid⟩
    have hnot := List.findIdx?_eq_none_iff.1 hindex message hmessage
    rw [hid] at hnot
    simp at hnot
  | some index =>
    obtain ⟨hlt, hid, -⟩ := List.findIdx?_eq_some_iff_getElem.1 hindex
    have hposition : snapshot.bySequence (min (index + 1) u32Max) ≠ none := by
      have hmax : 0 < u32Max := by decide
      rw [Snapshot.bySequence, if_pos (by omega), ne_eq, List.getElem?_eq_none_iff]
      omega
    dsimp only
    rw [run_bind]
    rcases run_removeAt snapshot (min (index + 1) u32Max) (d.opened .disabled clock).2 with
      ⟨hnone, -⟩ | ⟨message, -, hexpunged⟩
    · exact absurd hnone hposition
    · refine .inr ⟨hfound.1 ⟨snapshot.messages[index], List.getElem_mem hlt, by simpa using hid⟩,
        message, hexpunged⟩

theorem run_mailboxObject (mailbox : Text) (clock : SystemTime) (d : Dir) :
    ((mailboxObject mailbox clock).run Dir.exec d).2 = (d.opened .disabled clock).2 := by
  obtain ⟨snapshot, hrun, -⟩ := run_openAt .disabled mailbox 0 clock.secs.toNat clock d
  rw [mailboxObject, run_bind, hrun]
  rfl

/-! ## Runs -/

/-- Sizes are right, and messages that are shown have used ids. -/
structure Inv (crypto : MessageCrypto) (w : World) : Prop where
  tidy : w.dir.Tidy w.used
  sized : Sized crypto w.dir
  right : ∀ snapshot ∈ w.opened, ∀ message ∈ snapshot.messages, RightSize crypto w.dir message
  shown_used : ∀ snapshot ∈ w.opened, ∀ message ∈ snapshot.messages, message.id ∈ w.used

theorem inv_start : Inv crypto .start where
  tidy := .empty
  sized := by
    intro messages hmessages
    cases hmessages
  right := fun snapshot hsnapshot ↦ absurd hsnapshot List.not_mem_nil
  shown_used := fun snapshot hsnapshot ↦ absurd hsnapshot List.not_mem_nil

/-- Snapshots from before stay right. -/
theorem Inv.right_kept (h : Inv crypto w) {d' : Dir} (hkept : Kept w.used used' w.dir d') :
    ∀ snapshot ∈ w.opened, ∀ message ∈ snapshot.messages, RightSize crypto d' message :=
  fun snapshot hsnapshot message hmessage ↦ (h.right snapshot hsnapshot message hmessage).of_lookup
    (hkept.lookup _ (h.shown_used snapshot hsnapshot message hmessage))

section

variable (h : Inv crypto w) (henabled : (machine crypto).enabled w e)
include h henabled

theorem Inv.kept_keyless : Kept w.used (e.newIds ++ w.used) w.dir (e.keyless crypto w.dir) := by
  cases e with
  | run s c => exact ⟨h.tidy.mono (List.subset_append_right _ _), fun _ _ _ hmail ↦ hmail⟩
  | append mailbox clock messages => exact kept_appendAndLookUp h.tidy henabled mailbox clock
  | destroy mailbox clock id =>
    have hopened := kept_opened h.tidy .disabled clock
    rcases destroy_cases h.tidy mailbox clock id with ⟨-, hdir⟩ | ⟨-, message, hexpunged⟩
    · change Kept _ _ _ ((destroyEmail mailbox id clock).run Dir.exec w.dir).2
      rw [hdir]
      exact hopened
    · exact hopened.trans (kept_expunged hopened.tidy hexpunged).1 (.refl _)
  | get mailbox clock =>
    change Kept _ _ _ ((mailboxObject mailbox clock).run Dir.exec w.dir).2
    rw [run_mailboxObject]
    exact kept_opened h.tidy .disabled clock

/-- The index after an operation without the key. -/
theorem Inv.sized_keyless_iff : Sized crypto (e.keyless crypto w.dir) ↔ Plain crypto w e := by
  have hopen : ∀ clock, Sized crypto (w.dir.opened .disabled clock).2 ↔
      w.dir.indexed.isSome ∨ AllPlain crypto w.dir := by
    intro clock
    rw [(sized_opened_disabled_iff crypto w.dir clock).2]
    cases w.dir.indexed with
    | none => simp
    | some messages => simp [h.sized]
  cases e with
  | run s c => exact iff_of_true h.sized trivial
  | append mailbox clock messages =>
    change Sized crypto ((appendAndLookUp crypto mailbox clock messages).run Dir.exec w.dir).2 ↔ _
    rw [appendAndLookUp, run_bind, Plain]
    obtain ⟨-, -, hindexed, hplain⟩ := run_appendAll crypto h.tidy henabled
    cases messages with
    | nil => exact iff_of_true h.sized (.inl rfl)
    | cons new rest =>
      rw [List.map_cons, sized_lookupUids_cons _ _ (hindexed (List.cons_ne_nil _ _)), hplain]
      simp
  | destroy mailbox clock id =>
    change Sized crypto ((destroyEmail mailbox id clock).run Dir.exec w.dir).2 ↔ _
    rcases destroy_cases h.tidy mailbox clock id with ⟨hnone, hdir⟩ | ⟨hsome, message, hexpunged⟩
    · rw [hdir, hopen, Plain, hnone]
      simp
    · refine iff_of_true ?_ (.inl hsome)
      have hindexed := (kept_expunged (kept_opened h.tidy .disabled clock).tidy hexpunged).2
      intro messages hmessages
      rw [hindexed] at hmessages
      cases hmessages
  | get mailbox clock =>
    change Sized crypto ((mailboxObject mailbox clock).run Dir.exec w.dir).2 ↔ _
    rw [run_mailboxObject, hopen, Plain]

end

/-- What is done with the key keeps sizes right. -/
theorem Inv.step_run (hkey : crypto.key = some key) (htag : key.TagLength)
    (h : Inv crypto w) {s : ℕ} (henabled : (machine crypto).enabled w (.run s c)) :
    Inv crypto ((machine crypto).step w (.run s c)) := by
  cases hopens : c.opens with
  | true =>
    cases c with
    | openMailbox mailbox retentionDays now clock =>
      obtain ⟨snapshot, hrun, -, hshown, -⟩ :=
        run_openAt crypto mailbox retentionDays now clock w.dir
      have hkept := kept_opened h.tidy crypto clock
      obtain ⟨hright, hsized⟩ := h.sized.opened hkey htag clock
      have hstep : (machine crypto).step w (.run s (.openMailbox mailbox retentionDays now clock)) =
          ⟨(w.dir.opened crypto clock).2, Function.update w.held s snapshot,
            snapshot :: w.opened, w.used⟩ := by
        simp only [machine, Command.body, run_bind, hrun, Command.opens, Operation.newIds,
          Command.newId]
        rfl
      have hids : (w.dir.opened crypto clock).1.map MessageRef.id = sortIds w.dir.mails.keys := by
        have hopened := h.tidy.sound.opened crypto clock
        rw [hopened.current.ids, hopened.numbered.mails]
      rw [hstep]
      refine ⟨hkept.tidy, hsized, List.forall_mem_cons.2 ⟨fun message hmessage ↦ ?_,
        h.right_kept hkept⟩, List.forall_mem_cons.2 ⟨fun message hmessage ↦ ?_, h.shown_used⟩⟩
      · rw [hshown] at hmessage
        exact (rightSize_congr (opened_cases crypto clock w.dir).1.mails).2
          (hright message hmessage)
      · by_contra hunused
        rw [hshown] at hmessage
        have hmem : message.id ∈ sortIds w.dir.mails.keys := hids ▸ List.mem_map_of_mem hmessage
        exact AList.lookup_eq_none.1 (h.tidy.unused _ hunused) ((List.mem_insertionSort _).1 hmem)
    | _ => cases hopens
  | false =>
    have hnew : ∀ id, c.newId = some id → id ∉ w.used :=
      fun id hid ↦ henabled.unused id (by simp [Operation.newIds, hid])
    have hkept := kept_body crypto h.tidy hopens hnew (w.held s)
    have hstep : (machine crypto).step w (.run s c) =
        ⟨((c.body crypto (w.held s)).run Dir.exec w.dir).2,
          Function.update w.held s ((c.body crypto (w.held s)).run Dir.exec w.dir).1, w.opened,
          c.newId.toList ++ w.used⟩ := by
      simp [machine, hopens, Operation.newIds]
    rw [hstep]
    refine ⟨hkept.tidy, ?_, h.right_kept hkept, fun snapshot hsnapshot message hmessage ↦
      List.mem_append_right _ (h.shown_used snapshot hsnapshot message hmessage)⟩
    rcases (c.effect crypto (Command.ne_openMailbox hopens) (w.held s) w.dir).indexed h.tidy.sound
      (fun id hid ↦ h.tidy.unused id (hnew id hid)) with hsame | hnone
    · dsimp only
      rw [hsame]
      exact h.sized
    · intro messages hmessages
      rw [hnone] at hmessages
      cases hmessages

theorem step_of_keyless (crypto : MessageCrypto)
    (h : ∀ s c, e ≠ .run s c) : (machine crypto).step w e =
      { w with dir := e.keyless crypto w.dir, used := e.newIds ++ w.used } := by
  cases e with
  | run s c => exact absurd rfl (h s c)
  | _ => rfl

/-- Whether sizes are right after an operation. -/
theorem Inv.right_step_iff (hkey : crypto.key = some key) (htag : key.TagLength)
    (h : Inv crypto w) (henabled : (machine crypto).enabled w e) :
    (Right crypto ((machine crypto).step w e) ↔ Plain crypto w e) ∧
      (Plain crypto w e → Inv crypto ((machine crypto).step w e)) := by
  by_cases hrun : ∃ s c, e = .run s c
  · obtain ⟨s, c, rfl⟩ := hrun
    have hinv := h.step_run hkey htag henabled
    exact ⟨iff_of_true ((right_iff hkey htag).2 ⟨hinv.right, hinv.sized⟩) trivial, fun _ ↦ hinv⟩
  · rw [step_of_keyless crypto fun s c heq ↦ hrun ⟨s, c, heq⟩, right_iff hkey htag]
    have hkept := h.kept_keyless henabled
    have hsized := h.sized_keyless_iff henabled
    refine ⟨(and_iff_right (h.right_kept hkept)).trans hsized, fun hplain ↦ ?_⟩
    exact ⟨hkept.tidy, hsized.2 hplain, h.right_kept hkept,
      fun snapshot hsnapshot message hmessage ↦
      List.mem_append_right _ (h.shown_used snapshot hsnapshot message hmessage)⟩

/-- **Sizes are sizes of messages, unless an open without the key fills the index.** The store has a
key, whose cipher adds a tag of 16 bytes. In every run of operations that all meet the condition,
the size of each message in each snapshot opened with the key is the length of what is read for it.
The next operation keeps it so if and only if it meets the condition. -/
theorem sizes_right_iff {key : Aead} (hkey : crypto.key = some key) (htag : key.TagLength)
    {w : World} (hreach : (machine crypto).Reach (Plain crypto) .start w) :
    Right crypto w ∧ ∀ e, (machine crypto).enabled w e →
      (Right crypto ((machine crypto).step w e) ↔ Plain crypto w e) := by
  have hinv : Inv crypto w := hreach.invariant (I := Inv crypto) inv_start
    fun w e h henabled hplain ↦ (h.right_step_iff hkey htag henabled).2 hplain
  exact ⟨(right_iff hkey htag).2 ⟨hinv.right, hinv.sized⟩,
    fun e henabled ↦ (hinv.right_step_iff hkey htag henabled).1⟩

/-! ## Runs of one mailbox -/

/-- A nonce of the right length, and the time. -/
def stampOf (id : ℕ) : Stamp := ⟨.ofNat id, List.replicate 12 7, ⟨1, 0⟩⟩

instance (w : World) (e : Operation) : Decidable ((machine sealing).enabled w e) :=
  inferInstanceAs (Decidable (NewIds e.newIds w.used))

instance (crypto : MessageCrypto) (stored : List UInt8) : Decidable (PlainFile crypto stored) :=
  Option.decidableForallMem (crypto.decode stored)

instance (crypto : MessageCrypto) (d : Dir) : Decidable (AllPlain crypto d) :=
  have (id : Uuid) : Decidable (∀ mail ∈ d.mails.lookup id, PlainFile crypto mail.stored) :=
    Option.decidableForallMem (d.mails.lookup id)
  inferInstanceAs (Decidable (∀ id ∈ d.mails.keys, _))

instance (crypto : MessageCrypto) (w : World) : (e : Operation) → Decidable (Plain crypto w e)
  | .run _ _ => isTrue trivial
  | .append _ _ messages => decidable_of_iff (messages.isEmpty = true ∨ AllPlain crypto w.dir ∧
      ∀ new ∈ messages, PlainFile crypto (new.mail crypto).stored) (by rw [List.isEmpty_iff]; rfl)
  | .destroy _ _ _ | .get _ _ => by dsimp only [Plain]; infer_instance

/-- A message is delivered, and the mailbox is opened with the key before it is counted without. -/
def counting : List Operation :=
  [.run 0 (.deliver (.ofNat 1) (List.replicate 12 7) [65] ⟨1, 0⟩ []),
    .run 0 (.openMailbox "INBOX".toList 0 0 ⟨1, 0⟩), .get "INBOX".toList ⟨2, 0⟩,
    .run 0 (.openMailbox "INBOX".toList 0 0 ⟨3, 0⟩)]

theorem sizes_right_counting :
    (counting.foldl (machine sealing).step .start).opened.map (fun snapshot ↦
        snapshot.messages.map MessageRef.size) = [[1], [1]] ∧
      Right sealing (counting.foldl (machine sealing).step .start) :=
  ⟨by decide, (sizes_right_iff (show sealing.key = some zeroTag from rfl) tagLength_zeroTag
    (.of_passes (by decide))).1⟩

/-- The mailbox after an APPEND of one byte. -/
def appending : World :=
  (machine sealing).step .start (.append "INBOX".toList ⟨1, 0⟩ [⟨stampOf 1, [65], []⟩])

/-- An open with the key then shows the length of the file. -/
theorem appended_size_wrong : ¬Right sealing appending := by
  intro h
  have hopen : ((Snapshot.openAt sealing "INBOX".toList 0 0 ⟨2, 0⟩).run Dir.exec
      appending.dir).1.map (fun snapshot ↦ snapshot.messages.map fun message ↦
        (message.size, ((readBody sealing message.id).run Dir.exec appending.dir).1)) =
      some [(36, some [65])] := by
    decide
  obtain ⟨snapshot, hsnapshot, hmessages⟩ := Option.map_eq_some_iff.1 hopen
  obtain ⟨message, hmessage, heq⟩ :=
    List.mem_map.1 (hmessages ▸ List.mem_singleton_self (36, some [65]))
  obtain ⟨hsize, hread⟩ := Prod.mk.inj heq
  have hmails := (opened_cases sealing ⟨2, 0⟩ appending.dir).1.mails
  obtain ⟨opened, hrun, -⟩ := run_openAt sealing "INBOX".toList 0 0 ⟨2, 0⟩ appending.dir
  have hright := h.2 "INBOX".toList 0 0 ⟨2, 0⟩ snapshot _ (Prod.ext hsnapshot rfl) message hmessage
  rw [hrun] at hright
  have hlen := (rightSize_congr hmails).1 hright [65] hread
  rw [hsize] at hlen
  cases hlen

end Sizes

end Epistle.Imap
