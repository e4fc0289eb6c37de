import Epistle.Imap.Mailbox

/-!
# The metadata index

The index file caches what a scan of the mailbox gathers, one line of text per message, under a
header with a magic word, a format version and a *generation*: the mod-sequence counter and the
number of message files when the scan began. Loading succeeds only under the generation the caller
names, and a single malformed line makes the whole file count as absent.

The result of this file is that loading reads back exactly what was written
(`Index.parse_render`): under the generation it was written for the list itself, under any other
nothing. There is one exception, and the statement has it: a date before the Unix epoch is written
as the epoch.
-/

namespace Epistle.Imap

open TextFormat

/-! ## Flags as text -/

namespace Flag

/-- The wire representation. -/
def asStr : Flag → Text
  | seen => "\\Seen".toList
  | answered => "\\Answered".toList
  | flagged => "\\Flagged".toList
  | deleted => "\\Deleted".toList
  | draft => "\\Draft".toList

def parse (token : Text) : Option Flag :=
  let t := toAsciiLowercase token
  if t = "\\seen".toList then some seen
  else if t = "\\answered".toList then some answered
  else if t = "\\flagged".toList then some flagged
  else if t = "\\deleted".toList then some deleted
  else if t = "\\draft".toList then some draft
  else none

end Flag

namespace Index

def magic : Text := "EPISTLE-MAILBOX-INDEX".toList

def version : UInt32 := 1

/-! ## Writing -/

/-- The wire token of a flag in lower case, without its backslash. -/
def flagToken (f : Flag) : Text := toAsciiLowercase (f.asStr.drop 1)

/-- A date as seconds and nanoseconds since the epoch. A date before it is written as the epoch. -/
def writeTime (time : SystemTime) : Text :=
  if 0 ≤ time.secs then decimal time.secs.toNat ++ ['.'] ++ decimal time.nanos
  else decimal 0 ++ ['.'] ++ decimal 0

/-- One record, without its line end. -/
def writeRecord (message : MessageRef) : Text :=
  message.id.toText ++ [' '] ++ decimal message.uid.toNat ++ [' '] ++
    decimal message.size ++ [' '] ++
    writeTime message.internalDate ++ [' '] ++ decimal message.modseq ++ [' '] ++
    [','].intercalate (message.flags.map flagToken)

def render (generation : ℕ × ℕ) (messages : List MessageRef) : Text :=
  magic ++ [' '] ++ decimal version.toNat ++ ['\n'] ++
    "gen ".toList ++ decimal generation.1 ++ [' '] ++ decimal generation.2 ++ ['\n'] ++
    messages.flatMap fun message ↦ writeRecord message ++ ['\n']

/-! ## Reading -/

/-- Read a number that fits in 32 bits. -/
def parseU32 (t : Text) : Option UInt32 :=
  (parseDecimal t).bind fun n ↦ if n < 2 ^ 32 then some (UInt32.ofNat n) else none

def parseTime (field : Text) : Option SystemTime := do
  let (secs, nanos) ← splitOnce '.' field
  let secs ← parseDecimal secs
  let nanos ← parseU32 nanos
  if h : nanos.toNat < 1000000000 then some ⟨secs, nanos.toNat, h⟩ else none

def parseFlags (field : Text) : Option (List Flag) :=
  if field = [] then some [] else (field.splitOn ',').mapM fun token ↦ Flag.parse ('\\' :: token)

def parseRecord (line : Text) : Option MessageRef :=
  match line.splitOn ' ' with
  | [id, uid, size, time, modseq, flags] => do
    let id ← Uuid.parseStr id
    let uid ← parseU32 uid
    let size ← parseDecimal size
    let internalDate ← parseTime time
    let modseq ← parseDecimal modseq
    let flags ← parseFlags flags
    some { uid, id, size, flags, internalDate, modseq }
  | _ => none

/-- Whether the first line has the magic word and the version of this format. -/
def headerOk (header : Text) : Bool :=
  match splitOnce ' ' header with
  | some (word, number) => word = magic ∧ parseU32 number = some version
  | none => false

/-- Read the stamp line. Fields after the second number are ignored. -/
def parseStamp (line : Text) : Option (ℕ × ℕ) :=
  match line.splitOn ' ' with
  | tag :: modseq :: count :: _ =>
    if tag = "gen".toList then do
      let modseq ← parseDecimal modseq
      let count ← parseDecimal count
      some (modseq, count)
    else none
  | _ => none

/-- The messages of an index file, if it is well formed and stamped with `generation`. The number
of records must agree with the stamp, or the file is truncated. -/
def parse (text : Text) (generation : ℕ × ℕ) : Option (List MessageRef) :=
  match lines text with
  | header :: stamp :: records =>
    if headerOk header ∧ parseStamp stamp = some generation then
      (records.mapM parseRecord).filter fun messages ↦ messages.length = generation.2
    else none
  | _ => none

/-! ## Reading what was written -/

theorem parseU32_decimal (u : UInt32) : parseU32 (decimal u.toNat) = some u := by
  rw [parseU32, parseDecimal_decimal, Option.bind_some, if_pos u.toNat_lt, UInt32.ofNat_toNat]

/-- A message as the index keeps it: a date before the epoch is lost. -/
def clamp (message : MessageRef) : MessageRef :=
  if 0 ≤ message.internalDate.secs then message
  else { message with internalDate := .unixEpoch }

theorem clamp_of_nonneg {message : MessageRef} (h : 0 ≤ message.internalDate.secs) :
    clamp message = message := if_pos h

section

variable (message : MessageRef)

@[simp] theorem clamp_id : (clamp message).id = message.id := by
  unfold clamp
  split <;> rfl

@[simp] theorem clamp_uid : (clamp message).uid = message.uid := by
  unfold clamp
  split <;> rfl

@[simp] theorem clamp_size : (clamp message).size = message.size := by
  unfold clamp
  split <;> rfl

@[simp] theorem clamp_flags : (clamp message).flags = message.flags := by
  unfold clamp
  split <;> rfl

@[simp] theorem clamp_modseq : (clamp message).modseq = message.modseq := by
  unfold clamp
  split <;> rfl

end

private theorem parseTime_append (secs nanos : ℕ) (h : nanos < 1000000000) :
    parseTime (decimal secs ++ ['.'] ++ decimal nanos) = some ⟨secs, nanos, h⟩ := by
  have hnanos : parseU32 (decimal nanos) = some (UInt32.ofNat nanos) := by
    rw [parseU32, parseDecimal_decimal, Option.bind_some, if_pos (by omega)]
  have hto : (UInt32.ofNat nanos).toNat = nanos := UInt32.toNat_ofNat_of_lt' (h.trans (by decide))
  rw [parseTime, List.append_assoc, List.singleton_append,
    splitOnce_append (not_mem_decimal (by decide))]
  simp only [Option.bind_eq_bind, Option.bind_some, parseDecimal_decimal, hnanos, hto, h, dite_true]

theorem parseTime_writeTime (message : MessageRef) :
    parseTime (writeTime message.internalDate) = some (clamp message).internalDate := by
  rw [writeTime, clamp]
  split
  next h =>
    rw [parseTime_append _ _ message.internalDate.nanos.isLt, Int.toNat_of_nonneg h]
  next =>
    rfl

private theorem parse_flagToken (f : Flag) : Flag.parse ('\\' :: flagToken f) = some f := by
  cases f <;> decide

variable {c : Char}

private theorem mem_flagToken {f : Flag} (hc : c ∈ flagToken f) :
    c.isAlpha = true := by
  have hall : (flagToken f).all Char.isAlpha = true := by cases f <;> decide
  exact List.all_eq_true.1 hall c hc

private theorem flagToken_ne_nil (f : Flag) : flagToken f ≠ [] := by
  cases f <;> decide

private theorem intercalate_eq_nil {l : List Text} (h : [','].intercalate l = []) (hl : [] ∉ l) :
    l = [] := by
  match l with
  | [] => rfl
  | [t] => simp_all [List.intercalate_singleton]
  | t :: u :: l => simp [List.intercalate_cons_cons] at h

theorem parseFlags_intercalate (l : List Flag) :
    parseFlags ([','].intercalate (l.map flagToken)) = some l := by
  rw [parseFlags]
  split
  next h =>
    have hl : l.map flagToken = [] := intercalate_eq_nil h fun hmem ↦ by
      obtain ⟨f, -, hf⟩ := List.mem_map.1 hmem
      exact flagToken_ne_nil f hf
    rw [List.map_eq_nil_iff.1 hl]
  next h =>
    have hl : l.map flagToken ≠ [] := fun hnil ↦ h (by rw [hnil]; rfl)
    rw [List.splitOn_intercalate ',' _ hl,
      mapM_map_eq_some parse_flagToken (f := fun token ↦ Flag.parse ('\\' :: token)),
      List.map_id']
    intro t ht hcomma
    obtain ⟨f, -, rfl⟩ := List.mem_map.1 ht
    exact absurd (mem_flagToken hcomma) (by decide)

private theorem writeRecord_eq_intercalate (message : MessageRef) :
    writeRecord message = [' '].intercalate [message.id.toText, decimal message.uid.toNat,
      decimal message.size, writeTime message.internalDate, decimal message.modseq,
      [','].intercalate (message.flags.map flagToken)] := by
  simp only [writeRecord, List.intercalate_cons_cons, List.intercalate_singleton, List.append_assoc]

/-- A character that can occur in a record. -/
private def InRecord (c : Char) : Prop := c.isAlphanum = true ∨ c = '-' ∨ c = '.' ∨ c = ','

private theorem InRecord.of_isDigit (h : c.isDigit = true) : InRecord c :=
  .inl (by rw [Char.isAlphanum, h, Bool.or_true])

private theorem mem_writeTime {time : SystemTime} (hc : c ∈ writeTime time) :
    InRecord c := by
  unfold writeTime at hc
  split at hc <;> simp only [List.mem_append, List.mem_singleton] at hc <;>
    rcases hc with (hc | rfl) | hc
  exacts [.of_isDigit (isDigit_of_mem_decimal hc), .inr (.inr (.inl rfl)),
    .of_isDigit (isDigit_of_mem_decimal hc), .of_isDigit (isDigit_of_mem_decimal hc),
    .inr (.inr (.inl rfl)), .of_isDigit (isDigit_of_mem_decimal hc)]

private theorem mem_intercalate_flagToken {l : List Flag}
    (hc : c ∈ [','].intercalate (l.map flagToken)) : InRecord c := by
  induction l with
  | nil => cases hc
  | cons f l ih =>
    have htoken : ∀ {c}, c ∈ flagToken f → InRecord c := fun hc ↦
      .inl (by rw [Char.isAlphanum, mem_flagToken hc, Bool.true_or])
    match l, ih with
    | [], _ =>
      rw [List.map_singleton, List.intercalate_singleton] at hc
      exact htoken hc
    | g :: l, ih =>
      rw [List.map_cons, List.map_cons, List.intercalate_cons_cons, ← List.map_cons,
        List.mem_append, List.mem_append, List.mem_singleton] at hc
      rcases hc with (hc | rfl) | hc
      · exact htoken hc
      · exact .inr (.inr (.inr rfl))
      · exact ih hc

/-- The fields of a record hold neither a separator nor a line end. -/
private theorem inRecord_of_mem_field (message : MessageRef) {field : Text}
    (hfield : field ∈ [message.id.toText, decimal message.uid.toNat, decimal message.size,
      writeTime message.internalDate, decimal message.modseq,
      [','].intercalate (message.flags.map flagToken)]) (hc : c ∈ field) :
    InRecord c := by
  simp only [List.mem_cons, List.not_mem_nil, or_false] at hfield
  rcases hfield with rfl | rfl | rfl | rfl | rfl | rfl
  · exact (Uuid.mem_toText hc).imp id Or.inl
  · exact .of_isDigit (isDigit_of_mem_decimal hc)
  · exact .of_isDigit (isDigit_of_mem_decimal hc)
  · exact mem_writeTime hc
  · exact .of_isDigit (isDigit_of_mem_decimal hc)
  · exact mem_intercalate_flagToken hc

private theorem not_inRecord_space : ¬InRecord ' ' := by unfold InRecord; decide

private theorem not_inRecord_newline : ¬InRecord '\n' := by unfold InRecord; decide

private theorem not_inRecord_return : ¬InRecord '\r' := by unfold InRecord; decide

private theorem not_mem_writeRecord {message : MessageRef} (hc : ¬InRecord c)
    (hspace : c ≠ ' ') : c ∉ writeRecord message := by
  rw [writeRecord_eq_intercalate]
  simp only [List.intercalate_cons_cons, List.intercalate_singleton, List.mem_append,
    List.mem_singleton, hspace, not_or, not_false_eq_true, and_true]
  refine ⟨?_, ?_, ?_, ?_, ?_, ?_⟩ <;>
    exact fun hmem ↦ hc (inRecord_of_mem_field message (by simp) hmem)

theorem parseRecord_writeRecord (message : MessageRef) :
    parseRecord (writeRecord message) = some (clamp message) := by
  have hsplit : (writeRecord message).splitOn ' ' = [message.id.toText, decimal message.uid.toNat,
      decimal message.size, writeTime message.internalDate, decimal message.modseq,
      [','].intercalate (message.flags.map flagToken)] := by
    rw [writeRecord_eq_intercalate]
    refine List.splitOn_intercalate ' ' (fun field hfield hmem ↦ ?_) (List.cons_ne_nil _ _)
    exact not_inRecord_space (inRecord_of_mem_field message hfield hmem)
  have hclamp : clamp message =
      { uid := message.uid, id := message.id, size := message.size, flags := message.flags,
        internalDate := (clamp message).internalDate, modseq := message.modseq } := by
    unfold clamp
    split <;> rfl
  rw [parseRecord, hsplit]
  simp only [Uuid.parseStr_toText, parseU32_decimal, parseDecimal_decimal, parseTime_writeTime,
    parseFlags_intercalate, Option.bind_eq_bind, Option.bind_some]
  rw [← hclamp]

/-! ### The whole file -/

/-- The header and the stamp of an index, as lines. -/
private def head (generation : ℕ × ℕ) : List Text :=
  [magic ++ [' '] ++ decimal version.toNat,
    "gen".toList ++ [' '] ++ decimal generation.1 ++ [' '] ++ decimal generation.2]

private theorem render_eq_flatMap (generation : ℕ × ℕ) (messages : List MessageRef) :
    render generation messages =
      (head generation ++ messages.map writeRecord).flatMap fun line ↦ line ++ ['\n'] := by
  simp [render, head, List.flatMap_map]

private theorem not_mem_head {generation : ℕ × ℕ} (hc : c = '\n' ∨ c = '\r') :
    ∀ line ∈ head generation, c ∉ line := by
  have hdigit : c.isDigit = false := by rcases hc with rfl | rfl <;> decide
  have hmagic : c ∉ magic ++ [' '] := by rcases hc with rfl | rfl <;> decide
  have hgen : c ∉ "gen".toList ++ [' '] := by rcases hc with rfl | rfl <;> decide
  have hspace : c ≠ ' ' := by rcases hc with rfl | rfl <;> decide
  intro line hline
  simp only [head, List.mem_cons, List.not_mem_nil, or_false] at hline
  rcases hline with rfl | rfl
  · rw [List.mem_append, not_or]
    exact ⟨hmagic, not_mem_decimal hdigit⟩
  · rw [List.mem_append, List.mem_append, List.mem_append, List.mem_singleton, not_or, not_or,
      not_or]
    exact ⟨⟨⟨hgen, not_mem_decimal hdigit⟩, hspace⟩, not_mem_decimal hdigit⟩

private theorem lines_render (generation : ℕ × ℕ) (messages : List MessageRef) :
    lines (render generation messages) = head generation ++ messages.map writeRecord := by
  have hmem (c : Char) (hc : c = '\n' ∨ c = '\r') :
      ∀ line ∈ head generation ++ messages.map writeRecord, c ∉ line := by
    intro line hline
    rcases List.mem_append.1 hline with hline | hline
    · exact not_mem_head hc line hline
    · obtain ⟨message, -, rfl⟩ := List.mem_map.1 hline
      rcases hc with rfl | rfl
      · exact not_mem_writeRecord not_inRecord_newline (by decide)
      · exact not_mem_writeRecord not_inRecord_return (by decide)
  rw [render_eq_flatMap, lines_flatMap (hmem '\n' (.inl rfl)) (hmem '\r' (.inr rfl))]

private theorem parseStamp_head (generation : ℕ × ℕ) :
    parseStamp ("gen".toList ++ [' '] ++ decimal generation.1 ++ [' '] ++ decimal generation.2) =
      some generation := by
  have hsplit : ("gen".toList ++ [' '] ++ decimal generation.1 ++ [' '] ++
      decimal generation.2).splitOn ' ' =
      ["gen".toList, decimal generation.1, decimal generation.2] := by
    rw [List.append_assoc, List.append_assoc, List.append_assoc, List.singleton_append,
      List.splitOn_append_cons_self_of_not_mem (by decide), List.singleton_append,
      List.splitOn_append_cons_self_of_not_mem (not_mem_decimal (by decide)),
      List.splitOn_eq_singleton (not_mem_decimal (by decide))]
  rw [parseStamp, hsplit]
  simp [parseDecimal_decimal]

/-- Loading reads back what was written, under the generation it was written for and no other. -/
theorem parse_render (stamp generation : ℕ × ℕ) (messages : List MessageRef) :
    parse (render stamp messages) generation =
      if stamp = generation ∧ messages.length = stamp.2 then some (messages.map clamp)
      else none := by
  have hheader : headerOk (magic ++ [' '] ++ decimal version.toNat) = true := by decide
  rw [parse, lines_render, head, List.cons_append, List.cons_append, List.nil_append]
  simp only [hheader, parseStamp_head, mapM_map_eq_some parseRecord_writeRecord, true_and,
    Option.some.injEq]
  by_cases hgen : stamp = generation
  · subst hgen
    by_cases hlen : messages.length = stamp.2 <;> simp [hlen]
  · rw [if_neg hgen, if_neg fun h ↦ hgen h.1]

end Index

end Epistle.Imap
