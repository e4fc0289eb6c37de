import Epistle.Imap.Session
import Epistle.Smtp.Line

/-!
# Literals that do not wait

A client that ends a command line with `{n+}` sends the `n` octets of the literal at once, without
waiting for the server's consent, and then the rest of the command. The server reads the octets as a
literal only if the command is an APPEND or a REPLACE that passes every check made before; otherwise
it answers, and takes the octets for its next command lines. The rest of the command, at least a
CRLF, it takes for a command line in any case, unless the connection ends.

Modelled are the parser of the two commands, the checks of their handlers (`Session.beginLiteral`)
and the part of the connection loop between two command lines. What other commands do is given by a
function of the line: those that would start TLS, compression or an IDLE take no line that ends with
a literal.
-/

namespace Epistle.Imap

open TextFormat Interleaving

namespace Literal

/-! ## The parser -/

/-- The largest literal of an APPEND. -/
def maxAppendSize : ℕ := 25 * 1024 * 1024

/-- A quoted string after its opening quote, and the text after it. -/
def quoted : Text → Option (Text × Text)
  | [] => none
  | '"' :: rest => some ([], rest)
  | '\\' :: [] => none
  | '\\' :: escaped :: rest => (quoted rest).map fun r ↦ (escaped :: r.1, r.2)
  | c :: rest => (quoted rest).map fun r ↦ (c :: r.1, r.2)

/-- An astring: a quoted string or a bare atom. -/
def parseAstring (input : Text) : Option (Text × Text) :=
  match trimStart input with
  | '"' :: rest => quoted rest
  | input =>
    let atom := input.takeWhile (· ≠ ' ')
    if atom.isEmpty then none else some (atom, input.dropWhile (· ≠ ' '))

def stripLast (c : Char) (t : Text) : Option Text :=
  if t.getLast? = some c then some t.dropLast else none

/-- The octet count of `{n}` or `{n+}`. -/
def literalSize : Text → Option ℕ
  | '\x7b' :: t => do
    let t ← stripLast '\x7d' t
    (parseDecimal ((stripLast '+' t).getD t)).filter fun size ↦ 0 < size && size ≤ maxAppendSize
  | _ => none

def parseFlagsAndLiteral (rest : Text) : Option (List Text × ℕ) :=
  match rest with
  | '(' :: after => do
    let (inside, after) ← splitOnce ')' after
    let size ← literalSize (trim after)
    pure ((inside.splitOnP isWhitespace).filter (!·.isEmpty), size)
  | rest => (literalSize rest).map fun size ↦ ([], size)

/-- The mailbox, the flags and the size that APPEND and REPLACE have in common. -/
def parseTarget (args : Text) : Option (Text × List Text × ℕ) := do
  let (mailbox, rest) ← parseAstring args
  if mailbox.isEmpty then none
  let (flags, size) ← parseFlagsAndLiteral (trim rest)
  pure (mailbox, flags, size)

def parseAppend (args : Text) : Option Session.Command :=
  (parseTarget args).map fun r ↦ .append r.1 r.2.1 r.2.2

def parseReplace (args : Text) (uid : Bool) : Option Session.Command := do
  let (sequence, rest) ← splitOnce ' ' (trim args)
  let sequence ← (parseU32 sequence).filter (0 < ·)
  (parseTarget (trim rest)).map fun r ↦ .replace sequence r.1 r.2.1 r.2.2 uid

inductive Line
  | literal (tag : Text) (command : Session.Command)
  /-- Malformed, or an APPEND or REPLACE with wrong arguments. -/
  | bad
  | other

def validTag (tag : Text) : Bool :=
  !tag.isEmpty && tag.length ≤ 32 &&
    tag.all fun c ↦ c.isAlphanum || ['.', '-', '_', '+'].contains c

def parse (line : Text) : Line :=
  if utf8Len line > 8192 || line.any fun c ↦ c.toNat < 0x20 || c.toNat == 0x7f then .bad
  else match splitOnce ' ' line with
    | none => .bad
    | some (tag, rest) =>
      let literal := fun command : Option Session.Command ↦ command.elim Line.bad (Line.literal tag)
      let (verb, args) := (splitOnce ' ' rest).getD (rest, [])
      if !validTag tag then .bad
      else if toAsciiUppercase verb = "APPEND".toList then literal (parseAppend args)
      else if toAsciiUppercase verb = "REPLACE".toList then literal (parseReplace args false)
      else if toAsciiUppercase verb = "UID".toList then
        match splitOnce ' ' args with
        | none => .bad
        | some (sub, args) =>
          if eqIgnoreAsciiCase sub "REPLACE".toList then literal (parseReplace args true)
          else .other
      else .other

/-! ## The size of a literal is the one announced -/

/-- The line ends with `{n+}`. -/
def Announces (n : ℕ) (line : Text) : Prop :=
  ∃ before digits, line = before ++ '\x7b' :: (digits ++ ['+', '\x7d']) ∧
    (∀ c ∈ digits, c.isDigit = true) ∧ parseDecimal digits = some n

variable {n : ℕ} {t line : Text} {octets rest : Bytes}

theorem not_mem_of_parseDecimal (h : parseDecimal t = some n) : '\x7b' ∉ t := by
  rw [parseDecimal] at h
  split at h
  · rename_i hdigits
    intro hmem
    have hstrip : '\x7b' ∈ stripPlus t := by
      unfold stripPlus
      split
      · exact (List.mem_cons.mp hmem).resolve_left (by decide)
      · exact hmem
    exact absurd (List.all_eq_true.mp hdigits.2 _ hstrip) (by decide)
  · cases h

theorem eq_append_of_stripLast {c : Char} {u : Text} (h : stripLast c t = some u) :
    t = u ++ [c] := by
  unfold stripLast at h
  split at h
  · rename_i hlast
    rw [← Option.some.inj h]
    exact (List.dropLast_append_getLast? c hlast).symm
  · cases h

theorem stripLast_append (c : Char) (t : Text) : stripLast c (t ++ [c]) = some t := by
  simp [stripLast]

theorem literalSize_of_suffix {size : ℕ} (hline : Announces n line) (ht : t <:+ line)
    (h : literalSize t = some size) : size = n ∧ n ≠ 0 := by
  obtain ⟨before, digits, rfl, hdigits, hn⟩ := hline
  obtain ⟨x, hx⟩ := ht
  unfold literalSize at h
  split at h
  · obtain ⟨v, hv, h⟩ := Option.bind_eq_some_iff.mp h
    obtain ⟨hsize, hpositive⟩ := Option.filter_eq_some_iff.mp h
    obtain rfl := eq_append_of_stripLast hv
    have hno : '\x7b' ∉ (stripLast '+' v).getD v := not_mem_of_parseDecimal hsize
    -- there is no other brace in the literal, so it begins with the last one of the line
    have hnov : '\x7b' ∉ v := by
      cases hplus : stripLast '+' v with
      | none => simpa [hplus] using hno
      | some w =>
        rw [hplus] at hno
        rw [eq_append_of_stripLast hplus]
        simpa using hno
    have hsplit := rsplitOnce_append (t := x) (show '\x7b' ∉ v ++ ['\x7d'] by simpa using hnov)
    have hsplit' := rsplitOnce_append (t := before) (show '\x7b' ∉ digits ++ ['+', '\x7d'] by
      simp only [List.mem_append, List.mem_cons, not_or]
      exact ⟨fun hmem ↦ absurd (hdigits _ hmem) (by decide), by decide, by decide, by simp⟩)
    rw [hx, hsplit'] at hsplit
    obtain ⟨-, heq⟩ := Prod.mk.inj (Option.some.inj hsplit)
    obtain rfl : digits ++ ['+'] = v := by
      have heq : (digits ++ ['+']) ++ ['\x7d'] = v ++ ['\x7d'] := by simpa using heq
      exact List.append_cancel_right heq
    rw [stripLast_append, Option.getD_some, hn] at hsize
    obtain rfl := Option.some.inj hsize
    exact ⟨rfl, Nat.ne_of_gt (by simpa using And.left (by simpa using hpositive))⟩
  · cases h

theorem quoted_suffix : ∀ {t value rest : Text}, quoted t = some (value, rest) → rest <:+ t := by
  intro t
  induction t using quoted.induct with
  | case1 => exact fun h ↦ (by cases h)
  | case2 rest =>
    intro value left h
    obtain ⟨rfl, rfl⟩ := Prod.mk.inj (Option.some.inj h)
    exact List.suffix_cons _ _
  | case3 => exact fun h ↦ (by cases h)
  | case4 escaped rest ih =>
    intro value left h
    obtain ⟨r, hr, heq⟩ := Option.map_eq_some_iff.mp h
    obtain ⟨rfl, rfl⟩ := Prod.mk.inj heq
    exact (ih hr).trans ((List.suffix_cons _ _).trans (List.suffix_cons _ _))
  | case5 c rest hquote hend hescape ih =>
    intro value left h
    rw [quoted.eq_5 c rest hquote hend hescape] at h
    obtain ⟨r, hr, heq⟩ := Option.map_eq_some_iff.mp h
    obtain ⟨rfl, rfl⟩ := Prod.mk.inj heq
    exact (ih hr).trans (List.suffix_cons _ _)

variable {value : Text} {command : Session.Command} {P : Prop} {output : Output}

theorem parseAstring_suffix {input rest : Text} (h : parseAstring input = some (value, rest)) :
    rest <:+ input := by
  have hstart : trimStart input <:+ input := List.dropWhile_suffix _
  unfold parseAstring at h
  split at h
  · rename_i heq
    rw [heq] at hstart
    exact (quoted_suffix h).trans ((List.suffix_cons _ _).trans hstart)
  · dsimp only at h
    split at h
    · cases h
    · obtain ⟨-, rfl⟩ := Prod.mk.inj (Option.some.inj h)
      exact (List.dropWhile_suffix _).trans hstart

theorem splitOnce_suffix {sep : Char} {name : Text} (h : splitOnce sep t = some (name, value)) :
    value <:+ t := by
  obtain ⟨rfl, -⟩ := splitOnce_eq_some.mp h
  exact ⟨name ++ [sep], by simp⟩

theorem trim_suffix (hline : Announces n line) (ht : t <:+ line) :
    trim t <:+ line := by
  refine List.IsSuffix.trans ?_ ht
  obtain ⟨before, digits, rfl, -, -⟩ := hline
  have hstart : trimStart t <:+ before ++ '\x7b' :: (digits ++ ['+', '\x7d']) :=
    (List.dropWhile_suffix _).trans ht
  rw [trim_eq]
  rcases List.eq_nil_or_concat (trimStart t) with hnil | ⟨u, c, hu⟩
  · rw [hnil]
    exact List.nil_suffix
  · obtain rfl : c = '\x7d' := by
      obtain ⟨x, hx⟩ := hstart
      have hx : (x ++ u) ++ [c] = (before ++ '\x7b' :: (digits ++ ['+'])) ++ ['\x7d'] := by
        simpa [hu] using hx
      exact (List.cons.inj (List.append_inj_right' hx rfl)).1
    have hend : trimEnd (u ++ ['\x7d']) = u ++ ['\x7d'] := trimEnd_append (by decide) u []
    have htrim : trimEnd (trimStart t) = trimStart t := by
      rw [hu, List.concat_eq_append, hend]
    rw [htrim]
    exact List.dropWhile_suffix _

theorem parseTarget_size {args mailbox : Text} {flags : List Text} {size : ℕ}
    (hline : Announces n line) (hargs : args <:+ line)
    (h : parseTarget args = some (mailbox, flags, size)) : size = n ∧ n ≠ 0 := by
  obtain ⟨⟨mailbox', rest⟩, hastring, h⟩ := Option.bind_eq_some_iff.mp h
  have hrest := trim_suffix hline ((parseAstring_suffix hastring).trans hargs)
  dsimp only at h
  split at h
  · cases h
  · obtain ⟨⟨flags', size'⟩, hflags, h⟩ := Option.bind_eq_some_iff.mp h
    obtain ⟨-, -, rfl⟩ : mailbox' = mailbox ∧ flags' = flags ∧ size' = size := by
      simpa using h
    unfold parseFlagsAndLiteral at hflags
    split at hflags
    · rename_i after heq
      obtain ⟨⟨inside, after'⟩, hsplit, hflags⟩ := Option.bind_eq_some_iff.mp hflags
      obtain ⟨size'', hsize, heq'⟩ := Option.bind_eq_some_iff.mp hflags
      obtain ⟨-, rfl⟩ := Prod.mk.inj (Option.some.inj heq')
      rw [heq] at hrest
      exact literalSize_of_suffix hline
        (trim_suffix hline ((splitOnce_suffix hsplit).trans
          ((List.suffix_cons _ _).trans hrest))) hsize
    · obtain ⟨size'', hsize, heq'⟩ := Option.map_eq_some_iff.mp hflags
      obtain ⟨-, rfl⟩ := Prod.mk.inj heq'
      exact literalSize_of_suffix hline hrest hsize

def size : Session.Command → Option ℕ
  | .append _ _ size | .replace _ _ _ size _ => some size
  | _ => none

theorem parse_size {tag : Text} (hline : Announces n line)
    (h : parse line = .literal tag command) : size command = some n ∧ n ≠ 0 := by
  have happend : ∀ {args}, args <:+ line → parseAppend args = some command →
      size command = some n ∧ n ≠ 0 := by
    intro args hargs h
    obtain ⟨r, hr, rfl⟩ := Option.map_eq_some_iff.mp h
    obtain ⟨hsize, hne⟩ := parseTarget_size hline hargs hr
    exact ⟨congrArg some hsize, hne⟩
  have hreplace : ∀ {args uid}, args <:+ line → parseReplace args uid = some command →
      size command = some n ∧ n ≠ 0 := by
    intro args uid hargs h
    obtain ⟨⟨token, rest⟩, hsplit, h⟩ := Option.bind_eq_some_iff.mp h
    obtain ⟨sequence, -, h⟩ := Option.bind_eq_some_iff.mp h
    obtain ⟨r, hr, rfl⟩ := Option.map_eq_some_iff.mp h
    obtain ⟨hsize, hne⟩ := parseTarget_size hline
      (trim_suffix hline ((splitOnce_suffix hsplit).trans (trim_suffix hline hargs))) hr
    exact ⟨congrArg some hsize, hne⟩
  have helim : ∀ {tag' : Text} {command' : Option Session.Command},
      command'.elim Line.bad (Line.literal tag') = .literal tag command →
        command' = some command := by
    intro tag' command' h
    cases command' with
    | none => cases h
    | some command' => rw [(Line.literal.inj h).2]
  unfold parse at h
  split at h
  · cases h
  · split at h
    · cases h
    · rename_i rest hsplit
      have hrest := splitOnce_suffix hsplit
      have hargs : ((splitOnce ' ' rest).getD (rest, [])).2 <:+ line := by
        cases hverb : splitOnce ' ' rest with
        | none => exact List.nil_suffix
        | some r => exact (splitOnce_suffix hverb).trans hrest
      generalize (splitOnce ' ' rest).getD (rest, []) = r at h hargs
      dsimp only at h
      split at h
      · cases h
      · split at h
        · exact happend hargs (helim h)
        · split at h
          · exact hreplace hargs (helim h)
          · split at h
            · split at h
              · cases h
              · rename_i hsub
                split at h
                · exact hreplace ((splitOnce_suffix hsub).trans hargs) (helim h)
                · cases h
            · cases h

/-! ## Between two command lines -/

/-- Consecutive BAD responses before the connection is dropped. -/
def maxErrorStreak : ℕ := 20

/-- What the loop does after the line of another command. -/
inductive Other
  | answer (bad : Bool)
  /-- Read lines of a SASL exchange. -/
  | auth
  | close

def isBad (output : Output) : Bool :=
  output.responses.any fun
    | .tagged _ .bad _ => true
    | _ => false

/-- The connection goes on, unless there were too many errors. -/
def goOn (streak : ℕ) (bad : Bool) (left : Bytes) : Option Bytes :=
  if bad && decide (maxErrorStreak ≤ streak + 1) then none else some left

/-- Go on with what the session says to a literal. The octets are given to `literalDone`, which only
answers. -/
def afterLiteral (streak : ℕ) (output : Output) (left : Bytes) : Option Bytes :=
  match output.collectLiteral with
  | some size => if size ≤ left.length then some (left.drop size) else none
  | none => goOn streak (isBad output) left

section Loop

variable (others : Text → Other) (sasl : Bytes → Option Bytes) (streak : ℕ) (env : Env)
  (s : Session) (a : Account)

/-- Where the next command line begins in a stream, if the server gets there. -/
def nextCommand (stream : Bytes) : Option Bytes :=
  match Smtp.nextLine stream with
  | .ok (some (line, left)) =>
    match decodeUtf8 line with
    | none => goOn streak true left
    | some line =>
      match parse line with
      | .bad => goOn streak true left
      | .other =>
        match others line with
        | .answer bad => goOn streak bad left
        | .auth => sasl left
        | .close => none
      | .literal tag command =>
        afterLiteral streak ((s.apply env tag command).run Account.exec a).1.1 left
  | _ => none

def Room (mailbox : Text) (size : ℕ) : Prop :=
  ((mailboxExists mailbox).run Account.exec a).1 = true ∧
    ((accountUsage s.crypto).run Account.exec a).1 + size ≤ s.quota

/-- There is a message to replace, in a mailbox that may be changed. -/
def replaceable (sequence : ℕ) (uid : Bool) (s : Session) : Bool :=
  match s.state with
  | .selected _ snapshot readOnly =>
    !readOnly && (Session.replaceSequence snapshot sequence uid).isSome
  | _ => false

def loggedIn (s : Session) : Bool :=
  match s.state with
  | .notAuthenticated => false
  | _ => true

/-- The checks that a command with a literal passes before its flags are looked at. -/
def Checked : Session.Command → Prop
  | .append mailbox _ size => loggedIn s = true ∧ Room s a mailbox size
  | .replace sequence mailbox _ size uid =>
    replaceable sequence uid s = true ∧ Room s a mailbox size
  | _ => False

/-- Whether all flags of a command with a literal are supported. -/
def supported : Session.Command → Bool
  | .append _ flags _ | .replace _ _ flags _ _ => (flags.mapM Flag.parse).isSome
  | _ => false

/-- The octets are not taken for a command line: the literal is taken or empty, or the connection
ends. -/
def Taken (octets rest : Bytes) (line : Text) : Prop :=
  match parse line with
  | .literal _ command =>
    Checked s a command ∧ (supported command = true ∨ maxErrorStreak ≤ streak + 1)
  | .bad => octets = [] ∨ maxErrorStreak ≤ streak + 1
  | .other =>
    match others line with
    | .answer bad => octets = [] ∨ bad = true ∧ maxErrorStreak ≤ streak + 1
    | .auth => ∀ left, sasl (octets ++ rest) = some left → left <:+ rest
    | .close => True

/-- Nothing of the command is taken for a command line: the connection ends, with one error too many
or because the command closes it, or a SASL exchange ends with the command. -/
def Over (octets tail rest : Bytes) (line : Text) : Prop :=
  match parse line with
  | .literal _ command =>
    Checked s a command ∧ supported command = false ∧ maxErrorStreak ≤ streak + 1
  | .bad => maxErrorStreak ≤ streak + 1
  | .other =>
    match others line with
    | .answer bad => bad = true ∧ maxErrorStreak ≤ streak + 1
    | .auth => ∀ left, sasl (octets ++ (tail ++ rest)) = some left → left = rest
    | .close => True

end Loop

section

variable {streak : ℕ} {bad : Bool}

/-- Where the next command line begins, if what the client sent is left as it is. -/
theorem goOn_iff {Q : Bytes → Prop} : (∀ start, goOn streak bad octets = some start → Q start) ↔
    Q octets ∨ bad = true ∧ maxErrorStreak ≤ streak + 1 := by
  unfold goOn
  by_cases hend : (bad && decide (maxErrorStreak ≤ streak + 1)) = true
  · rw [if_pos hend]
    have hboth : bad = true ∧ maxErrorStreak ≤ streak + 1 := by simpa using hend
    exact iff_of_true (fun _ h ↦ (by cases h)) (.inr hboth)
  · have hnot : ¬(bad = true ∧ maxErrorStreak ≤ streak + 1) := by simpa using hend
    simp [hnot]

theorem goOn_suffix_iff :
    (∀ start, goOn streak bad (octets ++ rest) = some start → start <:+ rest) ↔
      octets = [] ∨ bad = true ∧ maxErrorStreak ≤ streak + 1 := by
  rw [goOn_iff]
  refine or_congr_left ⟨fun h ↦ ?_, fun h ↦ h ▸ List.suffix_rfl⟩
  have hlen := h.length_le
  rw [List.length_append] at hlen
  exact List.length_eq_zero_iff.mp (by omega)

theorem goOn_eq_iff (hne : octets ≠ []) :
    (∀ start, goOn streak bad (octets ++ rest) = some start → start = rest) ↔
      bad = true ∧ maxErrorStreak ≤ streak + 1 := by
  rw [goOn_iff]
  exact or_iff_right fun h ↦ hne (List.append_left_eq_self.mp h)

end

/-- What the session says to the line of a command with a literal: it asks for the octets, finds a
flag that it does not support, or refuses. -/
def Reply (output : Output) (size : ℕ) (C : Prop) (flags : Bool) : Prop :=
  output.collectLiteral = some size ∧ C ∧ flags = true ∨
    output.collectLiteral = none ∧ (C ∧ isBad output = true ∧ flags = false ∨
      ¬C ∧ isBad output = false)

theorem reply_refused {size : ℕ} {flags : Bool} (hnone : output.collectLiteral = none) (hP : ¬P)
    (hbad : isBad output = false) : Reply output size P flags :=
  .inr ⟨hnone, .inr ⟨hP, hbad⟩⟩

theorem reply_beginLiteral {C : Prop} (hC : C) (tag mailbox : Text) (flags : List Text) (size : ℕ)
    (replace : Option (Text × ℕ)) (s : Session) (a : Account) :
    Reply ((s.beginLiteral tag mailbox flags size replace).run Account.exec a).1.1 size
      (C ∧ Room s a mailbox size) (flags.mapM Flag.parse).isSome := by
  have hsame : ((mailboxExists mailbox).run Account.exec a).2 = a := by
    unfold mailboxExists
    split
    · rfl
    · split <;> rfl
  rw [Session.beginLiteral, Prog.run_bind, hsame]
  by_cases hexists : ((mailboxExists mailbox).run Account.exec a).1 = true
  · rw [if_pos hexists, Prog.run_bind]
    by_cases hquota : ((accountUsage s.crypto).run Account.exec a).1 + size > s.quota
    · rw [if_pos hquota]
      exact reply_refused rfl (fun h ↦ absurd h.2.2 (Nat.not_le_of_lt hquota)) rfl
    · have hroom : Room s a mailbox size := ⟨hexists, Nat.le_of_not_lt hquota⟩
      rw [if_neg hquota]
      cases hflags : flags.mapM Flag.parse with
      | none => exact .inr ⟨rfl, .inl ⟨⟨hC, hroom⟩, rfl, rfl⟩⟩
      | some parsed => exact .inl ⟨rfl, ⟨hC, hroom⟩, rfl⟩
  · rw [if_neg hexists]
    exact reply_refused rfl (fun h ↦ hexists h.2.1) rfl

theorem reply_apply (env : Env) (s : Session) (a : Account) (tag : Text)
    (hsize : size command = some n) :
    Reply ((s.apply env tag command).run Account.exec a).1.1 n (Checked s a command)
      (supported command) := by
  cases command with
  | append mailbox flags size =>
    obtain rfl : size = n := Option.some.inj hsize
    have happly : s.apply env tag (.append mailbox flags size) =
        s.appendBegin tag mailbox flags size := by
      unfold Session.apply Session.refusal
      cases s.uidonly <;> rfl
    rw [happly]
    unfold Session.appendBegin Checked loggedIn
    cases hstate : s.state with
    | notAuthenticated => exact reply_refused rfl (fun h ↦ (by cases h.1)) rfl
    | authenticated => exact reply_beginLiteral rfl _ _ _ _ _ _ _
    | selected selected snapshot readOnly => exact reply_beginLiteral rfl _ _ _ _ _ _ _
  | replace sequence mailbox flags size uid =>
    obtain rfl : size = n := Option.some.inj hsize
    have happly : s.apply env tag (.replace sequence mailbox flags size uid) =
        s.replaceBegin tag sequence mailbox flags size uid := by
      unfold Session.apply Session.refusal
      cases s.uidonly <;> rfl
    rw [happly]
    unfold Session.replaceBegin Checked replaceable
    cases hstate : s.state with
    | notAuthenticated | authenticated => exact reply_refused rfl (fun h ↦ (by cases h.1)) rfl
    | selected selected snapshot readOnly =>
      cases readOnly with
      | true => exact reply_refused rfl (fun h ↦ (by cases h.1)) rfl
      | false =>
        dsimp only
        cases Session.replaceSequence snapshot sequence uid with
        | none => exact reply_refused rfl (fun h ↦ (by cases h.1)) rfl
        | some seq => exact reply_beginLiteral rfl _ _ _ _ _ _ _
  | _ => cases hsize

theorem afterLiteral_iff {flags : Bool} {tail : Bytes} (hne : octets ≠ []) (htail : tail ≠ [])
    (h : Reply output octets.length P flags) (streak : ℕ) :
    ((∀ start, afterLiteral streak output (octets ++ (tail ++ rest)) = some start →
        start <:+ tail ++ rest) ↔ P ∧ (flags = true ∨ maxErrorStreak ≤ streak + 1)) ∧
      ((∀ start, afterLiteral streak output (octets ++ (tail ++ rest)) = some start →
        start = rest) ↔
        P ∧ flags = false ∧ maxErrorStreak ≤ streak + 1) := by
  have hlonger : octets ++ tail ≠ [] := fun h ↦ hne (List.append_eq_nil_iff.mp h).1
  unfold afterLiteral
  rcases h with ⟨hsome, hP, hflags⟩ | ⟨hnone, ⟨hP, hbad, hflags⟩ | ⟨hP, hbad⟩⟩
  · rw [hsome]
    simp [hP, hflags, htail]
  · rw [hnone, hbad]
    dsimp only
    rw [goOn_suffix_iff, ← List.append_assoc, goOn_eq_iff hlonger]
    simp [hne, hP, hflags]
  · rw [hnone, hbad]
    dsimp only
    rw [goOn_suffix_iff, ← List.append_assoc, goOn_eq_iff hlonger]
    simp [hne, hP]

/-- **Where the next command begins.** After a line that ends with `{n+}`, the `n` octets and the
rest of the command, in every state of a session and its account and whatever other commands do: the
next line that is taken for a command begins behind the octets just if they are taken as a literal
(or are none, or the connection ends), and it begins behind the whole command just if the connection
ends or the command is a SASL exchange that ends there. -/
theorem octets_taken_iff (others : Text → Other) (sasl : Bytes → Option Bytes) (streak : ℕ)
    (env : Env) (s : Session) (a : Account) {stream octets tail rest : Bytes} {line : Text}
    (hline : Smtp.nextLine stream = .ok (some (encodeUtf8 line, octets ++ (tail ++ rest))))
    (hannounced : Announces octets.length line) (htail : tail ≠ []) :
    ((∀ start, nextCommand others sasl streak env s a stream = some start →
      start <:+ tail ++ rest) ↔
        Taken others sasl streak s a octets (tail ++ rest) line) ∧
      ((∀ start, nextCommand others sasl streak env s a stream = some start → start = rest) ↔
        Over others sasl streak s a octets tail rest line) := by
  have hlonger : octets ++ tail ≠ [] := fun h ↦ htail (List.append_eq_nil_iff.mp h).2
  unfold nextCommand Taken Over
  rw [hline]
  dsimp only
  rw [decodeUtf8_encodeUtf8]
  dsimp only
  cases hparse : parse line with
  | bad =>
    dsimp only
    rw [goOn_suffix_iff, ← List.append_assoc, goOn_eq_iff hlonger]
    simp
  | other =>
    cases others line with
    | answer bad =>
      dsimp only
      rw [goOn_suffix_iff, ← List.append_assoc, goOn_eq_iff hlonger]
      exact ⟨.rfl, .rfl⟩
    | auth => exact ⟨.rfl, .rfl⟩
    | close => simp
  | literal tag command =>
    obtain ⟨hsize, hne⟩ := parse_size hannounced hparse
    exact afterLiteral_iff (fun h ↦ hne (by rw [h]; rfl)) htail
      (reply_apply env s a tag hsize) streak

/-- Other commands are answered, and SASL exchanges end nothing. -/
def answering (_ : Text) : Other := .answer false

/-- An APPEND with a message that looks like a command. -/
def appending (target : String) : Text :=
  "a APPEND ".toList ++ target.toList ++ [' ', '\x7b', '1', '0', '+', '\x7d']

def message : Bytes := encodeUtf8 "b LOGOUT\r\n".toList

def noop : Bytes := encodeUtf8 "c NOOP\r\n".toList

/-- The APPEND with its message, its end and a NOOP after it. -/
def sent (target : String) : Bytes :=
  encodeUtf8 (appending target) ++ Smtp.crlf ++ (message ++ (Smtp.crlf ++ noop))

theorem announces_ten (before : Text) :
    Announces message.length (before ++ [' ', '\x7b', '1', '0', '+', '\x7d']) :=
  ⟨before ++ [' '], ['1', '0'], by simp, List.all_eq_true.1 (by decide +kernel), by decide +kernel⟩

/-- A flag that is not supported is the twentieth error in a row; with supported flags the message
is taken, but not the CRLF after it. -/
theorem octets_taken_appending :
    Over answering some 19 .loggedIn .empty message Smtp.crlf noop (appending "INBOX (\\Foo)") ∧
      Taken answering some 0 .loggedIn .empty message (Smtp.crlf ++ noop) (appending "INBOX") := by
  have hrefused : Smtp.nextLine (sent "INBOX (\\Foo)") =
      .ok (some (encodeUtf8 (appending "INBOX (\\Foo)"), message ++ (Smtp.crlf ++ noop))) := by
    decide +kernel
  have htaken : Smtp.nextLine (sent "INBOX") =
      .ok (some (encodeUtf8 (appending "INBOX"), message ++ (Smtp.crlf ++ noop))) := by
    decide +kernel
  have hend : nextCommand answering some 19 (envAt 0) .loggedIn .empty (sent "INBOX (\\Foo)") =
      none := by decide +kernel
  have hnext : nextCommand answering some 0 (envAt 0) .loggedIn .empty (sent "INBOX") =
      some (Smtp.crlf ++ noop) := by decide +kernel
  constructor
  · refine (octets_taken_iff answering some 19 (envAt 0) .loggedIn .empty hrefused (announces_ten _)
      (by decide)).2.mp fun start hstart ↦ ?_
    cases hend.symm.trans hstart
  · refine (octets_taken_iff answering some 0 (envAt 0) .loggedIn .empty htaken (announces_ten _)
      (by decide)).1.mp fun start hstart ↦ ?_
    exact Option.some.inj (hnext.symm.trans hstart) ▸ List.suffix_rfl

/-- Without the mailbox the message is the next command; with it the rest of the APPEND is, an empty
line that is malformed. -/
theorem message_executed :
    Announces message.length (appending "A") ∧
    nextCommand answering some 0 (envAt 0) .loggedIn .empty (sent "A") =
      some (message ++ (Smtp.crlf ++ noop)) ∧
    nextCommand answering some 0 (envAt 0) .loggedIn .empty (sent "INBOX") =
      some (Smtp.crlf ++ noop) ∧
    Smtp.nextLine (Smtp.crlf ++ noop) = .ok (some ([], noop)) ∧ parse [] = .bad :=
  ⟨announces_ten _, by decide +kernel, by decide +kernel, by decide +kernel, rfl⟩

end Literal

end Epistle.Imap
