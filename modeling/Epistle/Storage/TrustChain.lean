import Epistle.Arc.RoundTrip
import Epistle.Storage.Plan

/-!
# Forwarding a message with a chain

Mail that is forwarded gets a new instance on top of its chain. The sealer is to say of the chain
before it whether that was good, but `arcSeal` does not check it: it repeats what the newest seal
says.

A chain is good if all seals are good and the newest message signature is. If a message was altered
after its last seal, then only the message signature is broken, and it is no longer the newest one
once we have added ours. So the copy passes (`SealsPass`). There may be two more ways for a broken
chain to pass: its instances begin with 2, so that we take it for no chain at all and add the first
one (`Headless`), or the message begins with an empty line, so that its fields are hidden below
ours. `forward_not_pass` says that these are the only ones, and that the first is one.
-/

namespace Epistle.Arc

open TextFormat
open Smtp (Primitives)

/-! ## Reading a new instance back -/

/-- The fields of an instance as a sealer writes them. -/
structure Written (x : Instance) : Prop where
  number_le : x.number ≤ maxInstance
  noCrlf : ∀ kind, NoCrlf (x.value kind)
  starts : ∀ kind, ∃ rest, x.value kind = " i=".toList ++ decimal x.number ++ ';' :: rest

theorem fieldLine_line {x : Instance} (h : Written x) (kind : ArcKind) :
    FieldLine (x.line kind) := by
  have hname : '\r' ∉ kind.name ++ [':'] := by cases kind <;> decide
  have hline : x.line kind = kind.name ++ [':'] ++ x.value kind := by simp [Instance.line]
  refine ⟨?_, ?_, ?_⟩
  · rw [hline]
    exact .append hname (h.noCrlf kind)
  · cases kind <;> exact List.cons_ne_nil _ _
  · cases kind <;> rfl

theorem trimStart_starts (n : ℕ) (rest : Text) :
    trimStart (" i=".toList ++ decimal n ++ rest) = ("i".toList ++ '=' :: decimal n) ++ rest := by
  rw [List.append_assoc]
  rfl

theorem number_of_starts {n : ℕ} (hn : n ≤ maxInstance) (rest : Text) :
    (tag (trimStart (" i=".toList ++ decimal n ++ ';' :: rest)) "i".toList).bind parseU32 =
      some n := by
  have hsemicolon : ';' ∉ "i".toList ++ '=' :: decimal n := by
    simp [not_mem_decimal (n := n) (c := ';') (by decide)]
  rw [trimStart_starts, tag_append hsemicolon, readTag_append (by decide), if_pos (by decide),
    Option.some_or, Option.bind_some, trim_decimal, parseU32, parseDecimal_decimal,
    Option.filter_some, if_pos]
  exact decide_eq_true (hn.trans_lt (by decide))

theorem arcField_append (kind : ArcKind) (value : Text) :
    arcField (kind.name ++ ':' :: value) =
      some ⟨kind, (tag (trimStart value) "i".toList).bind parseU32, trimStart value⟩ := by
  have hcolon : ':' ∉ kind.name := by cases kind <;> decide
  have hkind : ArcKind.fromName (trimEnd kind.name) = some kind := by cases kind <;> decide
  rw [arcField, splitOnce_append hcolon, Option.bind_some]
  dsimp only
  rw [hkind, Option.map_some]

/-- An instance as it is read, once it stands over the lines of a message. -/
def Instance.readBack (x : Instance) (below : List Text) : Instance :=
  ⟨x.number, trimStart (x.authResults ++ leading below), trimStart x.messageSignature,
    trimStart x.arcSeal⟩

section

variable {x : Instance} (h : Written x)
include h

theorem Written.header_trimStart (kind : ArcKind) (name : Text) :
    Canon.relaxed.header name (trimStart (x.value kind)) =
      Canon.relaxed.header name (x.value kind) := by
  obtain ⟨rest, hrest⟩ := h.starts kind
  have hspace : x.value kind = ' ' :: trimStart (x.value kind) := by
    rw [hrest, trimStart_starts, List.append_assoc]
    rfl
  rw [← header_space, ← hspace]

theorem Written.fieldLines :
    ∀ line ∈ [.arcSeal, .messageSignature, .authResults].map x.line, FieldLine line := by
  intro line hline
  obtain ⟨kind, -, rfl⟩ := List.mem_map.1 hline
  exact fieldLine_line h kind

theorem messageFields_append (raw : Bytes) :
    messageFields (encodeUtf8 x.lines ++ raw) = (linesBelow raw).map fun below ↦
      x.line .arcSeal :: x.line .messageSignature :: (x.line .authResults ++ leading below) ::
        unfold none below := by
  rw [messageFields, Instance.lines, messageLines_append h.fieldLines (List.cons_ne_nil _ _),
    Option.map_map]
  congr 1
  funext below
  have hfirst : ∀ line ∈ [x.line .arcSeal, x.line .messageSignature], FieldLine line :=
    fun line hline ↦ h.fieldLines line (List.mem_append_left [x.line .authResults] hline)
  exact unfold_append hfirst (fieldLine_line h .authResults) below none

theorem arcFields_append (raw : Bytes) :
    arcFields (encodeUtf8 x.lines ++ raw) = (linesBelow raw).map fun below ↦
      ([.arcSeal, .messageSignature, .authResults].map fun kind ↦
        ⟨kind, some x.number, (x.readBack below).value kind⟩) ++
          (unfold none below).filterMap arcField := by
  have hread : ∀ kind more, arcField (x.line kind ++ more) =
      some ⟨kind, some x.number, trimStart (x.value kind ++ more)⟩ := by
    intro kind more
    obtain ⟨rest, hrest⟩ := h.starts kind
    rw [Instance.line, List.append_assoc, List.cons_append, arcField_append, hrest,
      List.append_assoc, List.cons_append, number_of_starts h.number_le]
  rw [arcFields, messageFields_append h, Option.map_map]
  congr 1
  funext below
  have hseal := hread .arcSeal []
  have hsignature := hread .messageSignature []
  rw [List.append_nil, List.append_nil] at hseal hsignature
  simp [hread, hseal, hsignature, Instance.readBack, Instance.value]

end

/-- The header fields of an instance over the lines of a message. -/
def Instance.headers (x : Instance) (below : List Text) : List (Text × Text) :=
  [(ArcKind.arcSeal.name, x.arcSeal), (ArcKind.messageSignature.name, x.messageSignature),
    (ArcKind.authResults.name, x.authResults ++ leading below)]

theorem splitMessage_append {x : Instance} (h : Written x) (raw : Bytes) :
    splitMessage (encodeUtf8 x.lines ++ raw) = (linesBelow raw).map fun below ↦
      (x.headers below ++ (unfold none below).filterMap headerField,
        messageBody (encodeUtf8 x.lines ++ raw)) := by
  have hline : ∀ (kind : ArcKind) (value : Text),
      headerField (kind.name ++ ':' :: value) = some (kind.name, value) := by
    intro kind value
    have hcolon : ':' ∉ kind.name := by cases kind <;> decide
    have htrim : trimEnd kind.name = kind.name := by cases kind <;> decide
    rw [headerField, splitOnce_append hcolon, Option.map_some]
    dsimp only
    rw [htrim]
  rw [splitMessage, messageFields_append h, Option.map_map]
  refine congrArg (Option.map · (linesBelow raw)) (funext fun below ↦ ?_)
  simp [Instance.line, Instance.value, Instance.headers, hline]

theorem Instance.headers_ne {names : List Text}
    (h : ∀ name ∈ names, ∀ kind : ArcKind, eqIgnoreAsciiCase kind.name name = false) (x : Instance)
    (below : List Text) :
    ∀ header ∈ x.headers below, ∀ name ∈ names, eqIgnoreAsciiCase header.1 name = false := by
  intro header hheader name hname
  simp only [Instance.headers, List.mem_cons, List.not_mem_nil, or_false] at hheader
  rcases hheader with rfl | rfl | rfl
  · exact h name hname .arcSeal
  · exact h name hname .messageSignature
  · exact h name hname .authResults

theorem signedHeaders_ne {name : Text} (h : name ∈ signedHeaders) (kind : ArcKind) :
    eqIgnoreAsciiCase kind.name name = false := by
  have hall : ∀ name ∈ signedHeaders, ∀ kind ∈ [ArcKind.arcSeal, .messageSignature, .authResults],
      eqIgnoreAsciiCase kind.name name = false := by decide +kernel
  exact hall name h kind (by cases kind <;> decide)

/-! ## What a sealer adds -/

/-- The first line is neither empty nor folded, as in a message that begins with a header field. -/
def BeginsWithField (raw : Bytes) : Prop :=
  ¬[0x0d, 0x0a] <+: raw ∧ ∀ lines ∈ messageLines raw, leading lines = []

def HasFrom (raw : Bytes) : Prop :=
  ∃ headers body, splitMessage raw = some (headers, body) ∧
    ∃ header ∈ headers, eqIgnoreAsciiCase header.1 "from".toList = true

theorem any_selectHeaders {headers : List (Text × Text)} {name : Text}
    (h : ∃ header ∈ headers, eqIgnoreAsciiCase header.1 name = true) (names : List Text) :
    ((selectHeaders headers (List.replicate headers.length false) (name :: names)).any fun header ↦
      header.1 = name) = true := by
  rw [selectHeaders]
  cases hfound : lowestUnused headers (List.replicate headers.length false) name with
  | none =>
    obtain ⟨header, hmem, heq⟩ := h
    obtain ⟨i, hi⟩ := List.getElem?_of_mem hmem
    obtain ⟨hlt, rfl⟩ := List.getElem?_eq_some_iff.1 hi
    have hnot := List.find?_eq_none.1 hfound i (List.mem_reverse.2 (List.mem_range.2 hlt))
    simp [heq, hlt] at hnot
  | some i => simp

theorem exists_of_mem_selectHeaders {headers : List (Text × Text)} {name : Text} :
    ∀ {used : List Bool} {names : List Text},
      name ∈ (selectHeaders headers used names).map Prod.fst →
        ∃ header ∈ headers, eqIgnoreAsciiCase header.1 name = true := by
  intro used names h
  induction names generalizing used with
  | nil => cases h
  | cons first names ih =>
    rw [selectHeaders] at h
    cases hfound : lowestUnused headers used first with
    | none =>
      rw [hfound] at h
      exact ih h
    | some i =>
      rw [hfound, List.map_cons, List.mem_cons] at h
      rcases h with rfl | h
      · have hi := List.find?_some hfound
        rw [Bool.and_eq_true, Option.any_eq_true] at hi
        obtain ⟨-, header, hheader, heq⟩ := hi
        exact ⟨header, List.mem_of_getElem? hheader, heq⟩
      · exact ih h

section Added

variable {p : Primitives} {keys : Keys} {sealer : ArcSealer} {raw : Bytes} {authResults : Text}
  {prior : List Instance} {cv : ChainValidation} {x : Instance}

theorem values_eq_some (h : sealer.values p raw authResults prior cv = some x) :
    nextInstance prior = some x.number ∧ Ams.build p sealer x.number raw = some x.messageSignature ∧
      x.authResults = " i=".toList ++ decimal x.number ++ "; ".toList ++ sealer.domain ++
        "; ".toList ++ authResults ∧
      x.arcSeal = AsSeal.build p sealer x.number cv prior x.authResults x.messageSignature := by
  simp only [ArcSealer.values, Option.bind_eq_bind, Option.bind_eq_some_iff, Option.pure_def,
    Option.some.injEq] at h
  obtain ⟨number, hnumber, ams, hams, rfl⟩ := h
  exact ⟨hnumber, hams, rfl, rfl⟩

theorem nextInstance_eq_some {number : ℕ} (h : nextInstance prior = some number) :
    number = (prior.map Instance.number).max?.getD 0 + 1 ∧ number ≤ maxInstance := by
  rw [nextInstance] at h
  split at h
  next hle =>
    obtain rfl := Option.some.inj h
    exact ⟨rfl, hle⟩
  next => cases h

theorem noCrlf_headerOf {data : Bytes} {field : String} {value : Text}
    (h : headerOf p data field = some value) : NoCrlf value := by
  obtain ⟨line, hline, hvalue⟩ := List.exists_of_findSome?_eq_some h
  obtain ⟨piece, hpiece, rfl⟩ := List.mem_map.1 hline
  obtain ⟨⟨name, rest⟩, hsplit, hrest⟩ := Option.bind_eq_some_iff.1 hvalue
  dsimp only at hrest
  split at hrest
  · obtain rfl := Option.some.inj hrest
    obtain ⟨heq, -⟩ := splitOnce_eq_some.1 hsplit
    have hsuffix : rest <:+: stripCrlf piece := by
      rw [heq]
      exact ((List.suffix_cons ':' rest).trans (List.suffix_append name _)).isInfix
    exact (noCrlf_of_mem_splitCrlf hpiece).of_isInfix ((trim_isInfix rest).trans hsuffix)
  · cases hrest

theorem exists_values (hfrom : HasFrom raw) {number : ℕ} (hnext : nextInstance prior = some number)
    (cv : ChainValidation) : ∃ x, sealer.values p raw authResults prior cv = some x := by
  obtain ⟨headers, body, hsplit, hheader⟩ := hfrom
  have hselected : ((selectHeaders headers (List.replicate headers.length false) signedHeaders).any
      fun header ↦ header.1 = "from".toList) = true := any_selectHeaders hheader signedHeaders.tail
  have hbuild : (Ams.build p sealer number raw).isSome = true := by
    rw [Ams.build, hsplit, Option.bind_eq_bind, Option.bind_some]
    dsimp only
    rw [guard, if_pos hselected]
    rfl
  obtain ⟨value, hvalue⟩ := Option.isSome_iff_exists.1 hbuild
  exact ⟨_, by rw [ArcSealer.values, hnext, Option.bind_eq_bind, Option.bind_some, hvalue]; rfl⟩

theorem hasFrom_of_values (h : sealer.values p raw authResults prior cv = some x) :
    HasFrom raw := by
  obtain ⟨-, hams, -, -⟩ := values_eq_some h
  obtain ⟨headers, selected, hsplit, rfl, hfrom, -⟩ := build_eq_some hams
  exact ⟨headers, _, hsplit, exists_of_mem_selectHeaders hfrom⟩

theorem number_ne_zero (h : sealer.values p raw authResults prior cv = some x) : x.number ≠ 0 :=
  (nextInstance_eq_some (values_eq_some h).1).1 ▸ Nat.succ_ne_zero _

section

variable (laws : SealerLaws p keys sealer)
include laws

section

variable (hauth : NoCrlf authResults) (h : sealer.values p raw authResults prior cv = some x)
include hauth h

theorem written_of_values : Written x := by
  obtain ⟨hnumber, hams, haar, hseal⟩ := values_eq_some h
  obtain ⟨headers, selected, -, rfl, -, hvalue⟩ := build_eq_some hams
  have hbase : ∀ bytes, '\r' ∉ p.base64Encode bytes :=
    fun bytes ↦ (laws.encode_plain bytes).cr_not_mem
  have hdecimal := (plain_decimal x.number).cr_not_mem
  have hdomain := sealer.domain_plain.cr_not_mem
  have hselector := sealer.selector_plain.cr_not_mem
  have hnames := (plain_names fun name hname ↦ mem_selectHeaders hname :
    Plain ([':'].intercalate ((selectHeaders headers (List.replicate headers.length false)
      signedHeaders).map Prod.fst))).cr_not_mem
  have hcv : '\r' ∉ cv.asStr := by cases cv <;> decide
  rw [← write_amsTags] at hvalue
  rw [build_eq, ← write_sealTags] at hseal
  refine ⟨(nextInstance_eq_some hnumber).2, fun kind ↦ ?_, fun kind ↦ ?_⟩
  · cases kind with
    | authResults =>
      rw [Instance.value, haar]
      refine .append ?_ hauth
      simp [hdecimal, hdomain]
    | messageSignature =>
      rw [Instance.value, hvalue]
      refine .of_not_mem ?_
      simp [hbase, hdecimal, hdomain, hselector, hnames]
    | arcSeal =>
      rw [Instance.value, hseal]
      refine .of_not_mem ?_
      simp [hbase, hdecimal, hdomain, hselector, hcv]
  · cases kind <;>
    · simp only [Instance.value, haar, hvalue, hseal, List.append_assoc]
      exact ⟨_, rfl⟩

/-- **The message signature of a new instance is good if the key is published.** -/
theorem amsPasses_readBack (hpublished : Published p keys sealer) (hraw : ¬[0x0d, 0x0a] <+: raw)
    {below : List Text} (hbelow : messageLines raw = some below) :
    amsPasses p keys (x.readBack below) (encodeUtf8 x.lines ++ raw) = true := by
  have hwritten := written_of_values laws hauth h
  obtain ⟨-, hams, -, -⟩ := values_eq_some h
  obtain ⟨headers, selected, hsplit, hselected, hfrom, hvalue⟩ := build_eq_some hams
  have hnames : selected.map Prod.fst ⊆ signedHeaders := fun name hname ↦
    mem_selectHeaders (hselected ▸ hname)
  rw [splitMessage, messageFields, hbelow] at hsplit
  obtain ⟨rfl, -⟩ := Prod.mk.inj (Option.some.inj hsplit)
  have hcopy := splitMessage_append hwritten raw
  rw [linesBelow, if_neg hraw, hbelow, Option.map_some, Instance.lines,
    messageBody_lines hwritten.fieldLines (List.cons_ne_nil _ _) hraw] at hcopy
  have hfit := fit_amsTags (plain_decimal x.number) sealer.domain_plain sealer.selector_plain
    (plain_names hnames) (laws.encode_plain (p.sha256 (Canon.relaxed.body (messageBody raw))))
    (laws.encode_plain (sealer.sign (encodeUtf8 (amsInput p sealer x.number raw selected))))
  have hread : (x.readBack below).messageSignature = (amsTags (decimal x.number) sealer.domain
      sealer.selector ([':'].intercalate (selected.map Prod.fst))
      (p.base64Encode (p.sha256 (Canon.relaxed.body (messageBody raw))))
      (p.base64Encode (sealer.sign (encodeUtf8
        (amsInput p sealer x.number raw selected))))).write := by
    rw [Instance.readBack, hvalue, trimStart_write (by simp [amsTags]) hfit]
  refine amsPasses_write laws hpublished (number_ne_zero h) hwritten.number_le hnames hfrom hread
    hcopy ?_
  rw [List.length_append, List.replicate_add,
    selectHeaders_append (x.headers_ne (fun _ hname ↦ signedHeaders_ne (hnames hname)) below),
    ← hselected, selectHeaders_names]

end

theorem arcSeal_readBack (h : sealer.values p raw authResults prior cv = some x)
    (below : List Text) :
      (x.readBack below).arcSeal =
      (sealTags (decimal x.number) sealer.domain sealer.selector cv.asStr
      (p.base64Encode (sealer.sign (encodeUtf8
        (sealInput sealer x.number cv prior x.authResults x.messageSignature))))).write := by
  obtain ⟨-, -, -, hseal⟩ := values_eq_some h
  have hfit := fit_sealTags (plain_decimal x.number) sealer.domain_plain sealer.selector_plain cv
    (laws.encode_plain (sealer.sign (encodeUtf8
      (sealInput sealer x.number cv prior x.authResults x.messageSignature))))
  rw [Instance.readBack, hseal, build_eq, trimStart_write (by simp [sealTags]) hfit]

/-- **The seal of a new instance is good if the key is published**, unless lines of the message go
on with the field before it. -/
theorem sealPasses_readBack (hpublished : Published p keys sealer) (hauth : NoCrlf authResults)
    (h : sealer.values p raw authResults prior cv = some x) {below : List Text}
    (hleading : leading below = []) {chain : List Instance}
    (hprior : ∀ y ∈ prior, y.number ≠ x.number)
    (hchain : (AsSeal.sorted chain).filter (fun y ↦ y.number ≤ x.number) =
      AsSeal.sorted prior ++ [x.readBack below]) :
    sealPasses p keys (x.readBack below) chain = true := by
  have hwritten := written_of_values laws hauth h
  refine sealPasses_write laws hpublished (number_ne_zero h) hwritten.number_le (by rfl)
    (arcSeal_readBack laws h below) hprior hchain ?_
  rw [AsSeal.appendInstance, AsSeal.appendInstance, Instance.readBack, hleading, List.append_nil]
  dsimp only
  exact congrArg₂ (· ++ ·) (hwritten.header_trimStart .authResults _)
    (hwritten.header_trimStart .messageSignature _)

theorem parseSeal_readBack (h : sealer.values p raw authResults prior cv = some x)
    (below : List Text) :
    (parseSeal p (x.readBack below).arcSeal).map Seal.chainValidation = some cv := by
  have hle := (nextInstance_eq_some (values_eq_some h).1).2
  rw [arcSeal_readBack laws h, parseSeal_write laws (number_ne_zero h) hle, Option.map_some]

end

end Added

/-! ## Chains that grow -/

namespace IsChain

variable {fields fields' : List ArcField} {chain : List Instance} {own : Instance}

section

variable (h : IsChain fields chain)
include h

theorem concat (hlt : chain.length < maxInstance) (hown : own.number = chain.length + 1)
    (hperm : fields'.Perm (own.fields ++ fields)) : IsChain fields' (chain ++ [own]) where
  one_le := by simp
  le_max := by simpa using hlt
  numbers := by
    rw [List.map_append, List.map_singleton, h.numbers, List.length_append, List.length_singleton,
      List.range'_1_concat, hown, Nat.add_comm]
  perm := by
    rw [List.flatMap_append, List.flatMap_singleton]
    exact hperm.trans ((h.perm.append_left own.fields).trans List.perm_append_comm)

theorem sorted_eq : AsSeal.sorted chain = chain := by
  refine List.Pairwise.insertionSort_eq ?_
  have hnumbers : (chain.map Instance.number).Pairwise (· ≤ ·) := by
    rw [h.numbers]
    exact List.pairwise_le_range'
  exact List.pairwise_map.1 hnumbers

theorem number_le {x : Instance} (hx : x ∈ chain) : x.number ≤ chain.length := by
  have hmem : x.number ∈ List.range' 1 chain.length := h.numbers ▸ List.mem_map_of_mem hx
  have := List.mem_range'_1.1 hmem
  omega

end

theorem cons_iff (hown : own.number = 1) (hperm : fields'.Perm (own.fields ++ fields)) :
    IsChain fields' chain ↔ ∃ rest, chain = own :: rest ∧ rest.length < maxInstance ∧
      rest.map Instance.number = List.range' 2 rest.length ∧
      fields.Perm (rest.flatMap Instance.fields) := by
  constructor
  · intro h
    obtain ⟨first, rest, rfl⟩ := List.exists_cons_of_ne_nil (List.length_pos_iff.1 h.one_le)
    -- the fields of the instance are those of the first one in the chain
    have hvalue : ∀ kind, own.value kind = first.value kind := by
      intro kind
      have hmem : (⟨kind, some own.number, own.value kind⟩ : ArcField) ∈ own.fields := by
        cases kind <;> simp [Instance.fields]
      obtain ⟨i, x, hx, heq⟩ := (mem_flatMap_fields h.numbers).1
        (h.perm.mem_iff.1 (hperm.mem_iff.2 (List.mem_append_left fields hmem)))
      obtain rfl : i = 0 := by
        have hi := congrArg ArcField.number heq
        rw [hown] at hi
        exact (Nat.succ.inj (Option.some.inj hi)).symm
      obtain rfl : first = x := Option.some.inj hx
      exact congrArg ArcField.value heq
    have hnumbers := h.numbers
    rw [List.map_cons, List.length_cons, List.range'_succ, List.cons.injEq] at hnumbers
    obtain rfl : own = first := by
      obtain ⟨number, authResults, messageSignature, arcSeal⟩ := own
      obtain ⟨number', authResults', messageSignature', arcSeal'⟩ := first
      obtain rfl : authResults = authResults' := hvalue .authResults
      obtain rfl : messageSignature = messageSignature' := hvalue .messageSignature
      obtain rfl : arcSeal = arcSeal' := hvalue .arcSeal
      obtain rfl : number = number' := hown.trans hnumbers.1.symm
      rfl
    refine ⟨rest, rfl, h.le_max, hnumbers.2, ?_⟩
    rw [← List.perm_append_left_iff own.fields]
    exact hperm.symm.trans h.perm
  · rintro ⟨rest, rfl, hlt, hnumbers, hrest⟩
    refine ⟨Nat.succ_le_succ (Nat.zero_le _), hlt, ?_, hperm.trans (hrest.append_left own.fields)⟩
    rw [List.map_cons, hnumbers, hown, List.length_cons, List.range'_succ]

end IsChain

theorem number_eq_of_mem_arcFields {raw : Bytes} {fields : List ArcField}
    (h : arcFields raw = some fields) {field : ArcField} (hfield : field ∈ fields) :
    field.number = (tag field.value "i".toList).bind parseU32 := by
  obtain ⟨lines, -, rfl⟩ := Option.map_eq_some_iff.1 h
  obtain ⟨line, -, hline⟩ := List.mem_filterMap.1 hfield
  obtain ⟨⟨name, rest⟩, -, hkind⟩ := Option.bind_eq_some_iff.1 hline
  obtain ⟨kind, -, rfl⟩ := Option.map_eq_some_iff.1 hkind
  rfl

section

variable {raw : Bytes} {fields : List ArcField} {chain : List Instance}
  (hfields : arcFields raw = some fields) (h : IsChain fields chain)
include hfields h

theorem number_of_parseSeal {p : Primitives} {x : Instance} (hx : x ∈ chain) {parsed : Seal}
    (hparsed : parseSeal p x.arcSeal = some parsed) : parsed.number = x.number := by
  have hmem : (⟨.arcSeal, some x.number, x.arcSeal⟩ : ArcField) ∈ fields := by
    refine h.perm.mem_iff.2 (List.mem_flatMap.2 ⟨x, hx, ?_⟩)
    simp [Instance.fields, Instance.value]
  have hnumber : some x.number = (tag x.arcSeal "i".toList).bind parseU32 :=
    number_eq_of_mem_arcFields hfields hmem
  obtain ⟨-, text, htext, hinstance⟩ := of_parseSeal hparsed
  rw [htext, Option.bind_some] at hnumber
  have hdecimal : parseDecimal text = some x.number := (Option.filter_eq_some_iff.1 hnumber.symm).1
  rw [filter_of_parseDecimal hdecimal, parseInstance, ← hnumber] at hinstance
  exact (Option.some.inj (Option.filter_eq_some_iff.1 hinstance).1).symm

/-- Seals do not cover later instances. -/
theorem sealPasses_concat {p : Primitives} {keys : Keys} {fields' : List ArcField} {own : Instance}
    (hown : own.number = chain.length + 1) (h' : IsChain fields' (chain ++ [own])) {x : Instance}
    (hx : x ∈ chain) : sealPasses p keys x (chain ++ [own]) = sealPasses p keys x chain := by
  rw [sealPasses, sealPasses]
  cases hparsed : parseSeal p x.arcSeal with
  | none => rfl
  | some parsed =>
    have hle := h.number_le hx
    have hlt : ¬own.number ≤ parsed.number := by
      rw [number_of_parseSeal hfields h hx hparsed]
      omega
    rw [Option.any_some, Option.any_some, AsSeal.verify, AsSeal.verify, AsSeal.covered,
      AsSeal.covered, h.sorted_eq, h'.sorted_eq, List.filter_append,
      List.filter_cons_of_neg (by simpa using hlt), List.filter_nil, List.append_nil]

end

variable {ams : MessageSignature}

theorem verify_append {p : Primitives} {keys : Keys} {x : Instance} (h : Written x) {raw : Bytes}
    (hraw : ¬[0x0d, 0x0a] <+: raw)
    (hams : ∀ name ∈ ams.signedHeaders, ∀ kind : ArcKind, eqIgnoreAsciiCase kind.name name = false)
    (value : Text) :
    Ams.verify p keys ams value (encodeUtf8 x.lines ++ raw) = Ams.verify p keys ams value raw := by
  have hbody := messageBody_lines h.fieldLines (List.cons_ne_nil _ _) hraw
  have hcopy := splitMessage_append h raw
  rw [linesBelow, if_neg hraw] at hcopy
  unfold Ams.verify
  rw [hcopy, splitMessage, messageFields, Instance.lines, hbody]
  cases messageLines raw with
  | none => simp only [Option.map_none]
  | some below =>
    simp only [Option.map_some]
    rw [List.length_append, List.replicate_add, selectHeaders_append (x.headers_ne hams below)]

theorem signedHeaders_ne_of_parse {p : Primitives} {value : Text}
    (h : parseMessageSignature p value = some ams) :
    ∀ name ∈ ams.signedHeaders, ∀ kind : ArcKind, eqIgnoreAsciiCase kind.name name = false := by
  simp only [parseMessageSignature, Option.bind_eq_bind, Option.bind_eq_some_iff, Option.pure_def,
    Option.some.injEq, Option.guard_eq_some'] at h
  obtain ⟨tags, -, -, -, -, -, names, -, -, -, -, harc, -, -, -, -, -, -, -, -, -, -, -, -, rfl⟩ :=
    h
  intro name hname kind
  obtain ⟨text, -, rfl⟩ := List.mem_map.1 hname
  have hprefix : "arc-".toList <+: toAsciiLowercase kind.name := by cases kind <;> decide
  rw [Bool.not_eq_true', List.any_eq_false] at harc
  rw [eqIgnoreAsciiCase, toAsciiLowercase_toAsciiLowercase, beq_eq_false_iff_ne]
  intro heq
  exact harc _ hname (List.isPrefixOf_iff_prefix.2 (heq ▸ hprefix))

/-- Message signatures do not cover the fields of an instance. -/
theorem amsPasses_append {p : Primitives} {keys : Keys} {x : Instance} (h : Written x) {raw : Bytes}
    (hraw : ¬[0x0d, 0x0a] <+: raw) (y : Instance) :
    amsPasses p keys y (encodeUtf8 x.lines ++ raw) = amsPasses p keys y raw := by
  rw [amsPasses, amsPasses]
  cases hparsed : parseMessageSignature p y.messageSignature with
  | none => rw [Option.any_none, Option.any_none]
  | some ams =>
    rw [Option.any_some, Option.any_some, verify_append h hraw (signedHeaders_ne_of_parse hparsed)]

/-! ## Broken chains that pass -/

theorem IsChain.highest {fields : List ArcField} {chain : List Instance}
    (h : IsChain fields chain) :
    (chain.map Instance.number).max?.getD 0 = chain.length := by
  have hle : chain.length ≤ (chain.map Instance.number).max?.getD 0 := by
    refine List.le_max?_getD_of_mem ?_
    rw [h.numbers, List.mem_range'_1]
    have := h.one_le
    omega
  have hge : (chain.map Instance.number).max?.getD 0 ≤ chain.length := by
    cases hmax : (chain.map Instance.number).max? with
    | none => exact Nat.zero_le _
    | some n =>
      obtain ⟨x, hx, rfl⟩ := List.mem_map.1 (List.max?_mem hmax)
      exact h.number_le hx
  omega

theorem cvValuesConsistent_append {p : Primitives} (chain chain' : List Instance) :
    cvValuesConsistent p (chain ++ chain') =
      (cvValuesConsistent p chain && cvValuesConsistent p chain') :=
  List.all_append

section Launder

variable (p : Primitives) (keys : Keys) (sealer : ArcSealer) (raw : Bytes)

/-- The seals of a message are good, and the newest one says that the chain before it was. What is
broken can only be the signature of the message. -/
def SealsPass : Prop :=
  ∃ chain, extract raw = some (.ok (some chain)) ∧ cvValuesConsistent p chain = true ∧
    chainStatus chain = some .pass ∧ ∀ x ∈ chain, sealPasses p keys x chain = true

/-- The fields of a message are instances from 2 on, the newest of which is good for the message. -/
def Headless : Prop :=
  ∃ fields rest newest, arcFields raw = some fields ∧ rest.length < maxInstance ∧
    rest.map Instance.number = List.range' 2 rest.length ∧
    fields.Perm (rest.flatMap Instance.fields) ∧ rest.getLast? = some newest ∧
    cvValuesConsistent p rest = true ∧ amsPasses p keys newest raw = true

/-- We add an instance to a message: it has a sender, and its chain is not full and not ours. -/
def Sealable : Prop :=
  HasFrom raw ∧ ∀ extracted ∈ extract raw, (priorOf extracted).length < maxInstance ∧
    sealedBy sealer.domain (priorOf extracted) = false

variable {p keys sealer raw}

theorem nextInstance_priorOf {extracted : Except ChainError (Option (List Instance))}
    (h : extract raw = some extracted) :
    nextInstance (priorOf extracted) =
      if (priorOf extracted).length < maxInstance then some ((priorOf extracted).length + 1)
      else none := by
  rw [nextInstance]
  rcases extracted with error | _ | chain
  · rfl
  · rfl
  · obtain ⟨fields, -, hchain⟩ := extract_eq_ok_iff.1 h
    rw [priorOf, hchain.highest]
    rfl

theorem arcInstance_eq_some {x : Instance} (h : arcInstance p sealer raw = some (some x)) :
    ∃ extracted authResults, extract raw = some extracted ∧ NoCrlf authResults ∧
      sealedBy sealer.domain (priorOf extracted) = false ∧
      sealer.values p raw authResults (priorOf extracted) (recordedStatus (priorOf extracted)) =
        some x := by
  obtain ⟨extracted, hextract, hvalues⟩ := Option.map_eq_some_iff.1 h
  refine ⟨extracted, (headerOf p raw "authentication-results").getD "none".toList, hextract, ?_, ?_⟩
  · cases hheader : headerOf p raw "authentication-results" with
    | none => exact .of_not_mem (by decide)
    | some value => exact noCrlf_headerOf hheader
  · dsimp only at hvalues
    split at hvalues
    · cases hvalues
    · next hours => exact ⟨Bool.eq_false_iff.2 hours, hvalues⟩

theorem sealable_of_arcInstance {x : Instance} (h : arcInstance p sealer raw = some (some x)) :
    Sealable sealer raw := by
  obtain ⟨extracted, authResults, hextract, -, hours, hvalues⟩ := arcInstance_eq_some h
  refine ⟨hasFrom_of_values hvalues, fun found hfound ↦ ?_⟩
  obtain rfl : extracted = found := Option.some.inj (hextract.symm.trans hfound)
  have hnext := (values_eq_some hvalues).1
  rw [nextInstance_priorOf hextract] at hnext
  split at hnext
  · next hroom => exact ⟨hroom, hours⟩
  · cases hnext

theorem exists_arcInstance (h : Sealable sealer raw)
    {extracted : Except ChainError (Option (List Instance))} (hextract : extract raw =
      some extracted) :
    ∃ x, arcInstance p sealer raw = some (some x) := by
  obtain ⟨hfrom, hall⟩ := h
  obtain ⟨hroom, hours⟩ := hall extracted hextract
  have hnext := nextInstance_priorOf hextract
  rw [if_pos hroom] at hnext
  obtain ⟨x, hx⟩ := exists_values hfrom hnext (recordedStatus (priorOf extracted))
  refine ⟨x, ?_⟩
  rw [arcInstance, hextract, Option.map_some]
  dsimp only
  rw [hours, if_neg Bool.false_ne_true]
  exact congrArg some hx

theorem messageLines_of_values {authResults : Text} {prior : List Instance} {cv : ChainValidation}
    {x : Instance} (h : sealer.values p raw authResults prior cv = some x) :
    ∃ lines, messageLines raw = some lines := by
  obtain ⟨-, hams, -, -⟩ := values_eq_some h
  obtain ⟨headers, -, hsplit, -⟩ := build_eq_some hams
  obtain ⟨lines, hlines, -⟩ := Option.map_eq_some_iff.1 hsplit
  obtain ⟨lines, hlines, -⟩ := Option.map_eq_some_iff.1 hlines
  exact ⟨lines, hlines⟩

theorem arcFields_under {x : Instance} (h : Written x) {below : List Text}
    (hbelow : linesBelow raw = some below) {fields : List ArcField}
    (hfields : (unfold none below).filterMap arcField = fields) :
    ∃ fields', arcFields (encodeUtf8 x.lines ++ raw) = some fields' ∧
      fields'.Perm ((x.readBack below).fields ++ fields) := by
  refine ⟨_, by rw [arcFields_append h, hbelow, Option.map_some], ?_⟩
  rw [hfields]
  exact (List.reverse_perm (x.readBack below).fields).append_right fields

/-- What our seal says of a chain is right if it is what the newest seal says. -/
theorem cvValuesConsistent_readBack (laws : SealerLaws p keys sealer) {x : Instance}
    {authResults : Text} {prior : List Instance} {cv : ChainValidation}
    (h : sealer.values p raw authResults prior cv = some x) (below : List Text) :
    cvValuesConsistent p [x.readBack below] = true ↔ cv = if x.number = 1 then .none
      else .pass := by
  have hparsed := parseSeal_readBack laws h below
  obtain ⟨parsed, hsome, rfl⟩ := Option.map_eq_some_iff.1 hparsed
  rw [cvValuesConsistent, List.all_cons, List.all_nil, Bool.and_true, hsome, Option.any_some,
    decide_eq_true_eq]
  rfl

theorem recordedStatus_eq_pass_iff {prior : List Instance} :
    recordedStatus prior = .pass ↔ chainStatus prior = some .pass := by
  rw [recordedStatus]
  cases prior with
  | nil => exact iff_of_false (by decide) (by decide)
  | cons first rest =>
    rw [if_neg (by simp)]
    cases hstatus : chainStatus (first :: rest) with
    | none | some status => simp

theorem linesBelow_of_values {authResults : Text} {prior : List Instance} {cv : ChainValidation}
    {x : Instance} (h : sealer.values p raw authResults prior cv = some x) :
    ∃ below, linesBelow raw = some below := by
  rw [linesBelow]
  split
  · exact ⟨[], rfl⟩
  · exact messageLines_of_values h

section

variable {authResults : Text} (laws : SealerLaws p keys sealer) (hauth : NoCrlf authResults)
  {below : List Text} {x : Instance}
include laws hauth

section

variable {prior : List Instance} {cv : ChainValidation}
  (hextract : extract raw = some (.ok (some prior)))
  (hvalues : sealer.values p raw authResults prior cv = some x)
  (hraw : ¬[0x0d, 0x0a] <+: raw) (hbelow : messageLines raw = some below)
include hextract hvalues hraw hbelow

/-- A chain that we carry on: our instance is the last one of the copy. -/
theorem isChain_carried : x.number = prior.length + 1 ∧
    ∃ fields fields', arcFields raw = some fields ∧ IsChain fields prior ∧
      arcFields (encodeUtf8 x.lines ++ raw) = some fields' ∧
      IsChain fields' (prior ++ [x.readBack below]) := by
  obtain ⟨fields, hfields, hprior⟩ := extract_eq_ok_iff.1 hextract
  obtain ⟨hnext, hmax⟩ := nextInstance_eq_some (values_eq_some hvalues).1
  rw [hprior.highest] at hnext
  have hlines : linesBelow raw = some below := by rw [linesBelow, if_neg hraw, hbelow]
  have hread : (unfold none below).filterMap arcField = fields := by
    rw [arcFields, messageFields, hbelow] at hfields
    exact Option.some.inj hfields
  obtain ⟨fields', hfields', hperm⟩ :=
    arcFields_under (written_of_values laws hauth hvalues) hlines hread
  exact ⟨hnext, fields, fields', hfields, hprior, hfields', hprior.concat (by omega) hnext hperm⟩

theorem of_validate_carried (hpass : validate p keys (encodeUtf8 x.lines ++ raw) = some .pass) :
    cv = .pass ∧ cvValuesConsistent p prior = true ∧
      ∀ y ∈ prior, sealPasses p keys y prior = true := by
  obtain ⟨hnext, fields, fields', hfields, hprior, hfields', hchain⟩ :=
    isChain_carried laws hauth hextract hvalues hraw hbelow
  have hcopy := extract_eq_ok_iff.2 ⟨fields', hfields', hchain⟩
  obtain ⟨chain, newest, hfound, -, hconsistent, -, hall⟩ := validate_eq_pass_iff.1 hpass
  obtain rfl : prior ++ [x.readBack below] = chain := by simpa using hcopy.symm.trans hfound
  have hnumber : x.number ≠ 1 := by
    have := hprior.one_le
    omega
  rw [cvValuesConsistent_append, Bool.and_eq_true, cvValuesConsistent_readBack laws hvalues,
    if_neg hnumber] at hconsistent
  refine ⟨hconsistent.2, hconsistent.1, fun y hy ↦ ?_⟩
  rw [← sealPasses_concat hfields hprior (by exact hnext) hchain hy]
  exact hall y (List.mem_append_left _ hy)

theorem validate_carried (hpublished : Published p keys sealer) (hleading : leading below = [])
    (hcv : cv = .pass) (hconsistent : cvValuesConsistent p prior = true)
    (hall : ∀ y ∈ prior, sealPasses p keys y prior = true) :
    validate p keys (encodeUtf8 x.lines ++ raw) = some .pass := by
  obtain ⟨hnext, fields, fields', hfields, hprior, hfields', hchain⟩ :=
    isChain_carried laws hauth hextract hvalues hraw hbelow
  have hnumber : x.number ≠ 1 := by
    have := hprior.one_le
    omega
  refine validate_eq_pass_iff.2 ⟨_, _, extract_eq_ok_iff.2 ⟨fields', hfields', hchain⟩,
    List.getLast?_concat, ?_, amsPasses_readBack laws hauth hvalues hpublished hraw hbelow,
    fun y hy ↦ ?_⟩
  · rw [cvValuesConsistent_append, Bool.and_eq_true, cvValuesConsistent_readBack laws hvalues,
      if_neg hnumber]
    exact ⟨hconsistent, hcv⟩
  · rcases List.mem_append.1 hy with hy | hy
    · rw [sealPasses_concat hfields hprior (by exact hnext) hchain hy]
      exact hall y hy
    · rw [List.mem_singleton.1 hy]
      refine sealPasses_readBack laws hpublished hauth hvalues hleading (fun z hz ↦ ?_) ?_
      · have := hprior.number_le hz
        omega
      · rw [hchain.sorted_eq, hprior.sorted_eq, List.filter_eq_self]
        intro z hz
        have hle := hchain.number_le hz
        rw [List.length_append, List.length_singleton, ← hnext] at hle
        exact decide_eq_true hle

end

section

variable (hvalues : sealer.values p raw authResults [] .none = some x)
  (hraw : ¬[0x0d, 0x0a] <+: raw) (hbelow : messageLines raw = some below)
include hvalues hraw hbelow

/-- A first instance over fields that are no chain: they go on with it, or there are none. -/
theorem of_validate_under (hpass : validate p keys (encodeUtf8 x.lines ++ raw) = some .pass) :
    arcFields raw = some [] ∨ Headless p keys raw := by
  have hwritten := written_of_values laws hauth hvalues
  have hnumber : x.number = 1 := (nextInstance_eq_some (values_eq_some hvalues).1).1
  have hlines : linesBelow raw = some below := by rw [linesBelow, if_neg hraw, hbelow]
  have hfields : arcFields raw = some ((unfold none below).filterMap arcField) := by
    rw [arcFields, messageFields, hbelow]
    rfl
  obtain ⟨fields', hfields', hperm⟩ := arcFields_under hwritten hlines rfl
  obtain ⟨chain, newest, hcopy, hlast, hconsistent, hams, -⟩ := validate_eq_pass_iff.1 hpass
  obtain ⟨found, hfound, hchain⟩ := extract_eq_ok_iff.1 hcopy
  obtain rfl := Option.some.inj (hfields'.symm.trans hfound)
  obtain ⟨rest, rfl, hlt, hnumbers, hrest⟩ := (IsChain.cons_iff (by exact hnumber) hperm).1 hchain
  rw [← List.singleton_append, cvValuesConsistent_append, Bool.and_eq_true] at hconsistent
  cases rest with
  | nil => exact .inl (hfields.trans (congrArg some hrest.eq_nil))
  | cons first rest =>
    rw [List.getLast?_cons_cons] at hlast
    rw [amsPasses_append hwritten hraw] at hams
    exact .inr ⟨_, _, newest, hfields, hlt, hnumbers, hrest, hlast, hconsistent.2, hams⟩

theorem validate_alone (hpublished : Published p keys sealer) (hleading : leading below = [])
    (hnone : arcFields raw = some []) :
    validate p keys (encodeUtf8 x.lines ++ raw) = some .pass := by
  have hnumber : x.number = 1 := (nextInstance_eq_some (values_eq_some hvalues).1).1
  have hlines : linesBelow raw = some below := by rw [linesBelow, if_neg hraw, hbelow]
  have hread : (unfold none below).filterMap arcField = [] := by
    rw [arcFields, messageFields, hbelow] at hnone
    exact Option.some.inj hnone
  obtain ⟨fields', hfields', hperm⟩ :=
    arcFields_under (written_of_values laws hauth hvalues) hlines hread
  have hchain := (IsChain.cons_iff (by exact hnumber) hperm).2 ⟨[], rfl, by decide, rfl, .nil⟩
  refine validate_eq_pass_iff.2 ⟨_, _, extract_eq_ok_iff.2 ⟨fields', hfields', hchain⟩, rfl,
    (cvValuesConsistent_readBack laws hvalues below).2 (if_pos hnumber).symm,
    amsPasses_readBack laws hauth hvalues hpublished hraw hbelow, fun y hy ↦ ?_⟩
  rw [List.mem_singleton.1 hy]
  refine sealPasses_readBack laws hpublished hauth hvalues hleading
    (fun z hz ↦ absurd hz List.not_mem_nil) ?_
  rw [hchain.sorted_eq, List.filter_cons_of_pos (by simp [Instance.readBack])]
  rfl

end

end

theorem mem_forwardData (sink : Storage.SplitDelivery) {copy : Bytes} :
    copy ∈ (sink.withArcSealer sealer).forwardData p raw ↔ ∃ added,
      arcInstance p sealer raw = some added ∧
        copy = ((added.map fun x ↦ encodeUtf8 x.lines).getD [])
        ++ raw := by
  simp only [Storage.SplitDelivery.forwardData, Storage.SplitDelivery.withArcSealer, arcSeal,
    Option.map_map, Option.mem_def, Option.map_eq_some_iff, Function.comp_apply]
  exact exists_congr fun added ↦ and_congr_right fun _ ↦ eq_comm

/-- A broken chain that passes once we have sealed it. -/
theorem of_forward_pass (laws : SealerLaws p keys sealer) (hfail : validate p keys raw = some .fail)
    {added : Option Instance} (hadded : arcInstance p sealer raw = some added)
    (hpass : validate p keys (((added.map fun x ↦ encodeUtf8 x.lines).getD []) ++ raw) =
      some .pass) :
    Sealable sealer raw ∧ (SealsPass p keys raw ∨ Headless p keys raw ∨ [0x0d, 0x0a] <+: raw) := by
  cases added with
  | none =>
    -- the copy is the message itself
    cases hfail.symm.trans hpass
  | some x =>
    refine ⟨sealable_of_arcInstance hadded, ?_⟩
    by_cases hraw : [0x0d, 0x0a] <+: raw
    · exact .inr (.inr hraw)
    obtain ⟨extracted, authResults, hextract, hauth, -, hvalues⟩ := arcInstance_eq_some hadded
    obtain ⟨below, hbelow⟩ := messageLines_of_values hvalues
    rcases of_validate_eq_fail hfail with ⟨error, herror⟩ | ⟨chain, hchain⟩
    · obtain rfl : .error error = extracted := Option.some.inj (herror.symm.trans hextract)
      rcases of_validate_under laws hauth hvalues hraw hbelow hpass with hnone | hrest
      · -- without fields there is nothing wrong with them
        cases herror.symm.trans ((extract_spec raw).2.2.2 hnone)
      · exact .inr (.inl hrest)
    · obtain rfl : .ok (some chain) = extracted := Option.some.inj (hchain.symm.trans hextract)
      obtain ⟨hstatus, hconsistent, hall⟩ :=
        of_validate_carried laws hauth hchain hvalues hraw hbelow hpass
      exact .inl ⟨chain, hchain, hconsistent, recordedStatus_eq_pass_iff.1 hstatus, hall⟩

/-- If the seals of a message are good, then the copy passes. -/
theorem exists_forward_pass (laws : SealerLaws p keys sealer) (hpublished : Published p keys sealer)
    (hfirst : BeginsWithField raw) (h : Sealable sealer raw) (hseals : SealsPass p keys raw) :
    ∃ x, arcInstance p sealer raw = some (some x) ∧
      validate p keys (encodeUtf8 x.lines ++ raw) = some .pass := by
  obtain ⟨chain, hchain, hconsistent, hstatus, hall⟩ := hseals
  obtain ⟨x, hx⟩ := exists_arcInstance h hchain
  obtain ⟨extracted, authResults, hextract, hauth, -, hvalues⟩ := arcInstance_eq_some hx
  obtain rfl : .ok (some chain) = extracted := Option.some.inj (hchain.symm.trans hextract)
  obtain ⟨below, hbelow⟩ := messageLines_of_values hvalues
  exact ⟨x, hx, validate_carried laws hauth hchain hvalues hfirst.1 hbelow hpublished
    (hfirst.2 below hbelow) (recordedStatus_eq_pass_iff.2 hstatus) hconsistent hall⟩

/-- **Forwarding does not make a broken chain pass, unless we seal it and its own seals are good**,
or its fields begin with the second instance, or are hidden below an empty line. A chain whose seals
are good does pass, if our key is published. -/
theorem forward_not_pass (laws : SealerLaws p keys sealer)
    (hfail : validate p keys raw = some .fail) (sink : Storage.SplitDelivery) :
    (¬(Sealable sealer raw ∧
        (SealsPass p keys raw ∨ Headless p keys raw ∨ [0x0d, 0x0a] <+: raw)) →
      ∀ copy ∈ (sink.withArcSealer sealer).forwardData p raw, validate p keys copy ≠ some .pass) ∧
    (Published p keys sealer → BeginsWithField raw → ¬Headless p keys raw →
      ((∀ copy ∈ (sink.withArcSealer sealer).forwardData p raw, validate p keys copy ≠ some .pass) ↔
        ¬(Sealable sealer raw ∧ SealsPass p keys raw))) := by
  have hnot : ¬(Sealable sealer raw ∧
      (SealsPass p keys raw ∨ Headless p keys raw ∨ [0x0d, 0x0a] <+: raw)) →
      ∀ copy ∈ (sink.withArcSealer sealer).forwardData p raw,
        validate p keys copy ≠ some .pass := by
    intro hcond copy hcopy hpass
    obtain ⟨added, hadded, rfl⟩ := (mem_forwardData sink).1 hcopy
    exact hcond (of_forward_pass laws hfail hadded hpass)
  refine ⟨hnot, fun hpublished hfirst hheadless ↦ ⟨fun hall hboth ↦ ?_, fun hcond ↦ hnot ?_⟩⟩
  · obtain ⟨x, hx, hpass⟩ := exists_forward_pass laws hpublished hfirst hboth.1 hboth.2
    exact hall _ ((mem_forwardData sink).2 ⟨some x, hx, rfl⟩) hpass
  · rintro ⟨hsealable, hseals | hrest | hraw⟩
    · exact hcond ⟨hsealable, hseals⟩
    · exact hheadless hrest
    · exact hfirst.1 hraw

end Launder

/-! ## A message that was altered on its way -/

/-- A hash of one byte. -/
def checksum (bytes : Bytes) : Bytes :=
  [UInt8.ofNat (bytes.foldl (fun sum b ↦ (3 * sum + b.toNat) % 251) 0)]

/-- Each byte is one letter. -/
def letters : Primitives :=
  { Primitives.plain with
    base64Encode := List.map fun b ↦ Char.ofNat (0x100 + b.toNat)
    base64Decode := fun t ↦ some (t.map fun c ↦ UInt8.ofNat c.toNat)
    sha256 := checksum }

/-- Every domain has published one key, for which a signature is the hash of the text. -/
def published : Keys where
  txt := fun _ ↦ some ["p=".toList ++ letters.base64Encode [1]]
  verify := fun _ text signature ↦ checksum text == signature

/-- The sealer of a domain. -/
def sealerOf (domain : Text) (h : Plain domain) : ArcSealer :=
  ⟨checksum, [1], domain, "s".toList, h, by decide⟩

/-- A message that the domains `a` and `b` have sealed, and the body of which was then changed. -/
def altered : Bytes := encodeUtf8 <| List.flatMap String.toList
  ["ARC-Seal: i=2; a=ed25519-sha256; ", "d=b; s=s; cv=pass; b=ŋ\r\n",
    "ARC-Message-Signature: i=2; ", "a=ed25519-sha256; c=relaxed/relaxed; ",
    "d=b; s=s; h=from; bh=ĥ; b=Ż\r\n", "ARC-Authentication-Results: ", "i=2; b; none\r\n",
    "ARC-Seal: i=1; a=ed25519-sha256; ", "d=a; s=s; cv=none; b=Ʊ\r\n",
    "ARC-Message-Signature: i=1; ", "a=ed25519-sha256; c=relaxed/relaxed; ",
    "d=a; s=s; h=from; bh=ĥ; b=Ǖ\r\n", "ARC-Authentication-Results: ", "i=1; a; none\r\n",
    "From: a\r\n\r\naltered\r\n"]

theorem toNat_letter (b : UInt8) : (Char.ofNat (0x100 + b.toNat)).toNat = 0x100 + b.toNat := by
  have hlt : b.toNat < 256 := b.toNat_lt
  have hvalid : (0x100 + b.toNat).isValidChar := .inl (by omega)
  rw [Char.ofNat, dif_pos hvalid]
  rfl

theorem isWhitespace_letter (b : UInt8) : isWhitespace (Char.ofNat (0x100 + b.toNat)) = false := by
  have hlt : b.toNat < 256 := b.toNat_lt
  simp only [isWhitespace, toNat_letter]
  simp
  omega

theorem sealerLaws_letters {domain : Text} (h : Plain domain) :
    SealerLaws letters published (sealerOf domain h) where
  decode_encode := by
    intro bytes
    have hbyte : ∀ b : UInt8, UInt8.ofNat (Char.ofNat (0x100 + b.toNat)).toNat = b := by
      intro b
      rw [toNat_letter]
      refine UInt8.toNat_inj.1 ?_
      rw [UInt8.toNat_ofNat']
      have hlt : b.toNat < 256 := b.toNat_lt
      omega
    change some ((bytes.map _).map _) = some bytes
    rw [List.map_map]
    exact congrArg some ((List.map_congr_left fun b _ ↦ hbyte b).trans (List.map_id bytes))
  encode_plain := by
    intro bytes c hc
    obtain ⟨b, -, rfl⟩ := List.mem_map.1 hc
    refine ⟨isWhitespace_letter b, fun heq ↦ ?_⟩
    have hnat := congrArg Char.toNat heq
    rw [toNat_letter] at hnat
    exact absurd hnat (by simp; omega)
  verify_sign := fun text ↦ beq_self_eq_true (checksum text)

/-- The seals are good, so that the copy that `c` sends on passes. -/
theorem altered_passes : validate letters published altered = some .fail ∧
    (((Storage.twoAccounts.withArcSealer (sealerOf "c".toList (by decide))).forwardData letters
      altered).any fun copy ↦ validate letters published copy = some .pass) = true := by
  exact ⟨by decide +kernel, by decide +kernel⟩

/-- `b` has sealed the message itself and does not seal it once more. -/
theorem altered_not_pass_again : validate letters published altered = some .fail ∧
    ∀ copy ∈ (Storage.twoAccounts.withArcSealer
      (sealerOf "b".toList (by decide))).forwardData letters altered,
        validate letters published copy ≠ some .pass := by
  have hfail : validate letters published altered = some .fail := by decide +kernel
  refine ⟨hfail, (forward_not_pass (sealerLaws_letters (by decide)) hfail
    Storage.twoAccounts).1 ?_⟩
  rintro ⟨⟨-, hours⟩, -⟩
  revert hours
  decide +kernel

/-! ## Chains that pass -/

section

variable {p : Primitives} {keys : Keys} {sealer : ArcSealer} {raw : Bytes} {authResults : Text}
  {prior : List Instance}

/-- A seal of ours that says that the chain before it failed is found in the copy. -/
theorem not_pass_of_fail (laws : SealerLaws p keys sealer) (hauth : NoCrlf authResults)
    {x : Instance} (h : sealer.values p raw authResults prior .fail = some x) :
    validate p keys (encodeUtf8 x.lines ++ raw) ≠ some .pass := by
  intro hpass
  obtain ⟨chain, -, hcopy, -, hconsistent, -⟩ := validate_eq_pass_iff.1 hpass
  obtain ⟨fields, hfields, hchain⟩ := extract_eq_ok_iff.1 hcopy
  obtain ⟨below, hbelow⟩ := linesBelow_of_values h
  obtain ⟨found, hfound, hperm⟩ := arcFields_under (written_of_values laws hauth h) hbelow rfl
  obtain rfl := Option.some.inj (hfields.symm.trans hfound)
  have hmem : (⟨.arcSeal, some x.number, (x.readBack below).arcSeal⟩ : ArcField) ∈ fields :=
    hperm.mem_iff.2 (List.mem_append_left _ (by simp [Instance.fields, Instance.value,
      Instance.readBack]))
  obtain ⟨i, y, hy, heq⟩ := (mem_flatMap_fields hchain.numbers).1 (hchain.perm.mem_iff.1 hmem)
  have hseal : (x.readBack below).arcSeal = y.arcSeal := congrArg ArcField.value heq
  obtain ⟨parsed, hparsed, hfail⟩ := Option.map_eq_some_iff.1 (parseSeal_readBack laws h below)
  have hall := List.all_eq_true.1 hconsistent y (List.mem_of_getElem? hy)
  rw [← hseal, hparsed, Option.any_some, decide_eq_true_eq, hfail] at hall
  split at hall <;> cases hall

/-- **A sealed chain validates**: our instance over a message whose chain is good, or that has none,
makes a good chain. One that says that the chain was not good does not. -/
theorem seal_validates (laws : SealerLaws p keys sealer) :
    (∀ raw extracted cv authResults, extract raw = some extracted → validate p keys raw = some cv →
      cv ≠ .fail → (priorOf extracted).length < maxInstance → BeginsWithField raw → HasFrom raw →
      NoCrlf authResults → Published p keys sealer →
        ∃ lines, sealer.seal p raw authResults (priorOf extracted) cv = some lines ∧
          validate p keys (encodeUtf8 lines ++ raw) = some .pass) ∧
    ∀ raw prior authResults lines, NoCrlf authResults →
      sealer.seal p raw authResults prior .fail = some lines →
        validate p keys (encodeUtf8 lines ++ raw) ≠ some .pass := by
  constructor
  · intro raw extracted cv authResults hextract hcv hne hroom hfirst hfrom hauth hpublished
    have hresult := hcv
    rw [validate, hextract] at hresult
    cases extracted with
    | error error => exact absurd (Option.some.inj hresult).symm hne
    | ok found =>
      cases found with
      | none =>
        obtain rfl := Option.some.inj hresult
        have hnext : nextInstance [] = some 1 := rfl
        obtain ⟨x, hx⟩ := exists_values hfrom hnext .none
        obtain ⟨below, hbelow⟩ := messageLines_of_values hx
        exact ⟨x.lines, congrArg (Option.map _) hx, validate_alone laws hauth hx hfirst.1 hbelow
          hpublished (hfirst.2 below hbelow) ((extract_spec raw).2.2.1 hextract)⟩
      | some chain =>
        have hpass : cv = .pass := by
          dsimp only at hresult
          repeat' split at hresult
          all_goals first | exact (Option.some.inj hresult).symm | cases hresult
          all_goals exact absurd rfl hne
        subst hpass
        obtain ⟨found, -, hfound, -, hconsistent, -, hall⟩ := validate_eq_pass_iff.1 hcv
        obtain rfl : chain = found := by simpa using hextract.symm.trans hfound
        have hnext : nextInstance chain = some (chain.length + 1) :=
          (nextInstance_priorOf hextract).trans (if_pos hroom)
        obtain ⟨x, hx⟩ := exists_values hfrom hnext .pass
        obtain ⟨below, hbelow⟩ := messageLines_of_values hx
        exact ⟨x.lines, congrArg (Option.map _) hx, validate_carried laws hauth hextract hx hfirst.1
          hbelow hpublished (hfirst.2 below hbelow) rfl hconsistent hall⟩
  · intro raw prior authResults lines hauth hseal
    obtain ⟨x, hx, rfl⟩ := Option.map_eq_some_iff.1 hseal
    exact not_pass_of_fail laws hauth hx

end

/-- A message with a sender and no chain. -/
def unsealed : Bytes := encodeUtf8 "From: a\r\n\r\nhello\r\n".toList

theorem seal_validates_unsealed : ∃ lines, (sealerOf "c".toList (by decide)).seal letters unsealed
    "none".toList [] .none = some lines ∧
      validate letters published (encodeUtf8 lines ++ unsealed) = some .pass := by
  refine (seal_validates (sealerLaws_letters (by decide))).1 unsealed (.ok none) .none _ ?_ ?_ ?_ ?_
    ?_ ?_ ?_ ?_
  · decide +kernel
  · decide +kernel
  · decide
  · decide
  · exact ⟨by decide, by decide +kernel⟩
  · exact ⟨[("From".toList, " a".toList)], encodeUtf8 "hello\r\n".toList, by decide +kernel, _,
      List.mem_singleton_self _, by decide⟩
  · exact .of_not_mem (by decide)
  · exact ⟨_, rfl, by decide +kernel⟩

end Epistle.Arc
