import Epistle.Message.Header

/-!
# ARC chains

A mail handler that has checked a message says so in three header fields: what it has found, a
signature of the message, and a seal of all such fields. The fields carry the number of the
handler's instance, and the instances of a message are numbered from 1 on.

`extract` reads the instances off a message. It puts the fields in slots by number and kind, then
takes the slots in order. Slots are made for the numbers from 1 to the highest, and the highest
number is checked. The lowest is not: a field with the number 0 has no slot, and the program panics
when it gets to it (`ZeroFirst`). Up to that the result is exactly what the fields say
(`exact_iff`).
-/

namespace Epistle.Arc

open TextFormat
open List (append_cons append_nil length_map map_append map_cons map_eq_nil_iff map_map
  map_singleton mem_cons_self mem_map mem_map_of_mem mem_singleton)

def maxInstance : ℕ := 50

inductive ArcKind
  | authResults
  | messageSignature
  | arcSeal
  deriving DecidableEq, Repr

def ArcKind.fromName (name : Text) : Option ArcKind :=
  let name := toAsciiLowercase name
  if name = "arc-authentication-results".toList then some .authResults
  else if name = "arc-message-signature".toList then some .messageSignature
  else if name = "arc-seal".toList then some .arcSeal
  else none

/-- What a seal says of the chain before it. -/
inductive ChainValidation
  | none
  | pass
  | fail
  deriving DecidableEq, Repr

namespace ChainValidation

def parse (value : Text) : Option ChainValidation :=
  let value := toAsciiLowercase (trim value)
  if value = "none".toList then some .none
  else if value = "pass".toList then some .pass
  else if value = "fail".toList then some .fail
  else Option.none

def asStr : ChainValidation → Text
  | .none => "none".toList
  | .pass => "pass".toList
  | .fail => "fail".toList

end ChainValidation

/-- One instance: the values of the three fields that share a number. -/
structure Instance where
  number : ℕ
  authResults : Text
  messageSignature : Text
  arcSeal : Text
  deriving DecidableEq, Repr

inductive ChainError
  /-- A field without a number, or a header block that is no text. -/
  | malformed
  /-- The highest number is zero or too high. -/
  | badInstance
  /-- Two fields of one kind have the same number. -/
  | duplicate
  | nonContiguous
  /-- There is not every kind of field with some number. -/
  | incomplete
  deriving DecidableEq, Repr

/-- A field with the number it carries. -/
structure RawHeader where
  kind : ArcKind
  number : ℕ
  value : Text
  deriving DecidableEq, Repr

def readTag (key part : Text) : Option Text :=
  (splitOnce '=' part).bind fun (name, value) ↦
    if eqIgnoreAsciiCase (trim name) key then some (trim value) else none

def tag (header key : Text) : Option Text := (header.splitOn ';').findSome? (readTag key)

/-- What the newest seal says. -/
def chainStatus (instances : List Instance) : Option ChainValidation :=
  instances.getLast?.bind fun last ↦ (tag last.arcSeal "cv".toList).bind ChainValidation.parse

/-- Add a field to those found, if it belongs to a chain. -/
def pushArc (headers : List RawHeader) (line : Text) : Except ChainError (List RawHeader) :=
  match splitOnce ':' line with
  | none => .ok headers
  | some (name, rest) =>
    match ArcKind.fromName (trimEnd name) with
    | none => .ok headers
    | some kind =>
      let value := trimStart rest
      match (tag value "i".toList).bind parseU32 with
      | none => .error .malformed
      | some number => .ok (headers ++ [⟨kind, number, value⟩])

def arcHeaders (raw : Bytes) : Except ChainError (List RawHeader) :=
  match messageFields raw with
  | none => .error .malformed
  | some lines => lines.foldlM pushArc []

abbrev Slot : Type := ArcKind → Option Text

/-- Put each field in the slot of its number. The program panics on a number without a slot. -/
def bucket : List Slot → List RawHeader → Option (Except ChainError (List Slot))
  | slots, [] => some (.ok slots)
  | slots, header :: rest =>
    -- the slots are counted from 0, the instances from 1
    if header.number = 0 then none
    else match slots[header.number - 1]? with
      | none => none
      | some slot =>
        if (slot header.kind).isSome then some (.error .duplicate)
        else bucket
          (slots.set (header.number - 1) (Function.update slot header.kind
            (some header.value))) rest

/-- The instances that are in slots, of which `index` were taken before. -/
def collect : ℕ → List Slot → Except ChainError (List Instance)
  | _, [] => .ok []
  | index, slot :: rest =>
    match slot .authResults, slot .messageSignature, slot .arcSeal with
    | some authResults, some messageSignature, some arcSeal =>
      (collect (index + 1) rest).map (⟨index + 1, authResults, messageSignature, arcSeal⟩ :: ·)
    | none, none, none => .error .nonContiguous
    | _, _, _ => .error .incomplete

/-- The chain of a message, if it has one. The program may panic. -/
def extract (raw : Bytes) : Option (Except ChainError (Option (List Instance))) :=
  match arcHeaders raw with
  | .error error => some (.error error)
  | .ok headers =>
    if headers.isEmpty then some (.ok none)
    else
      let highest := (headers.map RawHeader.number).max?.getD 0
      if highest = 0 ∨ highest > maxInstance then some (.error .badInstance)
      else (bucket (List.replicate highest fun _ ↦ none) headers).map fun slots ↦
        slots.bind fun slots ↦ (collect 0 slots).map some

/-! ## What the fields say -/

/-- A header field that belongs to a chain. Its number may be unreadable. -/
structure ArcField where
  kind : ArcKind
  number : Option ℕ
  value : Text
  deriving DecidableEq

def ArcField.key (field : ArcField) : ArcKind × Option ℕ := (field.kind, field.number)

def arcField (line : Text) : Option ArcField :=
  (splitOnce ':' line).bind fun (name, rest) ↦
    (ArcKind.fromName (trimEnd name)).map fun kind ↦
      ⟨kind, (tag (trimStart rest) "i".toList).bind parseU32, trimStart rest⟩

/-- The fields of a message that belong to a chain, unless the header block is no text. -/
def arcFields (raw : Bytes) : Option (List ArcField) :=
  (messageFields raw).map fun lines ↦ lines.filterMap arcField

def Instance.value (x : Instance) : ArcKind → Text
  | .authResults => x.authResults
  | .messageSignature => x.messageSignature
  | .arcSeal => x.arcSeal

def Instance.fields (x : Instance) : List ArcField :=
  [.authResults, .messageSignature, .arcSeal].map fun kind ↦ ⟨kind, some x.number, x.value kind⟩

/-- The fields are those of a list of instances, numbered from 1 on. -/
structure IsChain (fields : List ArcField) (chain : List Instance) : Prop where
  one_le : 1 ≤ chain.length
  le_max : chain.length ≤ maxInstance
  numbers : chain.map Instance.number = List.range' 1 chain.length
  perm : fields.Perm (chain.flatMap Instance.fields)

/-- Extraction is total and exact for a message: it does not panic, it finds a chain if and only if
the fields are those of that chain, and it finds no chain if and only if there is no field. -/
def Exact (raw : Bytes) : Prop :=
  ∃ result, extract raw = some result ∧
    (∀ chain, result = .ok (some chain) ↔ ∃ fields, arcFields raw = some fields ∧
      IsChain fields chain) ∧
    (result = .ok none ↔ arcFields raw = some [])

/-- The numbers are readable and the highest one is good, and a field with the number 0 comes before
any two fields of one kind and number. -/
structure ZeroFirst (fields : List ArcField) : Prop where
  le_max : ∀ field ∈ fields, ∃ n ≤ maxInstance, field.number = some n
  positive : ∃ field ∈ fields, ∃ n ≥ 1, field.number = some n
  zero : ∃ before field after, fields = before ++ field :: after ∧ field.number = some 0 ∧
    (before.map ArcField.key).Nodup

/-! ## Reading the fields -/

namespace RawHeader

def field (header : RawHeader) : ArcField := ⟨header.kind, some header.number, header.value⟩

def key (header : RawHeader) : ArcKind × ℕ := (header.kind, header.number)

theorem field_injective : Function.Injective field := by
  rintro ⟨kind, number, value⟩ ⟨kind', number', value'⟩ h
  simpa [field] using h

end RawHeader

theorem exists_headers {fields : List ArcField} (h : ∀ field ∈ fields, ∃ n, field.number = some n) :
    ∃ headers : List RawHeader, fields = headers.map RawHeader.field := by
  induction fields with
  | nil => exact ⟨[], rfl⟩
  | cons field fields ih =>
    obtain ⟨headers, rfl⟩ := ih fun x hx ↦ h x (List.mem_cons_of_mem _ hx)
    obtain ⟨n, hn⟩ := h field mem_cons_self
    refine ⟨⟨field.kind, n, field.value⟩ :: headers, ?_⟩
    rw [map_cons, RawHeader.field, ← hn]

variable {headers : List RawHeader} {raw : Bytes} {header : RawHeader} {slots : List Slot}

theorem nodup_key_iff :
    ((headers.map RawHeader.field).map ArcField.key).Nodup ↔ (headers.map RawHeader.key).Nodup := by
  have hkeys : (headers.map RawHeader.field).map ArcField.key =
      (headers.map RawHeader.key).map (Prod.map id some) := by
    rw [map_map, map_map]
    rfl
  rw [hkeys, List.nodup_map_iff (Function.injective_id.prodMap (Option.some_injective ℕ))]

variable {line : Text} {found : List RawHeader} {r : Except ChainError (List Instance)}

theorem pushArc_of_none (h : arcField line = none) (headers : List RawHeader) :
    pushArc headers line = .ok headers := by
  rw [pushArc]
  rw [arcField] at h
  cases hcolon : splitOnce ':' line with
  | none => rfl
  | some parts =>
    rw [hcolon, Option.bind_some, Option.map_eq_none_iff] at h
    dsimp only
    rw [h]

theorem pushArc_of_some {field : ArcField} (h : arcField line = some field)
    (headers : List RawHeader) :
    pushArc headers line = field.number.elim (.error .malformed) fun number ↦
      .ok (headers ++ [⟨field.kind, number, field.value⟩]) := by
  obtain ⟨⟨name, rest⟩, hcolon, hkind⟩ := Option.bind_eq_some_iff.1 h
  obtain ⟨kind, hname, rfl⟩ := Option.map_eq_some_iff.1 hkind
  rw [pushArc, hcolon]
  dsimp only
  rw [hname]
  cases (tag (trimStart rest) "i".toList).bind parseU32 <;> rfl

theorem foldlM_pushArc_eq_ok {lines : List Text} :
    lines.foldlM pushArc found = .ok headers ↔
      ∃ rest, headers = found ++ rest ∧ lines.filterMap arcField = rest.map RawHeader.field := by
  induction lines generalizing found with
  | nil =>
    rw [List.foldlM_nil, List.filterMap_nil]
    constructor
    · intro h
      obtain rfl := Except.ok.inj h
      exact ⟨[], (append_nil _).symm, rfl⟩
    · rintro ⟨rest, rfl, hrest⟩
      rw [map_eq_nil_iff.1 hrest.symm, append_nil]
      rfl
  | cons line lines ih =>
    rw [List.foldlM_cons]
    cases hline : arcField line with
    | none =>
      rw [pushArc_of_none hline, List.filterMap_cons_none hline]
      exact ih
    | some field =>
      rw [pushArc_of_some hline, List.filterMap_cons_some hline]
      obtain ⟨kind, number, value⟩ := field
      cases number with
      | none =>
        refine ⟨fun h ↦ (by cases h), ?_⟩
        rintro ⟨rest, -, hrest⟩
        cases rest with
        | nil => cases hrest
        | cons header rest => cases (List.cons.inj hrest).1
      | some number =>
        refine Iff.trans ih ⟨?_, ?_⟩
        · rintro ⟨rest, rfl, hrest⟩
          exact ⟨⟨kind, number, value⟩ :: rest, by rw [List.append_assoc, List.singleton_append],
            by rw [map_cons, hrest]; rfl⟩
        · rintro ⟨rest, rfl, hrest⟩
          cases rest with
          | nil => cases hrest
          | cons header rest =>
            obtain ⟨hheader, htail⟩ := List.cons.inj hrest
            obtain rfl : ⟨kind, number, value⟩ = header := RawHeader.field_injective hheader
            exact ⟨rest, by rw [List.append_assoc, List.singleton_append], htail⟩

theorem arcHeaders_eq_ok :
    arcHeaders raw = .ok headers ↔ arcFields raw = some (headers.map RawHeader.field) := by
  rw [arcHeaders, arcFields]
  cases messageFields raw with
  | none => exact ⟨fun h ↦ (by cases h), fun h ↦ (by cases h)⟩
  | some lines =>
    dsimp only
    rw [foldlM_pushArc_eq_ok, Option.map_some, Option.some.injEq]
    constructor
    · rintro ⟨rest, rfl, hrest⟩
      exact hrest
    · intro h
      exact ⟨headers, rfl, h⟩

/-! ## The slots -/

/-- The slots hold the fields, each in its place. -/
structure Filled (slots : List Slot) (headers : List RawHeader) : Prop where
  distinct : (headers.map RawHeader.key).Nodup
  placed : ∀ header ∈ headers, 1 ≤ header.number ∧ header.number ≤ slots.length
  holds : ∀ i slot, slots[i]? = some slot → ∀ kind value,
    slot kind = some value ↔ ⟨kind, i + 1, value⟩ ∈ headers

theorem filled_empty (n : ℕ) : Filled (List.replicate n fun _ ↦ none) [] := by
  refine ⟨List.nodup_nil, fun header hheader ↦ (by cases hheader), fun i slot hslot kind value ↦ ?_⟩
  have hempty : slot = fun _ ↦ none := List.eq_of_mem_replicate (List.mem_of_getElem? hslot)
  simp [hempty]

section

variable {slot : Slot} (h : Filled slots headers) (hpos : header.number ≠ 0)
  (hslot : slots[header.number - 1]? = some slot)
include h hpos hslot

theorem Filled.key_mem : (slot header.kind).isSome ↔ header.key ∈ headers.map RawHeader.key := by
  have hnumber : header.number - 1 + 1 = header.number := Nat.succ_pred_eq_of_ne_zero hpos
  rw [Option.isSome_iff_exists, mem_map]
  constructor
  · rintro ⟨value, hvalue⟩
    rw [h.holds _ slot hslot, hnumber] at hvalue
    exact ⟨_, hvalue, rfl⟩
  · rintro ⟨⟨kind, number, value⟩, hmem, hkey⟩
    obtain ⟨rfl, rfl⟩ := Prod.mk.inj hkey
    exact ⟨value, (h.holds _ slot hslot _ _).2 (hnumber ▸ hmem)⟩

theorem Filled.push (hfree : slot header.kind = none) :
    Filled (slots.set (header.number - 1) (Function.update slot header.kind (some header.value)))
      (headers ++ [header]) := by
  have hnumber : header.number - 1 + 1 = header.number := Nat.succ_pred_eq_of_ne_zero hpos
  have hlt : header.number - 1 < slots.length := (List.getElem?_eq_some_iff.1 hslot).1
  have hnew : header.key ∉ headers.map RawHeader.key := by
    rw [← h.key_mem hpos hslot, hfree]
    exact Bool.false_ne_true
  refine ⟨?_, fun x hx ↦ ?_, fun i found hfound kind value ↦ ?_⟩
  · rw [map_append, map_singleton, ← List.concat_eq_append]
    exact h.distinct.concat hnew
  · rw [List.length_set]
    rcases List.mem_append.1 hx with hx | hx
    · exact h.placed x hx
    · rw [mem_singleton.1 hx]
      omega
  · rw [List.mem_append, mem_singleton]
    by_cases hi : header.number - 1 = i
    · subst hi
      rw [List.getElem?_set_self hlt, Option.some.injEq] at hfound
      rw [← hfound, hnumber]
      by_cases hkind : kind = header.kind
      · -- the slot was free, so that no field before this one belongs there
        subst hkind
        have hnone : ⟨header.kind, header.number, value⟩ ∉ headers := fun hmem ↦
          hnew (mem_map.2 ⟨_, hmem, rfl⟩)
        rw [Function.update_self, Option.some.injEq]
        constructor
        · rintro rfl
          exact .inr rfl
        · rintro (hmem | heq)
          · exact absurd hmem hnone
          · exact (congrArg RawHeader.value heq).symm
      · have hother := h.holds _ slot hslot kind value
        rw [hnumber] at hother
        rw [Function.update_of_ne hkind, hother, or_iff_left]
        rintro heq
        exact hkind (congrArg RawHeader.kind heq)
    · rw [List.getElem?_set_ne hi] at hfound
      rw [h.holds i found hfound, or_iff_left]
      intro heq
      have := congrArg RawHeader.number heq
      dsimp only at this
      omega

end

/-- What becomes of putting the fields in slots: the program gets to a field with the number 0, or
to a second field of one kind and number, or to the end. -/
theorem bucket_cases (h : Filled slots found) (rest : List RawHeader)
    (hle : ∀ header ∈ rest, header.number ≤ slots.length) :
    (bucket slots rest = none ∧ ∃ before header after, rest = before ++ header :: after ∧
      header.number = 0 ∧ ((found ++ before).map RawHeader.key).Nodup) ∨
    (bucket slots rest = some (.error .duplicate) ∧ ∃ before header after,
      rest = before ++ header :: after ∧ header.key ∈ (found ++ before).map RawHeader.key ∧
      ∀ x ∈ before ++ [header], x.number ≠ 0) ∨
    ∃ filled, bucket slots rest = some (.ok filled) ∧ filled.length = slots.length ∧
      Filled filled (found ++ rest) := by
  induction rest generalizing slots found with
  | nil => exact .inr (.inr ⟨slots, rfl, rfl, by rwa [append_nil]⟩)
  | cons header rest ih =>
    rw [bucket]
    by_cases hzero : header.number = 0
    · rw [if_pos hzero]
      refine .inl ⟨rfl, [], header, rest, rfl, hzero, ?_⟩
      rw [append_nil]
      exact h.distinct
    rw [if_neg hzero]
    have hlt : header.number - 1 < slots.length := by
      have := hle header mem_cons_self
      omega
    have hslot := List.getElem?_eq_getElem hlt
    rw [hslot]
    dsimp only
    by_cases htaken : (slots[header.number - 1] header.kind).isSome
    · rw [if_pos htaken]
      refine .inr (.inl ⟨rfl, [], header, rest, rfl, ?_, fun x hx ↦ ?_⟩)
      · rw [append_nil]
        exact (h.key_mem hzero hslot).1 htaken
      · rwa [mem_singleton.1 hx]
    rw [if_neg htaken]
    have hpush := h.push hzero hslot (Option.not_isSome_iff_eq_none.1 htaken)
    have hlength :
      (slots.set (header.number - 1) (Function.update slots[header.number - 1] header.kind
        (some header.value))).length = slots.length := List.length_set
    obtain ⟨hrun, before, zero, after, rfl, hat, hnodup⟩ |
        ⟨hrun, before, again, after, rfl, hmem, hpos⟩ | ⟨filled, hrun, hlen, hfilled⟩ :=
      ih hpush fun x hx ↦ hlength ▸ hle x (List.mem_cons_of_mem _ hx)
    · refine .inl ⟨hrun, header :: before, zero, after, rfl, hat, ?_⟩
      rwa [append_cons]
    · refine .inr (.inl ⟨hrun, header :: before, again, after, rfl, ?_, fun x hx ↦ ?_⟩)
      · rwa [append_cons]
      · rcases List.mem_cons.1 hx with rfl | hx
        · exact hzero
        · exact hpos x hx
    · refine .inr (.inr ⟨filled, hrun, hlen.trans hlength, ?_⟩)
      rwa [append_cons]

/-! ## The instances -/

def Instance.slot (x : Instance) : Slot := fun kind ↦ some (x.value kind)

theorem collect_eq_ok {index : ℕ} {chain : List Instance} :
    collect index slots = .ok chain ↔ slots = chain.map Instance.slot ∧
      chain.map Instance.number = List.range' (index + 1) chain.length := by
  induction slots generalizing index chain with
  | nil =>
    rw [collect, Except.ok.injEq, eq_comm]
    constructor
    · rintro rfl
      exact ⟨rfl, rfl⟩
    · rintro ⟨h, -⟩
      exact map_eq_nil_iff.1 h.symm
  | cons slot slots ih =>
    constructor
    · intro h
      rw [collect] at h
      split at h
      next authResults messageSignature arcSeal hauth hsignature hseal =>
        cases hrest : collect (index + 1) slots with
        | error error =>
          rw [hrest] at h
          cases h
        | ok rest =>
          rw [hrest] at h
          obtain rfl := Except.ok.inj h
          obtain ⟨rfl, hnumbers⟩ := ih.1 hrest
          refine ⟨?_, ?_⟩
          · rw [map_cons]
            congr 1
            funext kind
            cases kind with
            | authResults => exact hauth
            | messageSignature => exact hsignature
            | arcSeal => exact hseal
          · rw [map_cons, hnumbers]
            rfl
      next => cases h
      next => cases h
    · rintro ⟨hslots, hnumbers⟩
      cases chain with
      | nil => cases hslots
      | cons x chain =>
        obtain ⟨rfl, htail⟩ := List.cons.inj hslots
        rw [map_cons, List.length_cons, List.range'_succ] at hnumbers
        obtain ⟨hnumber, hnumbers⟩ := List.cons.inj hnumbers
        rw [collect, ih.2 ⟨htail, hnumbers⟩]
        obtain ⟨number, authResults, messageSignature, arcSeal⟩ := x
        obtain rfl : number = index + 1 := hnumber
        rfl

section

variable {chain : List Instance} (hnumbers : chain.map Instance.number = List.range' 1 chain.length)
include hnumbers

theorem mem_flatMap_fields {field : ArcField} :
    field ∈ chain.flatMap Instance.fields ↔ ∃ i x, chain[i]? = some x ∧
      field = ⟨field.kind, some (i + 1), x.value field.kind⟩ := by
  have hnumber : ∀ i x, chain[i]? = some x → x.number = i + 1 := by
    intro i x hx
    have hi : i < chain.length := (List.getElem?_eq_some_iff.1 hx).1
    have := congrArg (·[i]?) hnumbers
    simp only [List.getElem?_map, hx, Option.map_some, List.getElem?_range' hi,
      Option.some.injEq] at this
    omega
  rw [List.mem_flatMap]
  constructor
  · rintro ⟨x, hx, hfield⟩
    obtain ⟨i, hi⟩ := List.mem_iff_getElem?.1 hx
    obtain ⟨kind, -, rfl⟩ := mem_map.1 hfield
    exact ⟨i, x, hi, by rw [hnumber i x hi]⟩
  · rintro ⟨i, x, hx, hfield⟩
    refine ⟨x, List.mem_of_getElem? hx, mem_map.2 ⟨field.kind, ?_, ?_⟩⟩
    · cases field.kind <;> simp
    · rw [hnumber i x hx, ← hfield]

theorem nodup_flatMap_fields : ((chain.flatMap Instance.fields).map ArcField.key).Nodup := by
  have hdistinct : (chain.map Instance.number).Nodup := hnumbers ▸ List.nodup_range'
  rw [List.map_flatMap, List.nodup_flatMap]
  refine ⟨fun x _ ↦ by simp [Instance.fields, ArcField.key], ?_⟩
  refine (List.pairwise_map.1 hdistinct).imp fun {x y} hne ↦ ?_
  simp [Function.onFun, Instance.fields, ArcField.key, List.disjoint_left, hne]

end

namespace IsChain

variable {fields : List ArcField} {chain : List Instance}

theorem number_of_mem (h : IsChain fields chain) {field : ArcField} (hfield : field ∈ fields) :
    ∃ i < chain.length, field.number = some (i + 1) := by
  obtain ⟨i, x, hx, heq⟩ := (mem_flatMap_fields h.numbers).1 (h.perm.mem_iff.1 hfield)
  exact ⟨i, (List.getElem?_eq_some_iff.1 hx).1, congrArg ArcField.number heq⟩

theorem exists_last (h : IsChain fields chain) :
    ∃ field ∈ fields, field.number = some chain.length := by
  have hlt : chain.length - 1 < chain.length := Nat.sub_one_lt_of_lt h.one_le
  refine ⟨⟨.arcSeal, some (chain.length - 1 + 1), chain[chain.length - 1].value .arcSeal⟩, ?_, ?_⟩
  · rw [h.perm.mem_iff, mem_flatMap_fields h.numbers]
    exact ⟨_, _, List.getElem?_eq_getElem hlt, rfl⟩
  · rw [Nat.sub_add_cancel h.one_le]

theorem distinct (h : IsChain fields chain) : (fields.map ArcField.key).Nodup :=
  ((h.perm.map ArcField.key).nodup_iff).2 (nodup_flatMap_fields h.numbers)

end IsChain

theorem collect_eq_ok_iff_isChain {chain : List Instance} (h : Filled slots headers)
    (hlast : ∃ header ∈ headers, header.number = slots.length) (hle : slots.length ≤ maxInstance) :
    collect 0 slots = .ok chain ↔ IsChain (headers.map RawHeader.field) chain := by
  rw [collect_eq_ok]
  constructor
  · rintro ⟨rfl, hnumbers⟩
    rw [length_map] at hlast hle
    obtain ⟨last, hmem, hnumber⟩ := hlast
    refine ⟨hnumber ▸ (h.placed last hmem).1, hle, hnumbers, ?_⟩
    -- both sides have no repetition, so that it is enough to compare members
    rw [List.perm_ext_iff_of_nodup (nodup_key_iff.2 h.distinct).of_map
      (nodup_flatMap_fields hnumbers).of_map]
    intro field
    rw [mem_flatMap_fields hnumbers, mem_map]
    constructor
    · rintro ⟨⟨kind, number, value⟩, hheader, rfl⟩
      obtain ⟨hone, hlt⟩ := h.placed _ hheader
      rw [length_map] at hlt
      have hi : number - 1 < chain.length := Nat.sub_one_lt_of_le hone hlt
      have hsub : number - 1 + 1 = number := Nat.sub_add_cancel hone
      refine ⟨number - 1, chain[number - 1], List.getElem?_eq_getElem hi, ?_⟩
      have hvalue := (h.holds (number - 1) chain[number - 1].slot (by simp [hi]) kind value).2
        (hsub.symm ▸ hheader)
      rw [RawHeader.field, hsub, Option.some.inj hvalue]
    · rintro ⟨i, x, hx, hfield⟩
      have hslot : (chain.map Instance.slot)[i]? = some x.slot := by rw [List.getElem?_map, hx]; rfl
      exact ⟨_, (h.holds i x.slot hslot field.kind (x.value field.kind)).1 rfl, hfield.symm⟩
  · intro hchain
    have hmem : ∀ i (hi : i < chain.length) kind, ⟨kind, i + 1, chain[i].value kind⟩ ∈ headers := by
      intro i hi kind
      have hfield := hchain.perm.mem_iff.2 ((mem_flatMap_fields hchain.numbers).2
        ⟨i, chain[i], List.getElem?_eq_getElem hi, rfl⟩ :
          (⟨kind, some (i + 1), chain[i].value kind⟩ : ArcField) ∈ _)
      obtain ⟨header, hheader, heq⟩ := mem_map.1 hfield
      obtain rfl : header = ⟨kind, i + 1, chain[i].value kind⟩ := RawHeader.field_injective heq
      exact hheader
    have hlength : slots.length = chain.length := by
      obtain ⟨last, hlast, hnumber⟩ := hlast
      obtain ⟨i, hi, hsome⟩ := hchain.number_of_mem (mem_map_of_mem hlast)
      have hlt : chain.length - 1 < chain.length := Nat.sub_one_lt_of_lt hchain.one_le
      have hplaced := (h.placed _ (hmem _ hlt .arcSeal)).2
      have hlast' : last.number = i + 1 := Option.some.inj hsome
      dsimp only at hplaced
      omega
    refine ⟨List.ext_getElem (by rw [hlength, length_map]) fun i hi hi' ↦ ?_, hchain.numbers⟩
    rw [List.getElem_map]
    funext kind
    rw [length_map] at hi'
    exact (h.holds i slots[i] (List.getElem?_eq_getElem hi) kind _).2 (hmem i hi' kind)

/-! ## Extraction is exact -/

theorem number_le_highest (h : header ∈ headers) :
    header.number ≤ (headers.map RawHeader.number).max?.getD 0 :=
  List.le_max?_getD_of_mem (mem_map_of_mem h)

theorem exists_highest (h : headers ≠ []) :
    ∃ header ∈ headers, header.number = (headers.map RawHeader.number).max?.getD 0 := by
  cases hmax : (headers.map RawHeader.number).max? with
  | none => exact absurd (map_eq_nil_iff.1 (List.max?_eq_none_iff.1 hmax)) h
  | some n => exact mem_map.1 (List.max?_mem hmax)

/-- Whether the highest number is good can be told from a chain, and from a field that comes
first. -/
theorem highest_of_isChain {chain : List Instance} (hne : headers ≠ [])
    (h : IsChain (headers.map RawHeader.field) chain) :
    (headers.map RawHeader.number).max?.getD 0 = chain.length := by
  obtain ⟨field, hfield, hlast⟩ := h.exists_last
  obtain ⟨header, hheader, rfl⟩ := mem_map.1 hfield
  have hle := number_le_highest hheader
  obtain ⟨top, htop, hhighest⟩ := exists_highest hne
  obtain ⟨i, hi, hnumber⟩ := h.number_of_mem (mem_map_of_mem htop)
  have hlast' : header.number = chain.length := Option.some.inj hlast
  have hnumber' : top.number = i + 1 := Option.some.inj hnumber
  omega

theorem highest_of_zeroFirst (hne : headers ≠ []) (h : ZeroFirst (headers.map RawHeader.field)) :
    (headers.map RawHeader.number).max?.getD 0 ≠ 0 ∧
      (headers.map RawHeader.number).max?.getD 0 ≤ maxInstance := by
  obtain ⟨field, hfield, n, hn, hnumber⟩ := h.positive
  obtain ⟨header, hheader, rfl⟩ := mem_map.1 hfield
  obtain ⟨top, htop, hhighest⟩ := exists_highest hne
  obtain ⟨m, hm, htop'⟩ := h.le_max _ (mem_map_of_mem htop)
  have hle := number_le_highest hheader
  have hnumber' : header.number = n := Option.some.inj hnumber
  have htop'' : top.number = m := Option.some.inj htop'
  omega

theorem not_zeroFirst_of_repeated {before after : List RawHeader}
    (hmem : header.key ∈ before.map RawHeader.key) (hpos : ∀ x ∈ before ++ [header], x.number ≠ 0) :
    ¬ZeroFirst ((before ++ header :: after).map RawHeader.field) := by
  rintro ⟨-, -, fore, field, aft, hsplit, hzero, hnodup⟩
  obtain ⟨fore, rest, hheaders, rfl, hrest⟩ := List.map_eq_append_iff.1 hsplit
  obtain ⟨zero, aft, rfl, rfl, -⟩ := List.map_eq_cons_iff.1 hrest
  rw [nodup_key_iff] at hnodup
  have hnumber : zero.number = 0 := Option.some.inj hzero
  rw [append_cons before, List.append_eq_append_iff] at hheaders
  rcases hheaders with ⟨more, rfl, -⟩ | ⟨more, hbefore, hafter⟩
  · -- the repetition is among the fields before
    rw [map_append, map_append, map_singleton] at hnodup
    exact List.disjoint_of_nodup_append hnodup.of_append_left hmem mem_cons_self
  · cases more with
    | nil =>
      rw [append_nil] at hbefore
      rw [← hbefore, map_append, map_singleton] at hnodup
      exact List.disjoint_of_nodup_append hnodup hmem mem_cons_self
    | cons first more =>
      obtain ⟨rfl, -⟩ := List.cons.inj hafter
      refine hpos zero ?_ hnumber
      rw [hbefore]
      exact List.mem_append_right _ mem_cons_self

theorem ne_of_arcHeaders_error {error : ChainError} (h : arcHeaders raw = .error error)
    {fields : List ArcField} (hread : ∀ field ∈ fields, ∃ n, field.number = some n) :
    arcFields raw ≠ some fields := by
  obtain ⟨headers, rfl⟩ := exists_headers hread
  intro hfields
  rw [← arcHeaders_eq_ok, h] at hfields
  cases hfields

/-- The slots for the fields of a message, and what becomes of them. -/
theorem extract_eq (h : arcHeaders raw = .ok headers)
    (hne : headers ≠ []) (hpos : (headers.map RawHeader.number).max?.getD 0 ≠ 0)
    (hle : (headers.map RawHeader.number).max?.getD 0 ≤ maxInstance) :
    extract raw = (bucket (List.replicate ((headers.map RawHeader.number).max?.getD 0) fun _ ↦ none)
      headers).map fun slots ↦ slots.bind fun slots ↦ (collect 0 slots).map some := by
  rw [extract, h]
  dsimp only
  rw [if_neg (by simpa using hne), if_neg (by rw [not_or, not_lt]; exact ⟨hpos, hle⟩)]

private theorem map_some_eq_ok {chain : List Instance} :
    r.map some = .ok (some chain) ↔ r = .ok chain := by
  cases r <;> simp [Except.map]

private theorem map_some_ne_ok_none :
    r.map some ≠ .ok none := by
  cases r <;> simp [Except.map]

theorem not_zeroFirst_of_isChain {fields : List ArcField} {chain : List Instance}
    (h : IsChain fields chain) : ¬ZeroFirst fields := by
  rintro ⟨-, -, before, field, after, rfl, hzero, -⟩
  obtain ⟨i, -, hi⟩ := h.number_of_mem (List.mem_append_right before mem_cons_self)
  rw [hzero] at hi
  exact absurd (Option.some.inj hi) (by omega)

/-- **The program panics on a field with the number 0**, if it gets to it. Else what is extracted is
what the fields say. -/
theorem extract_spec (raw : Bytes) :
    (extract raw = none ↔ ∃ fields, arcFields raw = some fields ∧ ZeroFirst fields) ∧
      (∀ chain, extract raw = some (.ok (some chain)) ↔
        ∃ fields, arcFields raw = some fields ∧ IsChain fields chain) ∧
      (extract raw = some (.ok none) ↔ arcFields raw = some []) := by
  cases hheaders : arcHeaders raw with
  | error error =>
    have hextract : extract raw = some (.error error) := by simp [extract, hheaders]
    rw [hextract]
    refine ⟨iff_of_false (by simp) ?_, fun chain ↦ iff_of_false (by simp) ?_,
      iff_of_false (by simp) (ne_of_arcHeaders_error hheaders (by simp))⟩
    · rintro ⟨fields, hfields, hzero⟩
      refine ne_of_arcHeaders_error hheaders (fun field hfield ↦ ?_) hfields
      obtain ⟨n, -, hn⟩ := hzero.le_max field hfield
      exact ⟨n, hn⟩
    · rintro ⟨fields, hfields, hchain⟩
      refine ne_of_arcHeaders_error hheaders (fun field hfield ↦ ?_) hfields
      obtain ⟨i, -, hi⟩ := hchain.number_of_mem hfield
      exact ⟨i + 1, hi⟩
  | ok headers =>
    rw [arcHeaders_eq_ok.1 hheaders]
    simp only [Option.some.injEq, exists_eq_left', map_eq_nil_iff]
    by_cases hempty : headers = []
    · have hextract : extract raw = some (.ok none) := by simp [extract, hheaders, hempty]
      rw [hextract, hempty]
      refine ⟨iff_of_false (by simp) fun hzero ↦ ?_,
        fun chain ↦ iff_of_false (by simp) fun hchain ↦ ?_, iff_of_true rfl rfl⟩
      · obtain ⟨field, hfield, -⟩ := hzero.positive
        cases hfield
      · obtain ⟨field, hfield, -⟩ := hchain.exists_last
        cases hfield
    by_cases hbad : (headers.map RawHeader.number).max?.getD 0 = 0 ∨
        (headers.map RawHeader.number).max?.getD 0 > maxInstance
    · have hextract : extract raw = some (.error .badInstance) := by
        simp [extract, hheaders, hempty, hbad]
      rw [hextract]
      refine ⟨iff_of_false (by simp) fun hzero ↦ ?_,
        fun chain ↦ iff_of_false (by simp) fun hchain ↦ ?_, iff_of_false (by simp) hempty⟩
      · have hgood := highest_of_zeroFirst hempty hzero
        omega
      · rw [highest_of_isChain hempty hchain] at hbad
        have hone := hchain.one_le
        have hle := hchain.le_max
        omega
    rw [not_or, not_lt] at hbad
    rw [extract_eq hheaders hempty hbad.1 hbad.2]
    obtain ⟨hrun, before, zero, after, hsplit, hzero, hnodup⟩ |
        ⟨hrun, before, again, after, rfl, hmem, hpos⟩ | ⟨slots, hrun, hlength, hfilled⟩ :=
      bucket_cases (filled_empty ((headers.map RawHeader.number).max?.getD 0)) headers
        (fun header hheader ↦ by
          rw [List.length_replicate]
          exact number_le_highest hheader)
    · have hfirst : ZeroFirst (headers.map RawHeader.field) := by
        refine ⟨fun field hfield ↦ ?_, ?_, ?_⟩
        · obtain ⟨header, hheader, rfl⟩ := mem_map.1 hfield
          exact ⟨header.number, (number_le_highest hheader).trans hbad.2, rfl⟩
        · obtain ⟨top, htop, hhighest⟩ := exists_highest hempty
          exact ⟨_, mem_map_of_mem htop, top.number, by omega, rfl⟩
        · refine ⟨before.map RawHeader.field, zero.field, after.map RawHeader.field, ?_, ?_, ?_⟩
          · rw [hsplit, map_append, map_cons]
          · rw [RawHeader.field, hzero]
          · exact nodup_key_iff.2 hnodup
      rw [hrun]
      exact ⟨iff_of_true rfl hfirst, fun chain ↦ iff_of_false (by simp) fun hchain ↦
        not_zeroFirst_of_isChain hchain hfirst, iff_of_false (by simp) hempty⟩
    · rw [hrun]
      refine ⟨iff_of_false (by simp) (not_zeroFirst_of_repeated hmem hpos), fun chain ↦
        iff_of_false (by simp [Except.bind]) fun hchain ↦ ?_,
        iff_of_false (by simp [Except.bind]) hempty⟩
      have hnodup := nodup_key_iff.1 hchain.distinct
      rw [map_append, map_cons] at hnodup
      exact List.disjoint_of_nodup_append hnodup hmem mem_cons_self
    · rw [List.length_replicate] at hlength
      have hlast : ∃ header ∈ headers, header.number = slots.length := by
        rw [hlength]
        exact exists_highest hempty
      rw [hrun]
      simp only [Option.map_some, Option.some.injEq]
      refine ⟨iff_of_false (by simp) ?_, fun chain ↦ ?_, iff_of_false map_some_ne_ok_none hempty⟩
      · rintro ⟨-, -, before, field, after, hsplit, hzero, -⟩
        have hmem : field ∈ headers.map RawHeader.field :=
          hsplit ▸ List.mem_append_right before mem_cons_self
        obtain ⟨header, hheader, rfl⟩ := mem_map.1 hmem
        have hnumber : header.number = 0 := Option.some.inj hzero
        have := (hfilled.placed header hheader).1
        omega
      · exact map_some_eq_ok.trans (collect_eq_ok_iff_isChain hfilled hlast (hlength ▸ hbad.2))

theorem extract_eq_ok_iff {chain : List Instance} :
    extract raw = some (.ok (some chain)) ↔ ∃ fields, arcFields raw = some fields ∧
      IsChain fields chain :=
  (extract_spec raw).2.1 chain

/-- **Extraction is total and exact, unless a field with the number 0 comes first.** -/
theorem exact_iff (raw : Bytes) :
    Exact raw ↔ ∀ fields, arcFields raw = some fields → ¬ZeroFirst fields := by
  have hnone : (∀ fields, arcFields raw = some fields → ¬ZeroFirst fields) ↔
    extract raw ≠ none := by
    rw [ne_eq, (extract_spec raw).1]
    push Not
    exact .rfl
  rw [hnone, Option.ne_none_iff_exists']
  constructor
  · rintro ⟨result, h, -⟩
    exact ⟨result, h⟩
  · rintro ⟨result, h⟩
    have hspec := (extract_spec raw).2
    rw [h] at hspec
    exact ⟨result, h, by simpa only [Option.some.injEq] using hspec⟩

example : extract (encodeUtf8 (["From: a\r\nARC-Seal: i=1;\r\n\tb=x\r\n",
      "Arc-Message-Signature : i=1\r\n", "ARC-Authentication-Results:i=1; a\r\n",
      "\r\nARC-Seal: i=7\r\n"].flatMap String.toList)) =
    some (.ok (some [⟨1, "i=1; a".toList, "i=1".toList, "i=1;\tb=x".toList⟩])) := by
  decide +kernel

/-- A field with the number 0 before one with the number 1. -/
def zeroed : Bytes := encodeUtf8 "ARC-Seal: i=0\r\nARC-Seal: i=1\r\n\r\n".toList

theorem not_exact_zeroed : extract zeroed = none ∧ ¬Exact zeroed := by
  have hpanic : extract zeroed = none := by decide +kernel
  refine ⟨hpanic, ?_⟩
  rintro ⟨result, h, -⟩
  rw [hpanic] at h
  cases h

end Epistle.Arc
