import Epistle.Effects.Crash
import Epistle.Interleaving.Machine
import Epistle.Storage.Spool

/-!
# The spool in files

An entry is two files in `new/`: the message and, next to it, the envelope. Files are written in
`tmp/` and renamed into place, the envelope last, and the envelope is the first to be removed. The
entries are the envelopes that are there.

So a call that is cut short leaves the entries as they were or as the call makes them
(`Represents.atomic`), and the files are a spool after every run (`crashSafe_of_counted`). What a
run can do is wind the attempts back to zero (`wound_back`): they are counted in 32 bits.
-/

namespace Epistle.Storage

open TextFormat Effects Interleaving
open Spool (entryOf load_store load_remove load_rewrite)
open Function (update_of_ne update_self)

/-- How entries are written, as contents `κ` of files. -/
structure Codec (κ : Type) where
  /-- `MessageCrypto::encode`, with a fresh nonce. -/
  encode : Bytes → Bytes → κ
  decode : κ → Option Bytes
  toJson : Envelope → κ
  fromJson : κ → Option Envelope
  decode_encode : ∀ nonce data, decode (encode nonce data) = some data
  fromJson_toJson : ∀ envelope, fromJson (toJson envelope) = some envelope

/-- Contents that are the data or the envelope themselves. -/
def Codec.plain : Codec (Bytes ⊕ Envelope) where
  encode := fun _ data ↦ .inl data
  decode := Sum.getLeft?
  toJson := .inr
  fromJson := Sum.getRight?
  decode_encode := fun _ _ ↦ rfl
  fromJson_toJson := fun _ ↦ rfl

namespace FsSpool

inductive Folder
  | tmp
  | new
  deriving DecidableEq

abbrev Path : Type := Folder × Text

def emlName (id : Uuid) : Text := id.toText ++ ".eml".toList

def jsonName (id : Uuid) : Text := id.toText ++ ".json".toList

variable {κ : Type} (codec : Codec κ)

def load (id : Uuid) (files : Files Path κ) : Option SpoolEntry := do
  let json ← files.lookup (.new, jsonName id)
  let envelope ← codec.fromJson json
  let message ← files.lookup (.new, emlName id)
  let data ← codec.decode message
  pure ⟨envelope, data⟩

def idOf (name : Text) : Option Uuid :=
  if ".json".toList.isSuffixOf name then Uuid.parseStr (name.take (name.length - 5)) else none

/-- The ids of the entries, the oldest first. -/
def list (files : Files Path κ) : List Uuid :=
  (files.keys.filterMap fun path ↦ if path.1 = .new then
    idOf path.2 else none).insertionSort (· ≤ ·)

def rewriteSteps (id : Uuid) (envelope : Envelope) : List (FileStep Path κ) :=
  [.write (.tmp, jsonName id) (codec.toJson envelope),
    .rename (.tmp, jsonName id) (.new, jsonName id)]

inductive Call
  | store (id : Uuid) (nonce : Bytes) (message : Smtp.AcceptedMessage)
  | recordAttempt (id : Uuid) (nextAttempt : ℕ)
  | markDelayWarned (id : Uuid)
  | remove (id : Uuid)
  deriving DecidableEq

def Call.drawn : Call → Option Uuid
  | .store id _ _ => some id
  | _ => none

def Call.attempted : Call → Option Uuid
  | .recordAttempt id _ => some id
  | _ => none

/-- What a call does to the files, unless it fails before it does anything. -/
def Call.steps (files : Files Path κ) : Call → Option (List (FileStep Path κ))
  | .store id nonce message => some
    [.write (.tmp, emlName id) (codec.encode nonce message.data),
      .write (.tmp, jsonName id) (codec.toJson (entryOf id message).envelope),
      .rename (.tmp, emlName id) (.new, emlName id),
      .rename (.tmp, jsonName id) (.new, jsonName id)]
  | .recordAttempt id nextAttempt => (load codec id files).map fun entry ↦
    rewriteSteps codec id (entry.envelope.attempted nextAttempt)
  | .markDelayWarned id => (load codec id files).map fun entry ↦
    rewriteSteps codec id entry.envelope.warned
  | .remove id => some [.unlink (.new, jsonName id), .unlink (.new, emlName id)]

/-- The files after a call, and whether it returned `Ok`. -/
def Call.perform (crash : Option (Crash κ)) (files : Files Path κ) (call : Call) :
    Files Path κ × Bool :=
  match call.steps codec files with
  | none => (files, false)
  | some steps => Effects.perform crash steps files

/-- What a call makes of the entries. -/
def Call.apply (spool : Spool) : Call → Spool
  | .store id _ message => spool.store id message
  | .recordAttempt id nextAttempt => spool.recordAttempt id nextAttempt
  | .markDelayWarned id => spool.markDelayWarned id
  | .remove id => spool.remove id

/-! ## Names -/

theorem toText_append_injective (ending : Text) :
    Function.Injective fun id : Uuid ↦ id.toText ++ ending := by
  intro id id' h
  have htext := List.append_cancel_right h
  exact Option.some.inj ((Uuid.parseStr_toText id).symm.trans
    ((congrArg Uuid.parseStr htext).trans (Uuid.parseStr_toText id')))

theorem jsonName_injective : Function.Injective jsonName := toText_append_injective _

theorem emlName_injective : Function.Injective emlName := toText_append_injective _

theorem getLast?_emlName (id : Uuid) : (emlName id).getLast? = some 'l' := by
  simp [emlName]

theorem getLast?_jsonName (id : Uuid) : (jsonName id).getLast? = some 'n' := by
  simp [jsonName]

theorem emlName_ne_jsonName (id id' : Uuid) : emlName id ≠ jsonName id' := by
  intro h
  have hlast := congrArg List.getLast? h
  rw [getLast?_emlName, getLast?_jsonName] at hlast
  exact absurd hlast (by decide)

theorem idOf_jsonName (id : Uuid) : idOf (jsonName id) = some id := by
  simp [idOf, jsonName, Uuid.parseStr_toText]

theorem idOf_emlName (id : Uuid) : idOf (emlName id) = none := by
  rw [idOf, if_neg]
  intro h
  obtain ⟨stem, hstem⟩ := List.isSuffixOf_iff_suffix.mp h
  have hlast := congrArg List.getLast? hstem
  rw [getLast?_emlName] at hlast
  simp at hlast

/-! ## The folder that counts -/

/-- What is in `new/`. -/
def visible (files : Files Path κ) (name : Text) : Option κ := files.lookup (.new, name)

section

variable (files : Files Path κ) (name : Text)

@[simp] theorem visible_insert_tmp (content : κ) :
    visible (files.insert (.tmp, name) content) = visible files := by
  funext other
  exact AList.lookup_insert_ne (by simp)

@[simp] theorem visible_insert_new (content : κ) :
    visible (files.insert (.new, name) content) =
      Function.update (visible files) name (some content) := by
  funext other
  by_cases h : other = name
  · subst h
    simp [visible]
  · rw [update_of_ne h]
    exact AList.lookup_insert_ne (by simpa using h)

@[simp] theorem visible_erase_tmp : visible (files.erase (.tmp, name)) = visible files := by
  funext other
  exact AList.lookup_erase_ne (by simp)

@[simp] theorem visible_erase_new :
    visible (files.erase (.new, name)) = Function.update (visible files) name none := by
  funext other
  by_cases h : other = name
  · subst h
    simp [visible]
  · rw [update_of_ne h]
    exact AList.lookup_erase_ne (by simpa using h)

end

/-- The files in `new/` are the entries of a spool, and messages without an envelope. -/
structure Represents (view : Text → Option κ) (spool : Spool) : Prop where
  names : ∀ name, (view name).isSome = true → ∃ id, name = emlName id ∨ name = jsonName id
  entry : ∀ id entry, spool.load id = some entry →
    (view (jsonName id)).bind codec.fromJson = some entry.envelope ∧
      (view (emlName id)).bind codec.decode = some entry.data
  absent : ∀ id, spool.load id = none → view (jsonName id) = none

variable {codec} {view : Text → Option κ} {spool : Spool} {files : Files Path κ}

section

variable (h : Represents codec (visible files) spool) (id : Uuid)
include h

theorem Represents.load_eq : load codec id files = spool.load id := by
  cases hload : spool.load id with
  | none =>
    have habsent := h.absent id hload
    rw [visible] at habsent
    simp [load, habsent]
  | some entry =>
    obtain ⟨henvelope, hdata⟩ := h.entry id entry hload
    obtain ⟨json, hjson, henvelope⟩ := Option.bind_eq_some_iff.mp henvelope
    obtain ⟨message, hmessage, hdata⟩ := Option.bind_eq_some_iff.mp hdata
    rw [visible] at hjson hmessage
    simp [load, hjson, henvelope, hmessage, hdata]

theorem Represents.mem_list : id ∈ list files ↔ (spool.load id).isSome = true := by
  have hlist : id ∈ list files ↔ (visible files (jsonName id)).isSome = true := by
    rw [list, List.mem_insertionSort, List.mem_filterMap]
    constructor
    · rintro ⟨⟨folder, name⟩, hkey, hid⟩
      split at hid
      · rename_i hnew
        obtain rfl : folder = .new := hnew
        have hvisible : (visible files name).isSome = true := AList.lookup_isSome.mpr hkey
        obtain ⟨other, rfl | rfl⟩ := h.names name hvisible
        · rw [idOf_emlName] at hid
          exact absurd hid nofun
        · rw [idOf_jsonName] at hid
          obtain rfl := Option.some.inj hid
          exact hvisible
      · exact absurd hid nofun
    · intro hvisible
      exact ⟨(.new, jsonName id), AList.lookup_isSome.mp hvisible, idOf_jsonName id⟩
  rw [hlist]
  cases hload : spool.load id with
  | none => simp [h.absent id hload]
  | some entry =>
    obtain ⟨json, hjson, -⟩ := Option.bind_eq_some_iff.mp (h.entry id entry hload).1
    simp [hjson]

end

/-! ## What the steps do to the entries -/

variable {id : Uuid} {entry : SpoolEntry}

section

variable (h : Represents codec view spool)
include h

theorem Represents.update_eml (hid : spool.load id = none) (content : Option κ) :
    Represents codec (Function.update view (emlName id) content) spool := by
  constructor
  · intro name hname
    by_cases heq : name = emlName id
    · exact ⟨id, .inl heq⟩
    · rw [update_of_ne heq] at hname
      exact h.names name hname
  · intro other entry hentry
    have hne : other ≠ id := by
      rintro rfl
      rw [hid] at hentry
      exact absurd hentry nofun
    rw [update_of_ne (emlName_ne_jsonName id other).symm,
      update_of_ne (emlName_injective.ne hne)]
    exact h.entry other entry hentry
  · intro other hother
    rw [update_of_ne (emlName_ne_jsonName id other).symm]
    exact h.absent other hother

theorem Represents.update_json (spool' : Spool) (id : Uuid) (entry : SpoolEntry)
    (hmessage : (view (emlName id)).bind codec.decode = some entry.data)
    (hid : spool'.load id = some entry)
    (hother : ∀ other ≠ id, spool'.load other = spool.load other) :
    Represents codec
      (Function.update view (jsonName id) (some (codec.toJson entry.envelope))) spool' := by
  constructor
  · intro name hname
    by_cases heq : name = jsonName id
    · exact ⟨id, .inr heq⟩
    · rw [update_of_ne heq] at hname
      exact h.names name hname
  · intro other entry' hentry
    rw [update_of_ne (emlName_ne_jsonName other id)]
    by_cases heq : other = id
    · subst heq
      obtain rfl := Option.some.inj (hid.symm.trans hentry)
      rw [update_self, Option.bind_some]
      exact ⟨codec.fromJson_toJson entry.envelope, hmessage⟩
    · rw [update_of_ne (jsonName_injective.ne heq)]
      rw [hother other heq] at hentry
      exact h.entry other entry' hentry
  · intro other hnone
    have hne : other ≠ id := by
      rintro rfl
      rw [hid] at hnone
      exact absurd hnone nofun
    rw [update_of_ne (jsonName_injective.ne hne)]
    rw [hother other hne] at hnone
    exact h.absent other hnone

theorem Represents.erase_json (id : Uuid) :
    Represents codec (Function.update view (jsonName id) none) (spool.remove id) := by
  constructor
  · intro name hname
    by_cases heq : name = jsonName id
    · exact ⟨id, .inr heq⟩
    · rw [update_of_ne heq] at hname
      exact h.names name hname
  · intro other entry hentry
    rw [load_remove] at hentry
    split at hentry
    · exact absurd hentry nofun
    · rename_i hne
      rw [update_of_ne (jsonName_injective.ne hne),
        update_of_ne (emlName_ne_jsonName other id)]
      exact h.entry other entry hentry
  · intro other hnone
    by_cases heq : other = id
    · rw [heq, update_self]
    · rw [update_of_ne (jsonName_injective.ne heq)]
      rw [load_remove, if_neg heq] at hnone
      exact h.absent other hnone

end

/-! ## Calls -/

/-- The entries are those before the call or those after it. -/
def Atomic (codec : Codec κ) (spool spool' : Spool) (files : Files Path κ) : Prop :=
  Represents codec (visible files) spool ∨ Represents codec (visible files) spool'

section

variable (h : Represents codec (visible files) spool)
include h

theorem survives_store (hfresh : spool.load id = none) (nonce : Bytes)
    (message : Smtp.AcceptedMessage) :
    Survives (fun files ↦ Represents codec (visible files) (spool.store id message))
      (Atomic codec spool (spool.store id message))
      [.write (.tmp, emlName id) (codec.encode nonce message.data),
        .write (.tmp, jsonName id) (codec.toJson (entryOf id message).envelope),
        .rename (.tmp, emlName id) (.new, emlName id),
        .rename (.tmp, jsonName id) (.new, jsonName id)] files := by
  have hne : emlName id ≠ jsonName id := emlName_ne_jsonName id id
  refine .write (.inl h) (fun _ ↦ .inl (by simpa using h)) ?_
  refine .write (.inl (by simpa using h)) (fun _ ↦ .inl (by simpa using h)) ?_
  refine .rename (c := codec.encode nonce message.data) ?_ (.inl (by simpa using h)) ?_
  · rw [AList.lookup_insert_ne (by simpa using hne), AList.lookup_insert]
  refine .rename (c := codec.toJson (entryOf id message).envelope) ?_
    (.inl (by simpa using h.update_eml hfresh _)) ?_
  · rw [AList.lookup_insert_ne (by simp), AList.lookup_erase_ne (by simpa using hne.symm),
      AList.lookup_insert]
  · have hstored := (h.update_eml hfresh (some (codec.encode nonce message.data))).update_json
      (spool.store id message) id (entryOf id message) ?_ ?_ ?_
    · simpa [Survives] using hstored
    · rw [update_self, Option.bind_some]
      exact codec.decode_encode nonce message.data
    · rw [load_store, hfresh, if_pos rfl]
      rfl
    · intro other hother
      rw [load_store, if_neg hother.symm, Option.or_none]

theorem survives_rewrite (hentry : spool.load id = some entry) (f : Envelope → Envelope)
    (hf : ∀ envelope, (f envelope).id = envelope.id) :
    Survives (fun files ↦ Represents codec (visible files) (spool.rewrite id f))
      (Atomic codec spool (spool.rewrite id f))
        (rewriteSteps codec id (f entry.envelope)) files := by
  refine .write (.inl h) (fun _ ↦ .inl (by simpa using h)) ?_
  refine .rename (c := codec.toJson (f entry.envelope)) ?_ (.inl (by simpa using h)) ?_
  · rw [AList.lookup_insert]
  · have hrewritten := h.update_json (spool.rewrite id f) id
      { entry with envelope := f entry.envelope } (h.entry id entry hentry).2 ?_ ?_
    · simpa [Survives] using hrewritten
    · rw [load_rewrite hf, hentry, Option.map_some, if_pos rfl]
    · intro other hother
      rw [load_rewrite hf]
      simp [hother]

theorem survives_remove (id : Uuid) :
    Survives (fun files ↦ Represents codec (visible files) (spool.remove id))
      (Atomic codec spool (spool.remove id))
      [.unlink (.new, jsonName id), .unlink (.new, emlName id)] files := by
  have hgone : Represents codec (visible (files.erase (.new, jsonName id))) (spool.remove id) := by
    simpa using h.erase_json id
  refine .unlink (.inl h) (.unlink (.inr hgone) ?_)
  have hnone : (spool.remove id).load id = none := by rw [load_remove, if_pos rfl]
  simpa [Survives] using hgone.update_eml hnone none

/-- **Calls are atomic.** Whenever a call is cut short, the entries are as before or as after it. If
it returns `Ok`, they are as after it. -/
theorem Represents.atomic (crash : Option (Crash κ)) (call : Call)
    (hfresh : ∀ id ∈ call.drawn, spool.load id = none) :
    Atomic codec spool (call.apply spool) (call.perform codec crash files).1 ∧
      ((call.perform codec crash files).2 = true →
        Represents codec (visible (call.perform codec crash files).1) (call.apply spool)) := by
  have hsteps : ∀ steps, call.steps codec files = some steps →
      Survives (fun files ↦ Represents codec (visible files) (call.apply spool))
        (Atomic codec spool (call.apply spool)) steps files := by
    intro steps hsteps
    cases call with
    | store id nonce message =>
      obtain rfl := Option.some.inj hsteps
      exact survives_store h (hfresh id rfl) nonce message
    | recordAttempt id nextAttempt =>
      obtain ⟨entry, hentry, rfl⟩ := Option.map_eq_some_iff.mp hsteps
      exact survives_rewrite h ((h.load_eq id).symm.trans hentry) (.attempted nextAttempt)
        fun _ ↦ rfl
    | markDelayWarned id =>
      obtain ⟨entry, hentry, rfl⟩ := Option.map_eq_some_iff.mp hsteps
      exact survives_rewrite h ((h.load_eq id).symm.trans hentry) .warned fun _ ↦ rfl
    | remove id =>
      obtain rfl := Option.some.inj hsteps
      exact survives_remove h id
  unfold Call.perform
  split
  · exact ⟨.inl h, nofun⟩
  · rename_i steps heq
    obtain ⟨hdone, hcut⟩ := perform_of_survives (hsteps steps heq) crash
    refine ⟨?_, hdone⟩
    cases hok : (Effects.perform crash steps files).2 with
    | true => exact .inr (hdone hok)
    | false => exact hcut hok

end

/-- The calls so far, whether they returned `Ok`, and the files before and after the last one. -/
structure World (κ : Type) where
  files : Files Path κ
  previous : Files Path κ
  history : List (Call × Bool)

def World.empty : World κ := ⟨∅, ∅, []⟩

structure Event (κ : Type) where
  call : Call
  crash : Option (Crash κ)

/-- The spool under calls and crashes. Each `store` draws an id of its own. -/
def machine (codec : Codec κ) : Machine (World κ) (Event κ) where
  enabled := fun w event ↦ ∀ id ∈ event.call.drawn, ∀ call ∈ w.history, call.1.drawn ≠ some id
  step := fun w event ↦
    let after := event.call.perform codec event.crash w.files
    ⟨after.1, w.files, w.history ++ [(event.call, after.2)]⟩

/-- The message was given to `store`, which drew this id. -/
def Given (history : List (Call × Bool)) (id : Uuid) (message : Smtp.AcceptedMessage) : Prop :=
  ∃ nonce ok, (Call.store id nonce message, ok) ∈ history

/-- What has been noted on an envelope is not forgotten. -/
def NoLess (old envelope : Envelope) : Prop :=
  old.attempts ≤ envelope.attempts ∧ (old.delayWarned = true → envelope.delayWarned = true)

theorem NoLess.refl (envelope : Envelope) : NoLess envelope envelope :=
  ⟨le_rfl, fun hwarned ↦ hwarned⟩

/-- What a crash must not do: every id that is listed can be loaded, with the message that was
stored and with nothing forgotten in the last call; and what was stored and not removed is
listed. -/
structure CrashSafe (codec : Codec κ) (w : World κ) : Prop where
  loads : ∀ id ∈ list w.files, ∃ entry, load codec id w.files = some entry ∧
    (∃ message, Given w.history id message ∧ (entryOf id message).SameMessage entry) ∧
    ∀ old, load codec id w.previous = some old → NoLess old.envelope entry.envelope
  listed : ∀ id nonce message, (Call.store id nonce message, true) ∈ w.history →
    (∀ ok, (Call.remove id, ok) ∉ w.history) → id ∈ list w.files

/-- No attempt is recorded that 32 bits cannot count. -/
def Counted (codec : Codec κ) (w : World κ) (event : Event κ) : Prop :=
  ∀ id ∈ event.call.attempted, ∀ entry ∈ load codec id w.files, entry.envelope.attempts + 1 < 2 ^ 32

instance (codec : Codec κ) (w : World κ) (event : Event κ) : Decidable (Counted codec w event) :=
  by delta Counted; infer_instance

instance (codec : Codec κ) (w : World κ) (event : Event κ) :
    Decidable ((machine codec).enabled w event) :=
  inferInstanceAs (Decidable (∀ id ∈ event.call.drawn, ∀ call ∈ w.history, call.1.drawn ≠ some id))

theorem Call.load_apply {call : Call} (h : (call.apply spool).load id = some entry) :
    (∃ old, spool.load id = some old ∧ old.SameMessage entry ∧
      ((call.attempted = some id → old.envelope.attempts + 1 < 2 ^ 32) →
        NoLess old.envelope entry.envelope)) ∨
      ∃ nonce message, call = .store id nonce message ∧ entry = entryOf id message := by
  cases call with
  | store other nonce message =>
    rw [Call.apply, load_store] at h
    cases hold : spool.load id with
    | some old =>
      rw [hold] at h
      obtain rfl : old = entry := Option.some.inj h
      exact .inl ⟨old, rfl, .refl old, fun _ ↦ .refl _⟩
    | none =>
      rw [hold, Option.none_or] at h
      split at h
      · rename_i heq
        subst heq
        exact .inr ⟨nonce, message, rfl, (Option.some.inj h).symm⟩
      · exact absurd h nofun
  | recordAttempt other nextAttempt =>
    left
    obtain ⟨old, hold, rfl | ⟨rfl, rfl⟩⟩ :=
      Spool.load_rewrite_cases (f := .attempted nextAttempt) (fun _ ↦ rfl) h
    · exact ⟨entry, hold, .refl entry, fun _ ↦ .refl _⟩
    · refine ⟨old, hold, ⟨rfl, rfl, rfl, rfl, rfl, rfl⟩, fun hcounted ↦ ⟨?_, fun hwarned ↦ hwarned⟩⟩
      change old.envelope.attempts ≤ (old.envelope.attempts + 1) % 2 ^ 32
      rw [Nat.mod_eq_of_lt (hcounted rfl)]
      exact Nat.le_succ _
  | markDelayWarned other =>
    left
    obtain ⟨old, hold, rfl | ⟨rfl, rfl⟩⟩ :=
      Spool.load_rewrite_cases (f := .warned) (fun _ ↦ rfl) h
    · exact ⟨entry, hold, .refl entry, fun _ ↦ .refl _⟩
    · exact ⟨old, hold, ⟨rfl, rfl, rfl, rfl, rfl, rfl⟩, fun _ ↦ ⟨le_rfl, fun _ ↦ rfl⟩⟩
  | remove other =>
    left
    rw [Call.apply, load_remove] at h
    split at h
    · exact absurd h nofun
    · exact ⟨entry, h, .refl entry, fun _ ↦ .refl _⟩

theorem Call.isSome_load_apply {call : Call} (h : (spool.load id).isSome = true)
    (hremove : call ≠ .remove id) : ((call.apply spool).load id).isSome = true := by
  cases call with
  | store other nonce message =>
    rw [Call.apply, load_store]
    simp [h]
  | recordAttempt other nextAttempt =>
    rw [Call.apply, Spool.recordAttempt, load_rewrite, Option.isSome_map]
    · exact h
    · exact fun _ ↦ rfl
  | markDelayWarned other =>
    rw [Call.apply, Spool.markDelayWarned, load_rewrite, Option.isSome_map]
    · exact h
    · exact fun _ ↦ rfl
  | remove other =>
    rw [Call.apply, load_remove, if_neg]
    · exact h
    · rintro rfl
      exact hremove rfl

/-! ## Runs -/

/-- The entries that the files hold at the end of a run. -/
structure Holds (codec : Codec κ) (w : World κ) (spool : Spool) : Prop where
  files : Represents codec (visible w.files) spool
  given : ∀ id entry, spool.load id = some entry →
    ∃ message, Given w.history id message ∧ (entryOf id message).SameMessage entry
  kept : ∀ id nonce message, (Call.store id nonce message, true) ∈ w.history →
    (∀ ok, (Call.remove id, ok) ∉ w.history) → (spool.load id).isSome = true

theorem Given.append {history : List (Call × Bool)} {message : Smtp.AcceptedMessage}
    (h : Given history id message) (call : Call × Bool) : Given (history ++ [call]) id message := by
  obtain ⟨nonce, ok, hmem⟩ := h
  exact ⟨nonce, ok, List.mem_append_left _ hmem⟩

section

variable {w : World κ} (h : Holds codec w spool)
include h

theorem Holds.load_none (hfresh : ∀ call ∈ w.history, call.1.drawn ≠ some id) :
    spool.load id = none := by
  cases hload : spool.load id with
  | none => rfl
  | some entry =>
    obtain ⟨message, ⟨nonce, ok, hmem⟩, -⟩ := h.given id entry hload
    exact absurd rfl (hfresh _ hmem)

/-- After a call the files hold the entries from before it, or those from after it. -/
theorem Holds.step {event : Event κ} (henabled : (machine codec).enabled w event) :
    ∃ spool', Holds codec ((machine codec).step w event) spool' ∧
      (spool' = spool ∨ spool' = event.call.apply spool) := by
  have hfresh : ∀ id ∈ event.call.drawn, spool.load id = none :=
    fun id hdrawn ↦ h.load_none (henabled id hdrawn)
  have hcall : (event.call, (event.call.perform codec event.crash w.files).2) ∈
      ((machine codec).step w event).history := List.mem_append_right _ (List.mem_singleton_self _)
  obtain ⟨hatomic, hdone⟩ := h.files.atomic event.crash event.call hfresh
  -- the calls before this one, as long as it is not the one that removes the entry
  have hkept : ∀ id nonce message, (Call.store id nonce message, true) ∈ w.history →
      (∀ ok, (Call.remove id, ok) ∉ ((machine codec).step w event).history) →
        event.call ≠ .remove id ∧ (spool.load id).isSome = true := by
    intro id nonce message hstore hremove
    refine ⟨fun heq ↦ ?_,
      h.kept id nonce message hstore fun ok hmem ↦ hremove ok (List.mem_append_left _ hmem)⟩
    rw [heq] at hcall
    exact hremove _ hcall
  by_cases hafter : Represents codec (visible (event.call.perform codec event.crash w.files).1)
      (event.call.apply spool)
  · refine ⟨event.call.apply spool, ⟨hafter, ?_, ?_⟩, .inr rfl⟩
    · intro id entry hentry
      rcases Call.load_apply hentry with ⟨old, hold, hsame, -⟩ | ⟨nonce, message, heq, rfl⟩
      · obtain ⟨message, hgiven, holder⟩ := h.given id old hold
        exact ⟨message, hgiven.append _, holder.trans hsame⟩
      · rw [heq] at hcall
        exact ⟨message, ⟨nonce, _, hcall⟩, .refl _⟩
    · intro id nonce message hstore hremove
      rcases List.mem_append.mp hstore with hstore | hstore
      · obtain ⟨hne, hsome⟩ := hkept id nonce message hstore hremove
        exact Call.isSome_load_apply hsome hne
      · have heq : Call.store id nonce message = event.call :=
          congrArg Prod.fst (List.mem_singleton.mp hstore)
        rw [← heq, Call.apply, load_store, if_pos rfl]
        simp
  · have hok : (event.call.perform codec event.crash w.files).2 = false :=
      Bool.eq_false_iff.mpr fun hok ↦ hafter (hdone hok)
    refine ⟨spool, ⟨hatomic.resolve_right hafter, ?_, ?_⟩, .inl rfl⟩
    · intro id entry hentry
      obtain ⟨message, hgiven, hsame⟩ := h.given id entry hentry
      exact ⟨message, hgiven.append _, hsame⟩
    · intro id nonce message hstore hremove
      rcases List.mem_append.mp hstore with hstore | hstore
      · exact (hkept id nonce message hstore hremove).2
      · have htrue : true = (event.call.perform codec event.crash w.files).2 :=
          congrArg Prod.snd (List.mem_singleton.mp hstore)
        rw [hok] at htrue
        exact absurd htrue nofun

/-- The entries that the files hold are those that were stored and not removed. -/
theorem Holds.crashSafe (hlast : ∀ id entry old, spool.load id = some entry → load codec id
    w.previous = some old → NoLess old.envelope entry.envelope) : CrashSafe codec w := by
  constructor
  · intro id hid
    obtain ⟨entry, hentry⟩ := Option.isSome_iff_exists.mp ((h.files.mem_list id).mp hid)
    exact ⟨entry, (h.files.load_eq id).trans hentry, h.given id entry hentry,
      fun old hold ↦ hlast id entry old hentry hold⟩
  · intro id nonce message hstore hremove
    exact (h.files.mem_list id).mpr (h.kept id nonce message hstore hremove)

end

theorem holds_empty : Holds codec .empty [] where
  files := ⟨nofun, nofun, fun _ _ ↦ rfl⟩
  given := nofun
  kept := nofun

theorem holds_of_reach {guard : World κ → Event κ → Prop} {w : World κ}
    (hreach : (machine codec).Reach guard .empty w) : ∃ spool, Holds codec w spool := by
  refine Machine.Reach.invariant (I := fun w ↦ ∃ spool, Holds codec w spool) ⟨[],
    holds_empty⟩ ?_ hreach
  rintro w event ⟨spool, h⟩ henabled -
  obtain ⟨spool', h', -⟩ := h.step henabled
  exact ⟨spool', h'⟩

/-- **The spool survives crashes**, in every run of calls, each of them cut short anywhere or not at
all, in which no attempt is recorded that 32 bits cannot count. -/
theorem crashSafe_of_counted (codec : Codec κ) {w : World κ}
    (hreach : (machine codec).Reach (Counted codec) .empty w) : CrashSafe codec w := by
  cases hreach with
  | refl => exact holds_empty.crashSafe nofun
  | @step w event hreach henabled hcounted =>
    obtain ⟨spool, h⟩ := holds_of_reach hreach
    obtain ⟨spool', h', hspool⟩ := h.step henabled
    refine h'.crashSafe fun id entry old hentry hold ↦ ?_
    change load codec id w.files = some old at hold
    rw [h.files.load_eq] at hold
    rcases hspool with rfl | rfl
    · rw [Option.some.inj (hold.symm.trans hentry)]
      exact .refl _
    · rcases Call.load_apply hentry with ⟨before, hbefore, -, hless⟩ | ⟨nonce, message, hcall, -⟩
      · obtain rfl := Option.some.inj (hbefore.symm.trans hold)
        exact hless fun hattempted ↦
          hcounted id hattempted before ((h.files.load_eq id).trans hbefore)
      · have hnone : spool.load id = none := h.load_none (henabled id (by rw [hcall]; rfl))
        rw [hnone] at hold
        exact absurd hold nofun

/-! ## Attempts that cannot be counted -/

def note : Smtp.AcceptedMessage where
  reversePath := "s@b.net".toList
  recipients := ["u@x.org".toList]
  data := []
  requireTls := true
  mailbox := none
  noDsn := []

/-- Crashes in the middle of an envelope, before the envelope of a message is in place, and between
the two removals. -/
def crashes : List (Event (Bytes ⊕ Envelope)) :=
  [⟨.store (.ofNat 1) [] note, none⟩, ⟨.recordAttempt (.ofNat 1) 60, none⟩,
    ⟨.recordAttempt (.ofNat 1) 120, some ⟨0, some (.inl [])⟩⟩,
    ⟨.store (.ofNat 2) [] note, some ⟨3, none⟩⟩, ⟨.store (.ofNat 3) [] note, none⟩,
    ⟨.remove (.ofNat 3), some ⟨1, none⟩⟩]

theorem crashSafe_of_counted_crashes :
    let w := crashes.foldl (machine .plain).step .empty
    CrashSafe .plain w ∧ list w.files = [.ofNat 1] ∧
      (load .plain (.ofNat 1) w.files).map (·.envelope.attempts) = some 1 :=
  ⟨crashSafe_of_counted .plain (.of_passes (by decide)), by decide⟩

/-- **A run is a run of the spool.** Whatever crashes there were, the files show what the spool
holds after some of the calls, in their order: all that returned `Ok`, and some that were cut
short. -/
theorem shows_of_reach (codec : Codec κ) {w : World κ}
    (hreach : (machine codec).Reach (fun _ _ ↦ True) .empty w) :
    ∃ calls : List (Call × Bool), calls.Sublist w.history ∧
      (w.history.filter Prod.snd).Sublist calls ∧
      ∀ id, let shown := ((calls.map Prod.fst).foldl Call.apply []).load id
        load codec id w.files = shown ∧ (id ∈ list w.files ↔ shown.isSome = true) := by
  suffices h : ∃ calls : List (Call × Bool), calls.Sublist w.history ∧
      (w.history.filter Prod.snd).Sublist calls ∧
      Represents codec (visible w.files) ((calls.map Prod.fst).foldl Call.apply []) by
    obtain ⟨calls, hmade, hdone, hfiles⟩ := h
    exact ⟨calls, hmade, hdone, fun id ↦ ⟨hfiles.load_eq id, hfiles.mem_list id⟩⟩
  induction hreach with
  | refl => exact ⟨[], .slnil, .slnil, holds_empty.files⟩
  | @step w event hreach henabled _ ih =>
    obtain ⟨calls, hmade, hdone, hfiles⟩ := ih
    obtain ⟨spool, hholds⟩ := holds_of_reach hreach
    -- an id that no call has drawn is new to the calls that took effect
    obtain ⟨hatomic, hok⟩ := hfiles.atomic event.crash event.call fun id hdrawn ↦ by
      rw [← hfiles.load_eq, hholds.files.load_eq, hholds.load_none (henabled id hdrawn)]
    simp only [machine, List.filter_append]
    -- a call that was cut short took effect if the entries are those after it
    by_cases hafter : Represents codec (visible (event.call.perform codec event.crash w.files).1)
        (event.call.apply ((calls.map Prod.fst).foldl Call.apply []))
    · refine ⟨calls ++ [(event.call, _)], hmade.append (.refl _),
        hdone.append List.filter_sublist, ?_⟩
      rwa [List.map_append, List.foldl_append]
    · refine ⟨calls, hmade.trans (List.sublist_append_left _ _), ?_, hatomic.resolve_right hafter⟩
      simpa [Bool.eq_false_iff.mpr (hafter ∘ hok)] using hdone

theorem shows_of_reach_crashes :
    let w := crashes.foldl (machine .plain).step .empty
    ∃ calls : List (Call × Bool), calls.Sublist w.history ∧
      (w.history.filter Prod.snd).Sublist calls ∧
      ∀ id, let shown := ((calls.map Prod.fst).foldl Call.apply []).load id
        load .plain id w.files = shown ∧ (id ∈ list w.files ↔ shown.isSome = true) :=
  shows_of_reach .plain (.of_passes (by decide))

theorem load_recordAttempt {guard : World κ → Event κ → Prop} {w : World κ}
    (hreach : (machine codec).Reach guard .empty w)
    (hload : load codec id w.files = some entry) (nextAttempt : ℕ) :
    load codec id ((machine codec).step w ⟨.recordAttempt id nextAttempt, none⟩).files =
      some { entry with envelope := entry.envelope.attempted nextAttempt } := by
  obtain ⟨spool, h⟩ := holds_of_reach hreach
  have hok : ((Call.recordAttempt id nextAttempt).perform codec none w.files).2 = true := by
    simp [Call.perform, Call.steps, hload, rewriteSteps, Effects.perform, FileStep.run]
  have hafter := (h.files.atomic none (.recordAttempt id nextAttempt) (by simp [Call.drawn])).2 hok
  rw [h.files.load_eq] at hload
  exact (hafter.load_eq id).trans (Spool.load_recordAttempt hload nextAttempt)

/-- The note is stored, and then an attempt fails so many times. -/
def attempted : ℕ → World (Bytes ⊕ Envelope)
  | 0 => (machine .plain).step .empty ⟨.store (.ofNat 1) [] note, none⟩
  | n + 1 => (machine .plain).step (attempted n) ⟨.recordAttempt (.ofNat 1) 0, none⟩

theorem reach_attempted (n : ℕ) : (machine .plain).Reach (fun _ _ ↦ True) .empty (attempted n) := by
  induction n with
  | zero => exact Machine.Reach.refl.step (by decide) trivial
  | succ n ih => exact ih.step nofun trivial

theorem load_attempted (n : ℕ) :
    ∃ entry, load .plain (.ofNat 1) (attempted n).files = some entry ∧
      entry.envelope.attempts = n % 2 ^ 32 := by
  induction n with
  | zero => exact ⟨entryOf (.ofNat 1) note, by decide, rfl⟩
  | succ n ih =>
    obtain ⟨entry, hload, hattempts⟩ := ih
    refine ⟨_, load_recordAttempt (reach_attempted n) hload 0, ?_⟩
    change (entry.envelope.attempts + 1) % 2 ^ 32 = (n + 1) % 2 ^ 32
    rw [hattempts, Nat.mod_add_mod]

/-- After as many attempts as 32 bits can tell apart none is left. -/
theorem wound_back :
    ∃ w, (machine .plain).Reach (fun _ _ ↦ True) .empty w ∧ ¬CrashSafe .plain w := by
  have hback : ∀ n, n % 2 ^ 32 = 2 ^ 32 - 1 → ¬CrashSafe .plain (attempted (n + 1)) := by
    intro n hn h
    obtain ⟨old, hold, hbefore⟩ := load_attempted n
    obtain ⟨entry, hentry, hafter⟩ := load_attempted (n + 1)
    obtain ⟨spool, hholds⟩ := holds_of_reach (reach_attempted (n + 1))
    have hlisted : Uuid.ofNat 1 ∈ list (attempted (n + 1)).files := by
      rw [hholds.files.mem_list, ← hholds.files.load_eq, hentry]
      rfl
    obtain ⟨found, hfound, -, hless⟩ := h.loads _ hlisted
    obtain rfl := Option.some.inj (hfound.symm.trans hentry)
    have hle := (hless old hold).1
    omega
  exact ⟨attempted (2 ^ 32 - 1 + 1), reach_attempted _,
    hback (2 ^ 32 - 1) (Nat.mod_eq_of_lt (by decide))⟩

end FsSpool

end Epistle.Storage
