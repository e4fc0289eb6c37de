import Epistle.Smtp.Session
import Epistle.Text.Uuid

/-!
# The spool

A spooled message is its bytes and an envelope: who sent it, who is to have it, and how far delivery
has come. Here the spool is the list of its entries; how entries are kept in files is another
matter.
-/

namespace Epistle.Storage

open TextFormat

/-- What is stored next to a raw message. -/
structure Envelope where
  id : Uuid
  reversePath : Text
  recipients : List Text
  /-- The failed attempts so far, in 32 bits. -/
  attempts : ℕ
  /-- The second before which delivery is not tried again. -/
  nextAttempt : ℕ
  requireTls : Bool
  /-- The recipients that asked for no report of a failure. -/
  noDsn : List Text
  /-- The warning about a delay has been sent. -/
  delayWarned : Bool
  deriving DecidableEq

/-- The envelope after one more failed attempt. -/
def Envelope.attempted (nextAttempt : ℕ) (envelope : Envelope) : Envelope :=
  { envelope with attempts := (envelope.attempts + 1) % 2 ^ 32, nextAttempt }

def Envelope.warned (envelope : Envelope) : Envelope := { envelope with delayWarned := true }

structure SpoolEntry where
  envelope : Envelope
  data : Bytes
  deriving DecidableEq

abbrev Spool : Type := List SpoolEntry

namespace Spool

def entryOf (id : Uuid) (message : Smtp.AcceptedMessage) : SpoolEntry where
  envelope := ⟨id, message.reversePath, message.recipients, 0, 0, message.requireTls, message.noDsn,
    false⟩
  data := message.data

def store (id : Uuid) (message : Smtp.AcceptedMessage) (spool : Spool) : Spool :=
  spool ++ [entryOf id message]

def load (id : Uuid) (spool : Spool) : Option SpoolEntry := spool.find? (·.envelope.id == id)

/-- The ids, the oldest first. -/
def list (spool : Spool) : List Uuid := (spool.map (·.envelope.id)).insertionSort (· ≤ ·)

def rewrite (id : Uuid) (f : Envelope → Envelope) (spool : Spool) : Spool :=
  spool.map fun entry ↦
    if entry.envelope.id = id then { entry with envelope := f entry.envelope } else entry

def recordAttempt (id : Uuid) (nextAttempt : ℕ) (spool : Spool) : Spool :=
  spool.rewrite id (Envelope.attempted nextAttempt)

def markDelayWarned (id : Uuid) (spool : Spool) : Spool :=
  spool.rewrite id Envelope.warned

def remove (id : Uuid) (spool : Spool) : Spool := spool.filter (·.envelope.id != id)

/-! ## What the operations do to an entry -/

variable {entry : SpoolEntry} {id : Uuid} {spool : Spool} {f : Envelope → Envelope}

theorem mem_of_load (h : spool.load id = some entry) : entry ∈ spool ∧ entry.envelope.id = id := by
  have hfound := List.find?_some h
  exact ⟨List.mem_of_find?_eq_some h, eq_of_beq hfound⟩

theorem load_remove (id other : Uuid) (spool : Spool) :
    (spool.remove id).load other = if other = id then none else spool.load other := by
  rw [load, remove, List.find?_filter]
  split
  · rename_i heq
    rw [List.find?_eq_none]
    simp [heq]
  · rename_i hne
    congr 1
    funext entry
    by_cases hentry : entry.envelope.id = other
    · simp [hentry, hne]
    · simp [hentry]

section

variable (hf : ∀ envelope, (f envelope).id = envelope.id)
include hf

theorem load_rewrite (id other : Uuid) (spool : Spool) :
    (spool.rewrite id f).load other = (spool.load other).map fun entry ↦
      if other = id then { entry with envelope := f entry.envelope } else entry := by
  induction spool with
  | nil => rfl
  | cons entry spool ih =>
    have hid : (if entry.envelope.id = id then { entry with envelope := f entry.envelope }
        else entry).envelope.id = entry.envelope.id := by
      split
      · exact hf _
      · rfl
    rw [load, rewrite, List.map_cons, List.find?_cons, load, List.find?_cons, hid]
    cases hother : entry.envelope.id == other with
    | true => simp [eq_of_beq hother]
    | false => exact ih

/-- An entry after a rewriting is one from before, or that with its envelope rewritten. -/
theorem load_rewrite_cases {other : Uuid} (h : (spool.rewrite id f).load other = some entry) :
    ∃ old, spool.load other = some old ∧
      (entry = old ∨ other = id ∧ entry = { old with envelope := f old.envelope }) := by
  rw [load_rewrite hf] at h
  obtain ⟨old, hold, rfl⟩ := Option.map_eq_some_iff.mp h
  refine ⟨old, hold, ?_⟩
  split
  · rename_i heq
    exact .inr ⟨heq, rfl⟩
  · exact .inl rfl

end

theorem load_recordAttempt (h : spool.load id = some entry) (nextAttempt : ℕ) :
    (spool.recordAttempt id nextAttempt).load id =
      some { entry with envelope := entry.envelope.attempted nextAttempt } := by
  rw [recordAttempt, load_rewrite, h, Option.map_some, if_pos rfl]
  exact fun _ ↦ rfl

theorem load_markDelayWarned (h : spool.load id = some entry) :
    (spool.markDelayWarned id).load id =
      some { entry with envelope := entry.envelope.warned } := by
  rw [markDelayWarned, load_rewrite, h, Option.map_some, if_pos rfl]
  exact fun _ ↦ rfl

theorem load_store (id other : Uuid) (message : Smtp.AcceptedMessage) :
    (spool.store id message).load other =
      (spool.load other).or (if id = other then some (entryOf id message) else none) := by
  rw [store, load, List.find?_append]
  congr 1
  by_cases heq : id = other <;> simp [entryOf, heq]

theorem load_isSome_of_mem (h : id ∈ spool.map (·.envelope.id)) :
    (spool.load id).isSome = true := by
  obtain ⟨entry, hentry, rfl⟩ := List.mem_map.mp h
  rw [load, List.find?_isSome]
  exact ⟨entry, hentry, beq_self_eq_true _⟩

theorem ids_rewrite (hf : ∀ envelope, (f envelope).id = envelope.id) (id : Uuid) (spool : Spool) :
    (spool.rewrite id f).map (·.envelope.id) = spool.map (·.envelope.id) := by
  rw [rewrite, List.map_map]
  refine List.map_congr_left fun entry _ ↦ ?_
  rw [Function.comp_apply]
  split
  · exact hf _
  · rfl

end Spool

/-- Two entries are the same message, whatever has been tried with it. -/
structure SpoolEntry.SameMessage (entry entry' : SpoolEntry) : Prop where
  id : entry'.envelope.id = entry.envelope.id
  reversePath : entry'.envelope.reversePath = entry.envelope.reversePath
  recipients : entry'.envelope.recipients = entry.envelope.recipients
  requireTls : entry'.envelope.requireTls = entry.envelope.requireTls
  noDsn : entry'.envelope.noDsn = entry.envelope.noDsn
  data : entry'.data = entry.data

theorem SpoolEntry.SameMessage.refl (entry : SpoolEntry) : entry.SameMessage entry :=
  ⟨rfl, rfl, rfl, rfl, rfl, rfl⟩

theorem SpoolEntry.SameMessage.trans {entry entry' entry'' : SpoolEntry}
    (h : entry.SameMessage entry') (h' : entry'.SameMessage entry'') : entry.SameMessage entry'' :=
  ⟨h'.id.trans h.id, h'.reversePath.trans h.reversePath, h'.recipients.trans h.recipients,
    h'.requireTls.trans h.requireTls, h'.noDsn.trans h.noDsn, h'.data.trans h.data⟩

end Epistle.Storage
