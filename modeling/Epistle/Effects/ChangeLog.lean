import Mathlib.Data.Set.Basic

/-!
# Stores that can be caught up with

A reader has seen the items of a store and has kept one number, the count of changes at that time.
Coming back later it asks what is new. The store answers from what it keeps anyway: the count at
which each item was last changed, and a log of the items that are gone.

That this is enough rests on what a store does between two readings. `Advance` says it for any
stretch of time: a change takes a count above the one before it, an item that goes is logged at such
a count, and an item that has gone does not come back. What a reader has seen stays *covered* under
it (`Covers.advance`), and a covered reader misses nothing (`Covers.changed`, `Covers.vanished`).

An item may be in a store before it has the name by which readers know it. Once it has a name it
keeps it.
-/

namespace Effects

variable {ι ν α : Type}

structure Item (ν α : Type) where
  /-- The name by which readers know the item, once it has one. -/
  name : Option ν
  value : α
  /-- The count at which the item was last changed. -/
  stamp : ℕ

/-- A store of items, the log of those that are gone and the count of changes. -/
structure ChangeLog (ι ν α : Type) where
  items : ι → Option (Item ν α)
  gone : List (ν × ℕ)
  count : ℕ

/-- What a reader knows of an item. -/
structure Sighting (ι ν α : Type) where
  key : ι
  name : ν
  value : α

namespace ChangeLog

variable {s s' s'' : ChangeLog ι ν α} {used : Set ι} {h : ℕ}

/-- The names of the items that are gone since a count. -/
def since (gone : List (ν × ℕ)) (h : ℕ) : List ν :=
  (gone.filter fun entry ↦ entry.2 > h).map Prod.fst

theorem mem_since {gone : List (ν × ℕ)} {name : ν} :
    name ∈ since gone h ↔ ∃ count, h < count ∧ (name, count) ∈ gone := by
  rw [since, List.mem_map]
  constructor
  · rintro ⟨⟨found, count⟩, hmem, rfl⟩
    obtain ⟨hlog, hcount⟩ := List.mem_filter.1 hmem
    exact ⟨count, by simpa using hcount, hlog⟩
  · rintro ⟨count, hcount, hlog⟩
    exact ⟨(name, count), List.mem_filter.2 ⟨hlog, by simpa using hcount⟩, rfl⟩

/-- What can have become of a named item: it is as it was, or was changed at a later count, or has
gone at a later count. -/
inductive Outcome (s s' : ChangeLog ι ν α) (i : ι) (name : ν) (item : Item ν α) : Prop
  | same (h : s'.items i = some item)
  | changed (item' : Item ν α) (h : s'.items i = some item') (hname : item'.name = some name)
      (hstamp : s.count < item'.stamp)
  | gone (h : s'.items i = none) (count : ℕ) (hcount : s.count < count)
      (hlog : (name, count) ∈ s'.gone)

/-- What happens to a store in any stretch of time. The keys in `used` are not given to new
items. -/
structure Advance (used : Set ι) (s s' : ChangeLog ι ν α) : Prop where
  count_le : s.count ≤ s'.count
  gone_subset : s.gone ⊆ s'.gone
  outcome : ∀ i item name, s.items i = some item → item.name = some name →
    Outcome s s' i name item
  stays_gone : ∀ i ∈ used, s.items i = none → s'.items i = none

/-- Everything that was seen at count `h` is still so, or can be told to have changed since. -/
structure Covers (h : ℕ) (seen : List (Sighting ι ν α)) (s : ChangeLog ι ν α) : Prop where
  count_le : h ≤ s.count
  present : ∀ x ∈ seen, ∀ item, s.items x.key = some item →
    item.name = some x.name ∧ (item.value = x.value ∨ h < item.stamp)
  absent : ∀ x ∈ seen, s.items x.key = none → ∃ count, h < count ∧ (x.name, count) ∈ s.gone

theorem Covers.of_seen {seen : List (Sighting ι ν α)}
    (hseen : ∀ x ∈ seen, ∃ stamp, s.items x.key = some ⟨some x.name, x.value, stamp⟩) :
    Covers s.count seen s where
  count_le := le_rfl
  present := by
    intro x hx item hitem
    obtain ⟨stamp, hstamp⟩ := hseen x hx
    obtain rfl := Option.some.inj (hitem.symm.trans hstamp)
    exact ⟨rfl, .inl rfl⟩
  absent := by
    intro x hx hnone
    obtain ⟨stamp, hstamp⟩ := hseen x hx
    rw [hnone] at hstamp
    cases hstamp

section

variable {seen : List (Sighting ι ν α)} (hcovers : Covers h seen s)
include hcovers

/-- **A covered reader stays covered**, whatever happens to the store. -/
theorem Covers.advance (hused : ∀ x ∈ seen, x.key ∈ used) (hadvance : Advance used s s') :
    Covers h seen s' where
  count_le := hcovers.count_le.trans hadvance.count_le
  present := by
    intro x hx item' hitem'
    cases hitem : s.items x.key with
    | none =>
      -- an item that has gone does not come back
      rw [hadvance.stays_gone x.key (hused x hx) hitem] at hitem'
      cases hitem'
    | some item =>
      obtain ⟨hname, hvalue⟩ := hcovers.present x hx item hitem
      cases hadvance.outcome x.key item x.name hitem hname with
      | same hsame =>
        obtain rfl := Option.some.inj (hitem'.symm.trans hsame)
        exact ⟨hname, hvalue⟩
      | changed found hfound hname' hstamp =>
        obtain rfl := Option.some.inj (hitem'.symm.trans hfound)
        exact ⟨hname', .inr (hcovers.count_le.trans_lt hstamp)⟩
      | gone hgone =>
        rw [hgone] at hitem'
        cases hitem'
  absent := by
    intro x hx hnone
    cases hitem : s.items x.key with
    | none =>
      obtain ⟨count, hcount, hlog⟩ := hcovers.absent x hx hitem
      exact ⟨count, hcount, hadvance.gone_subset hlog⟩
    | some item =>
      obtain ⟨hname, -⟩ := hcovers.present x hx item hitem
      cases hadvance.outcome x.key item x.name hitem hname with
      | same hsame =>
        rw [hnone] at hsame
        cases hsame
      | changed found hfound =>
        rw [hnone] at hfound
        cases hfound
      | gone _ count hcount hlog => exact ⟨count, hcovers.count_le.trans_lt hcount, hlog⟩

theorem Covers.changed {x : Sighting ι ν α} (hx : x ∈ seen) {item : Item ν α}
    (hitem : s.items x.key = some item) (hne : item.value ≠ x.value) : h < item.stamp :=
  (hcovers.present x hx item hitem).2.resolve_left hne

theorem Covers.vanished {x : Sighting ι ν α} (hx : x ∈ seen)
    (hgone : ∀ item, s.items x.key = some item → item.name ≠ some x.name) :
    x.name ∈ since s.gone h := by
  rw [mem_since]
  refine hcovers.absent x hx ?_
  cases hitem : s.items x.key with
  | none => rfl
  | some item => exact absurd (hcovers.present x hx item hitem).1 (hgone item hitem)

end

end ChangeLog

end Effects
