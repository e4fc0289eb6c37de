import Epistle.Text.Format
import Epistle.Interleaving.Machine

/-!
# The script store

The scripts of an account are files. The name of the active one is written to a marker file, and its
content to the file that deliveries read. The marker is read back with white space trimmed, but
names with white space around them are accepted. So the active script is well defined as long as no
script with such a name is made active, or an active script renamed to one (`wellDefined_iff`).

Calls of the file system do not fail here. Whether a text is a script is a parameter.
-/

namespace Epistle.ManageSieve

open TextFormat Interleaving

inductive StoreError
  | invalidName
  | noSuchScript
  | alreadyExists
  | activeScript
  | invalidScript (reason : Text)
  deriving DecidableEq

structure ScriptStore where
  /-- `<name>.sieve` -/
  scripts : Text → Option Text
  /-- `.active` -/
  marker : Option Text
  /-- `filter.sieve` -/
  live : Option Text

def validName (name : Text) : Bool :=
  !(name.isEmpty || utf8Len name > 128 || name = ".".toList || name = "..".toList ||
    name.any fun c ↦ isControl c || c = '/' || c = '\\')

namespace ScriptStore

def empty : ScriptStore := ⟨fun _ ↦ none, none, none⟩

def activeName (s : ScriptStore) : Option Text := (s.marker.map trim).filter (!·.isEmpty)

def get (name : Text) (s : ScriptStore) : Except StoreError Text :=
  if !validName name then .error .invalidName
  else match s.scripts name with
    | none => .error .noSuchScript
    | some content => .ok content

variable (validate : Text → Except Text Unit)

def put (name content : Text) (s : ScriptStore) : Except StoreError ScriptStore :=
  if !validName name then .error .invalidName
  else match validate content with
    | .error reason => .error (.invalidScript reason)
    | .ok () =>
      .ok ⟨Function.update s.scripts name (some content), s.marker,
        if s.activeName = some name then some content else s.live⟩

def delete (name : Text) (s : ScriptStore) : Except StoreError ScriptStore :=
  if !validName name then .error .invalidName
  else if s.activeName = some name then .error .activeScript
  else if (s.scripts name).isNone then .error .noSuchScript
  else .ok { s with scripts := Function.update s.scripts name none }

def rename (source target : Text) (s : ScriptStore) : Except StoreError ScriptStore :=
  if !validName source || !validName target then .error .invalidName
  else if (s.scripts source).isNone then .error .noSuchScript
  else if (s.scripts target).isSome then .error .alreadyExists
  else .ok
    ⟨Function.update (Function.update s.scripts source none) target (s.scripts source),
      if s.activeName = some source then some target else s.marker, s.live⟩

def setActive (name : Option Text) (s : ScriptStore) : Except StoreError ScriptStore :=
  match name with
  | none => .ok { s with marker := none, live := none }
  | some name =>
    match s.get name with
    | .error error => .error error
    | .ok content => .ok { s with marker := some name, live := some content }

end ScriptStore

/-! ## Runs -/

inductive StoreCall
  | put (name content : Text)
  | delete (name : Text)
  | rename (source target : Text)
  | setActive (name : Option Text)

/-- The store, and the script that was made active, by the name that it has now. -/
structure StoreWorld where
  store : ScriptStore
  chosen : Option Text

variable (validate : Text → Except Text Unit)

def StoreCall.exec (s : ScriptStore) : StoreCall → Except StoreError ScriptStore
  | put name content => s.put validate name content
  | delete name => s.delete name
  | rename source target => s.rename source target
  | setActive name => s.setActive name

def StoreCall.chooses (chosen : Option Text) : StoreCall → Option Text
  | setActive name => name
  | rename source target => if chosen = some source then some target else chosen
  | _ => chosen

def StoreWorld.step (w : StoreWorld) (call : StoreCall) : StoreWorld :=
  match call.exec validate w.store with
  | .error _ => w
  | .ok store => ⟨store, call.chooses w.chosen⟩

def storeMachine : Machine StoreWorld StoreCall := ⟨fun _ _ ↦ True, StoreWorld.step validate⟩

structure WellDefined (w : StoreWorld) : Prop where
  /-- It is the one that was made active, also after a rename. -/
  active : w.store.activeName = w.chosen
  /-- Deliveries read it, and read nothing if there is none. -/
  live_eq : w.store.live.map .ok = w.store.activeName.map w.store.get
  kept : ∀ name, w.chosen = some name → ∃ error, w.store.delete name = .error error

/-- The condition: there is no white space around the name of a script that becomes active, or that
the active script gets. -/
def StoreCall.Trimmed (w : StoreWorld) : StoreCall → Prop
  | setActive (some name) =>
    validName name = true → (w.store.scripts name).isSome → trim name = name
  | rename source target => w.chosen = some source → validName target = true →
      (w.store.scripts target).isSome = false → trim target = target
  | _ => True

section

variable {validate} {w : StoreWorld} {s s' : ScriptStore} {name : Text} {chosen : Option Text}
  {call : StoreCall}

namespace ScriptStore

theorem setActive_eq_ok_iff : s.setActive (some name) = .ok s' ↔ validName name = true ∧
    ∃ content, s.scripts name = some content ∧
      s' = { s with marker := some name, live := some content } := by
  rw [setActive, get]
  cases validName name <;> cases s.scripts name <;> grind

theorem activeName_eq_iff (hname : validName name = true) (hmarker : s.marker = some name) :
    s.activeName = some name ↔ trim name = name := by
  have hne : name ≠ [] := by
    rintro rfl
    exact absurd hname (by decide)
  rw [activeName, hmarker, Option.map_some, Option.filter_some]
  grind

/-- What deliveries read is the script with the given name. -/
def Mirrors (s : ScriptStore) (chosen : Option Text) : Prop :=
  s.live = chosen.bind s.scripts ∧
    ∀ name, chosen = some name → validName name = true ∧ (s.scripts name).isSome

end ScriptStore

theorem wellDefined_iff_mirrors :
    WellDefined ⟨s, chosen⟩ ↔ s.activeName = chosen ∧ s.Mirrors chosen := by
  have hlive : s.live.map .ok = chosen.map s.get ↔ s.Mirrors chosen := by
    unfold ScriptStore.Mirrors
    cases chosen <;> cases s.live <;> grind [ScriptStore.get]
  constructor
  · rintro ⟨hactive, hget, -⟩
    exact ⟨hactive, hlive.1 (hget.trans (congrArg (Option.map _) hactive))⟩
  · rintro ⟨rfl, hmirrors⟩
    refine ⟨rfl, hlive.2 hmirrors, fun name hname ↦ ?_⟩
    rw [ScriptStore.delete, if_pos hname]
    split <;> exact ⟨_, rfl⟩

/-- Every call keeps this, whatever the names. -/
theorem mirrors_of_exec (hactive : s.activeName = chosen) (h : s.Mirrors chosen)
    (hexec : call.exec validate s = .ok s') : s'.Mirrors (call.chooses chosen) := by
  unfold ScriptStore.Mirrors at h ⊢
  cases call with
  | put name content =>
    simp only [StoreCall.exec, ScriptStore.put, hactive, StoreCall.chooses] at hexec ⊢
    split at hexec
    · cases hexec
    · split at hexec
      · cases hexec
      · cases hexec
        cases chosen <;> grind [Function.update_apply]
  | delete name =>
    simp only [StoreCall.exec, ScriptStore.delete, hactive, StoreCall.chooses] at hexec ⊢
    split_ifs at hexec
    cases hexec
    cases chosen <;> grind [Function.update_apply]
  | rename source target =>
    simp only [StoreCall.exec, ScriptStore.rename, hactive, StoreCall.chooses] at hexec ⊢
    split_ifs at hexec
    all_goals cases hexec
    all_goals cases chosen <;> grind [Function.update_apply]
  | setActive name =>
    cases name with
    | none =>
      cases hexec
      exact ⟨rfl, fun _ h ↦ by cases h⟩
    | some name =>
      obtain ⟨hname, content, hcontent, rfl⟩ := ScriptStore.setActive_eq_ok_iff.1 hexec
      grind [StoreCall.chooses]

theorem trimmed_of_error (hw : w.store.Mirrors w.chosen) {error : StoreError}
    (hexec : call.exec validate w.store = .error error) : call.Trimmed w := by
  cases call with
  | put name content | delete name => trivial
  | rename source target =>
    simp only [StoreCall.exec, ScriptStore.rename] at hexec
    intro hchosen htarget hfree
    grind [ScriptStore.Mirrors]
  | setActive name =>
    cases name with
    | none => trivial
    | some name =>
      intro hname hstored
      obtain ⟨content, hcontent⟩ := Option.isSome_iff_exists.1 hstored
      rw [StoreCall.exec, ScriptStore.setActive_eq_ok_iff.2 ⟨hname, content, hcontent,
        rfl⟩] at hexec
      cases hexec

theorem wellDefined_step_iff (h : WellDefined w) (call : StoreCall) :
    WellDefined (w.step validate call) ↔ call.Trimmed w := by
  obtain ⟨hactive, hmirrors⟩ := wellDefined_iff_mirrors.1 h
  rw [StoreWorld.step]
  cases hexec : call.exec validate w.store with
  | error error => exact iff_of_true h (trimmed_of_error hmirrors hexec)
  | ok s' =>
    rw [wellDefined_iff_mirrors, and_iff_left (mirrors_of_exec hactive hmirrors hexec)]
    have hsame : s'.marker = w.store.marker → s'.activeName = w.chosen := by
      intro hmarker
      rw [← hactive, ScriptStore.activeName, hmarker, ScriptStore.activeName]
    cases call with
    | put name content =>
      simp only [StoreCall.exec, ScriptStore.put] at hexec
      exact iff_of_true (hsame (by grind)) trivial
    | delete name =>
      simp only [StoreCall.exec, ScriptStore.delete] at hexec
      exact iff_of_true (hsame (by grind)) trivial
    | rename source target =>
      simp only [StoreCall.exec, ScriptStore.rename, hactive] at hexec
      by_cases hchosen : w.chosen = some source
      · have htarget : s'.marker = some target ∧ validName target = true := by grind
        rw [StoreCall.chooses, if_pos hchosen, ScriptStore.activeName_eq_iff htarget.2 htarget.1]
        exact ⟨fun h _ _ _ ↦ h, fun h ↦ h hchosen htarget.2 (by grind)⟩
      · rw [StoreCall.chooses, if_neg hchosen]
        exact iff_of_true (hsame (by grind)) fun h ↦ absurd h hchosen
    | setActive name =>
      cases name with
      | none => cases hexec; exact iff_of_true rfl trivial
      | some name =>
        obtain ⟨hname, content, hcontent, rfl⟩ := ScriptStore.setActive_eq_ok_iff.1 hexec
        rw [StoreCall.chooses, ScriptStore.activeName_eq_iff hname rfl]
        exact ⟨fun h _ _ ↦ h, fun h ↦ h hname (by rw [hcontent]; rfl)⟩

end

/-- **When the active script is well defined.** It is in every run of calls in which no script with
white space around its name becomes active; and the first call for which it is otherwise ends it. -/
theorem wellDefined_iff {w : StoreWorld}
    (hreach : (storeMachine validate).Reach (fun w call ↦ call.Trimmed w) ⟨.empty, none⟩ w) :
    WellDefined w ∧ ∀ call, WellDefined ((storeMachine validate).step w call) ↔ call.Trimmed w := by
  have hw : WellDefined w :=
    hreach.invariant (wellDefined_iff_mirrors.2 ⟨rfl, rfl, fun _ h ↦ by cases h⟩)
      fun _ call h _ hcall ↦
      (wellDefined_step_iff h call).2 hcall
  exact ⟨hw, fun call ↦ wellDefined_step_iff hw call⟩

abbrev anyText : Machine StoreWorld StoreCall := storeMachine fun _ ↦ .ok ()

theorem wellDefined_renamed :
    let w :=
      [.put "a".toList "keep;".toList, .setActive "a".toList, .rename "a".toList "b".toList].foldl
      anyText.step ⟨.empty, none⟩
    w.store.activeName = some "b".toList ∧ WellDefined w := by
  refine ⟨by decide, (wellDefined_iff (fun _ ↦ .ok ()) ?_).1⟩
  refine .step (.step (.step .refl trivial trivial) trivial ?_) trivial ?_
  · exact fun _ _ ↦ by decide
  · exact fun _ _ _ ↦ by decide

/-- A script named by a blank is made active: deliveries read it, but no script is active, and it
can be deleted. -/
theorem blank_active :
    let w :=
      [.put " ".toList "keep;".toList, .setActive " ".toList].foldl anyText.step ⟨.empty, none⟩
    w.store.live = some "keep;".toList ∧ w.store.activeName = none ∧
      ((anyText.step w (.delete " ".toList)).store.scripts " ".toList) = none := by
  decide

end Epistle.ManageSieve
