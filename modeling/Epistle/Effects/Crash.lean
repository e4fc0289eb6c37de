import Mathlib.Data.List.AList

/-!
# Programs that a crash can stop

A program is a list of steps on files. A crash stops it between two steps, or in the middle of a
write, of which it can leave anything; renames and removals are atomic. A step that fails stops the
program as well.

`Survives done cut` is the weakest condition under which a program that comes to its end establishes
`done`, and one that does not leaves `cut`. It has one rule for each kind of step.
-/

namespace Effects

/-- Files with paths `π` and contents `κ`. -/
abbrev Files (π κ : Type) : Type := AList fun _ : π ↦ κ

inductive FileStep (π κ : Type)
  | write (path : π) (content : κ)
  | rename (source target : π)
  | unlink (path : π)

structure Crash (κ : Type) where
  after : ℕ
  /-- What it leaves of a write that has begun. -/
  torn : Option κ

variable {π κ : Type} [DecidableEq π]

namespace FileStep

/-- The files after a step, unless it fails. -/
def run : FileStep π κ → Files π κ → Option (Files π κ)
  | .write path content, files => some (files.insert path content)
  | .rename source target, files =>
    (files.lookup source).map fun content ↦ (files.erase source).insert target content
  | .unlink path, files => if (files.lookup path).isSome then some (files.erase path) else none

/-- The files after a crash during a step. -/
def tear (content : κ) : FileStep π κ → Files π κ → Files π κ
  | .write path _, files => files.insert path content
  | _, files => files

end FileStep

/-- Carry out a program: the files it leaves, and whether it has come to its end. -/
def perform : Option (Crash κ) → List (FileStep π κ) → Files π κ → Files π κ × Bool
  | _, [], files => (files, true)
  | some ⟨0, torn⟩, step :: _, files => (torn.elim files (step.tear · files), false)
  | crash, step :: steps, files =>
    match step.run files with
    | none => (files, false)
    | some files =>
      perform (crash.map fun crash ↦ { crash with after := crash.after - 1 }) steps files

/-- A program that comes to its end establishes `done`, and else it leaves `cut`. -/
def Survives (done cut : Files π κ → Prop) : List (FileStep π κ) → Files π κ → Prop
  | [], files => done files
  | step :: steps, files => cut files ∧ (∀ content, cut (step.tear content files)) ∧
      ∀ files', step.run files = some files' → Survives done cut steps files'

variable {done cut : Files π κ → Prop} {steps : List (FileStep π κ)} {files : Files π κ}

theorem perform_of_survives (h : Survives done cut steps files) (crash : Option (Crash κ)) :
    ((perform crash steps files).2 = true → done (perform crash steps files).1) ∧
      ((perform crash steps files).2 = false → cut (perform crash steps files).1) := by
  fun_induction perform crash steps files with
  | case1 crash files => exact ⟨fun _ ↦ h, nofun⟩
  | case2 torn step steps files =>
    refine ⟨nofun, fun _ ↦ ?_⟩
    cases torn with
    | none => exact h.1
    | some content => exact h.2.1 content
  | case3 crash step steps files _ hrun => exact ⟨nofun, fun _ ↦ h.1⟩
  | case4 crash step steps files _ files' hrun ih => exact ih (h.2.2 files' hrun)

theorem Survives.write {path : π} {c : κ} (hbefore : cut files)
    (htorn : ∀ content, cut (files.insert path content))
    (hafter : Survives done cut steps (files.insert path c)) :
    Survives done cut (.write path c :: steps) files :=
  ⟨hbefore, htorn, fun _ hrun ↦ Option.some.inj hrun ▸ hafter⟩

theorem Survives.rename {source target : π} {c : κ} (hsource : files.lookup source = some c)
    (hbefore : cut files)
    (hafter : Survives done cut steps ((files.erase source).insert target c)) :
    Survives done cut (.rename source target :: steps) files := by
  refine ⟨hbefore, fun _ ↦ hbefore, fun files' hrun ↦ ?_⟩
  rw [FileStep.run, hsource, Option.map_some] at hrun
  exact Option.some.inj hrun ▸ hafter

theorem Survives.unlink {path : π} (hbefore : cut files)
    (hafter : Survives done cut steps (files.erase path)) :
    Survives done cut (.unlink path :: steps) files := by
  refine ⟨hbefore, fun _ ↦ hbefore, fun files' hrun ↦ ?_⟩
  rw [FileStep.run] at hrun
  split at hrun
  · exact Option.some.inj hrun ▸ hafter
  · exact absurd hrun nofun

end Effects
