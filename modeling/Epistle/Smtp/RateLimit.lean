import Epistle.Text.Format
import Epistle.Interleaving.Machine

/-!
# Submission limits

The limiter keeps, for each account, the start of a window and the number of messages accepted in
it. The window starts anew with the first call after it has elapsed. So a call is refused only if
the limit has been reached in the last seconds. But the calls that a new window accepts may come
right after those of the old one, and then there are more of them in an interval of the window's
length than the limit allows. This needs a new window that starts less than its length after an
accepted call (`limited_of_rested`).
-/

namespace Epistle.Smtp

open TextFormat Interleaving

structure SendLimiter where
  windowSecs : ℕ
  /-- By account, the start of the window and the count in it. -/
  state : Text → Option (ℕ × ℕ)

namespace SendLimiter

def new (windowSecs : ℕ) : SendLimiter := ⟨max windowSecs 1, fun _ ↦ none⟩

/-- The window that a call belongs to. -/
def window (account : Text) (now : ℕ) (limiter : SendLimiter) : ℕ × ℕ :=
  match limiter.state (toAsciiLowercase account) with
  | none => (now, 0)
  | some (start, count) => if now - start ≥ limiter.windowSecs then (now, 0) else (start, count)

def put (account : Text) (entry : ℕ × ℕ) (limiter : SendLimiter) : SendLimiter :=
  { limiter with state := Function.update limiter.state (toAsciiLowercase account) (some entry) }

/-- Count a message, unless the account has reached its limit. -/
def check (account : Text) (limit now : ℕ) (limiter : SendLimiter) : Bool × SendLimiter :=
  if limit = 0 then (true, limiter)
  else
    let entry := limiter.window account now
    if entry.2 ≥ limit then (false, limiter.put account entry)
    else (true, limiter.put account (entry.1, entry.2 + 1))

variable {account : Text} {limit now : ℕ} {limiter : SendLimiter}

theorem check_of_full (hlimit : 0 < limit) (h : ¬ (limiter.window account now).2 < limit) :
    limiter.check account limit now = (false,
      limiter.put account (limiter.window account now)) := by
  rw [check, if_neg hlimit.ne', if_pos (not_lt.1 h)]

theorem check_of_room (h : (limiter.window account now).2 < limit) :
    limiter.check account limit now = (true, limiter.put account
      ((limiter.window account now).1, (limiter.window account now).2 + 1)) := by
  rw [check, if_neg (Nat.ne_zero_of_lt h), if_neg h.not_ge]

@[simp]
theorem put_windowSecs (entry : ℕ × ℕ) :
    (limiter.put account entry).windowSecs = limiter.windowSecs := rfl

@[simp]
theorem put_state (entry : ℕ × ℕ) :
    (limiter.put account entry).state (toAsciiLowercase account) = some entry :=
  Function.update_self _ _ _

/-- The calls for one account: what the limiter keeps, and when a call was accepted. -/
structure World where
  limiter : SendLimiter
  accepted : List ℕ
  last : ℕ

def calls (account : Text) (limit : ℕ) : Machine World ℕ where
  enabled w now := w.last ≤ now
  step w now :=
    let r := w.limiter.check account limit now
    ⟨r.2, if r.1 then now :: w.accepted else w.accepted, now⟩

namespace World

def start (windowSecs : ℕ) : World := ⟨new windowSecs, [], 0⟩

/-- The number of calls accepted in the seconds of a window before `now`. -/
def recent (w : World) (now : ℕ) : ℕ := w.accepted.countP (now < · + w.limiter.windowSecs)

/-- No interval of the length of a window has more accepted calls than the limit. -/
def Limited (limit : ℕ) (w : World) : Prop :=
  ∀ a, w.accepted.countP (fun t ↦ a ≤ t ∧ t < a + w.limiter.windowSecs) ≤ limit

/-- The condition: a call that starts a new window comes at least the length of a window after every
accepted call. -/
def Rested (account : Text) (w : World) (now : ℕ) : Prop :=
  ∀ entry ∈ w.limiter.state (toAsciiLowercase account), entry.1 + w.limiter.windowSecs ≤ now →
    ∀ t ∈ w.accepted, t + w.limiter.windowSecs ≤ now

/-- The window has started, and its count is made up by calls since then. -/
def Counts (w : World) (now : ℕ) (entry : ℕ × ℕ) : Prop :=
  entry.1 ≤ now ∧ entry.2 ≤ w.accepted.countP (entry.1 ≤ ·)

structure Counted (account : Text) (w : World) : Prop where
  positive : 0 < w.limiter.windowSecs
  past : ∀ t ∈ w.accepted, t ≤ w.last
  counts : ∀ entry ∈ w.limiter.state (toAsciiLowercase account), w.Counts w.last entry

variable {w : World}

theorem Counted.window (h : Counted account w) (hnow : w.last ≤ now) :
    w.Counts now (w.limiter.window account now) ∧
      now < (w.limiter.window account now).1 + w.limiter.windowSecs := by
  have hpositive := h.positive
  have hnew : w.Counts now (now, 0) ∧ now < now + w.limiter.windowSecs :=
    ⟨⟨le_rfl, Nat.zero_le _⟩, by omega⟩
  rw [SendLimiter.window]
  split
  · exact hnew
  next start count hstate =>
    obtain ⟨hstart, hcount⟩ := h.counts _ hstate
    split
    · exact hnew
    · exact ⟨⟨hstart.trans hnow, hcount⟩, by omega⟩

theorem Counted.le_recent (h : Counted account w) (hnow : w.last ≤ now) :
    (w.limiter.window account now).2 ≤ w.recent now := by
  obtain ⟨⟨-, hcount⟩, hwindow⟩ := h.window hnow
  refine hcount.trans (List.countP_mono_left fun t _ ht ↦ ?_)
  rw [decide_eq_true_iff] at ht ⊢
  omega

theorem step_of_full (hlimit : 0 < limit) (h : ¬(w.limiter.window account now).2 < limit) :
    (calls account limit).step w now =
      ⟨w.limiter.put account (w.limiter.window account now), w.accepted, now⟩ := by
  dsimp only [calls]
  rw [check_of_full hlimit h]
  rfl

theorem step_of_room (h : (w.limiter.window account now).2 < limit) :
    (calls account limit).step w now = ⟨w.limiter.put account
      ((w.limiter.window account now).1, (w.limiter.window account now).2 + 1),
      now :: w.accepted, now⟩ := by
  dsimp only [calls]
  rw [check_of_room h]
  rfl

theorem Counted.step (hlimit : 0 < limit) (h : Counted account w) (hnow : w.last ≤ now) :
    Counted account ((calls account limit).step w now) := by
  obtain ⟨⟨hstart, hcount⟩, -⟩ := h.window hnow
  have hpast : ∀ t ∈ w.accepted, t ≤ now := fun t ht ↦ (h.past t ht).trans hnow
  by_cases hroom : (w.limiter.window account now).2 < limit
  · rw [step_of_room hroom]
    refine ⟨h.positive, List.forall_mem_cons.2 ⟨le_rfl, hpast⟩, fun entry hentry ↦ ?_⟩
    obtain rfl := Option.some.inj ((put_state _).symm.trans hentry)
    refine ⟨hstart, ?_⟩
    dsimp only
    rw [List.countP_cons_of_pos (by simpa using hstart)]
    exact Nat.succ_le_succ hcount
  · rw [step_of_full hlimit hroom]
    refine ⟨h.positive, hpast, fun entry hentry ↦ ?_⟩
    obtain rfl := Option.some.inj ((put_state _).symm.trans hentry)
    exact ⟨hstart, hcount⟩

/-- The calls since the start of the window are counted in it, and the others are out of its
reach. -/
def Apart (w : World) (entry : ℕ × ℕ) : Prop :=
  w.accepted.countP (entry.1 ≤ ·) ≤ entry.2 ∧
    ∀ t ∈ w.accepted, entry.1 ≤ t ∨ t + w.limiter.windowSecs ≤ entry.1

/-- What holds as long as the windows are started as the condition says. -/
structure Separate (account : Text) (limit : ℕ) (w : World) : Prop where
  counted : Counted account w
  first : w.limiter.state (toAsciiLowercase account) = none → w.accepted = []
  apart : ∀ entry ∈ w.limiter.state (toAsciiLowercase account), w.Apart entry
  limited : Limited limit w

theorem Separate.window (h : Separate account limit w) (hrested : Rested account w now) :
    w.Apart (w.limiter.window account now) := by
  have hpositive := h.counted.positive
  rw [SendLimiter.window]
  split
  next hstate => simp [Apart, h.first hstate]
  next start count hstate =>
    split
    next helapsed =>
      have hbefore := hrested _ hstate (by dsimp only; omega)
      refine ⟨le_of_eq (List.countP_eq_zero.2 fun t ht ↦ ?_), fun t ht ↦ .inr (hbefore t ht)⟩
      have := hbefore t ht
      simp only [decide_eq_true_eq]
      omega
    · exact h.apart _ hstate

theorem Separate.step (hlimit : 0 < limit) (h : Separate account limit w) (hnow : w.last ≤ now)
    (hrested : Rested account w now) :
      Separate account limit ((calls account limit).step w now) := by
  obtain ⟨⟨hstart, -⟩, -⟩ := h.counted.window hnow
  obtain ⟨hcount, hapart⟩ := h.window hrested
  have hcounted := h.counted.step hlimit hnow
  by_cases hroom : (w.limiter.window account now).2 < limit
  · rw [step_of_room hroom] at hcounted ⊢
    refine ⟨hcounted, by simp, fun entry hentry ↦ ?_, fun a ↦ ?_⟩
    · obtain rfl := Option.some.inj ((put_state _).symm.trans hentry)
      refine ⟨?_, List.forall_mem_cons.2 ⟨.inl hstart, hapart⟩⟩
      dsimp only
      rw [List.countP_cons_of_pos (by simpa using hstart)]
      exact Nat.succ_le_succ hcount
    · dsimp only
      rw [put_windowSecs]
      by_cases hin : a ≤ now ∧ now < a + w.limiter.windowSecs
      · -- an interval that has this call has no call from before the window
        rw [List.countP_cons_of_pos (by simpa using hin)]
        refine le_trans (Nat.succ_le_succ ((List.countP_mono_left fun t ht hint ↦ ?_).trans hcount))
          hroom
        have hside := hapart t ht
        simp only [decide_eq_true_eq] at hint ⊢
        omega
      · rw [List.countP_cons_of_neg (by simpa using hin)]
        exact h.limited a
  · rw [step_of_full hlimit hroom] at hcounted ⊢
    refine ⟨hcounted, by simp, fun entry hentry ↦ ?_, h.limited⟩
    obtain rfl := Option.some.inj ((put_state _).symm.trans hentry)
    exact ⟨hcount, hapart⟩

/-- A window that starts now takes as many calls of this moment as the limit allows. -/
theorem foldl_replicate (hpositive : 0 < w.limiter.windowSecs)
    (hwindow : w.limiter.window account now = (now, 0)) : ∀ k ≤ limit, ∃ limiter last,
    (List.replicate k now).foldl (calls account limit).step w =
        ⟨limiter, List.replicate k now ++ w.accepted, last⟩ ∧
      limiter.windowSecs = w.limiter.windowSecs ∧ limiter.window account now = (now, k) := by
  intro k
  induction k with
  | zero => exact fun _ ↦ ⟨w.limiter, w.last, rfl, rfl, hwindow⟩
  | succ k ih =>
    intro hk
    obtain ⟨limiter, last, heq, hsecs, hnext⟩ := ih (by omega)
    have hroom : (limiter.window account now).2 < limit := by
      rw [hnext]
      exact hk
    rw [List.replicate_succ', List.foldl_append, heq, List.foldl_cons, List.foldl_nil,
      step_of_room hroom, hnext, ← List.replicate_succ', List.replicate_succ, List.cons_append]
    refine ⟨_, now, rfl, hsecs, ?_⟩
    rw [SendLimiter.window, put_state]
    exact if_neg (by rw [put_windowSecs]; dsimp only; omega)

/-- Where a call breaks the condition, the limit is broken by repeating it. -/
theorem not_limited_of_not_rested (h : Counted account w) (hnow : w.last ≤ now)
    (hrested : ¬Rested account w now) :
    ¬Limited limit ((List.replicate limit now).foldl (calls account limit).step w) := by
  rw [Rested] at hrested
  push Not at hrested
  obtain ⟨⟨start, count⟩, hstate, helapsed, t, ht, hclose⟩ := hrested
  have hwindow : w.limiter.window account now = (now, 0) := by
    rw [SendLimiter.window, Option.mem_def.1 hstate]
    exact if_pos (by dsimp only at helapsed; omega)
  obtain ⟨limiter, last, heq, hsecs, -⟩ :=
    foldl_replicate h.positive hwindow limit le_rfl
  rw [heq]
  intro hlimited
  have hin := hlimited t
  have hpast := (h.past t ht).trans hnow
  dsimp only at hin
  rw [hsecs, List.countP_append, List.countP_replicate, if_pos (by simp [hpast, hclose])] at hin
  have hone : 0 < w.accepted.countP fun s ↦ t ≤ s ∧ s < t + w.limiter.windowSecs :=
    List.countP_pos_iff.2 ⟨t, ht, by simpa using h.positive⟩
  omega

end World

variable (account) in
/-- **What a limit does.** In every run of calls at nondecreasing times, a call is refused only if
as many calls as the limit were accepted in the seconds of a window before it. No interval of that
length has more accepted calls than the limit, if every call that starts a new window is rested; and
after the first one that is not, calls at the same moment make one that has. -/
theorem limited_of_rested (hlimit : 0 < limit) (secs : ℕ) :
    (∀ w, (calls account limit).Reach (fun _ _ ↦ True) (.start secs) w → ∀ now, w.last ≤ now →
      (w.limiter.check account limit now).1 = false → limit ≤ w.recent now) ∧
    ∀ w, (calls account limit).Reach (World.Rested account) (.start secs) w →
      w.Limited limit ∧ ∀ now, w.last ≤ now → ¬w.Rested account now →
        ¬((List.replicate limit now).foldl (calls account limit).step w).Limited limit := by
  have hstart : World.Counted account (.start secs) :=
    ⟨le_max_right secs 1, fun _ h ↦ (by cases h), fun _ h ↦ (by cases h)⟩
  constructor
  · intro w hreach now hnow hrefused
    have hcounted := hreach.invariant hstart fun w now h hnow _ ↦ h.step hlimit hnow
    refine le_trans ?_ (hcounted.le_recent hnow)
    by_contra hroom
    rw [check_of_room (not_le.1 hroom)] at hrefused
    cases hrefused
  · intro w hreach
    have hseparate : World.Separate account limit w := by
      refine hreach.invariant ⟨hstart, fun _ ↦ rfl, fun _ h ↦ (by cases h), fun a ↦ Nat.zero_le _⟩
        fun w now h hnow hrested ↦ h.step hlimit hnow hrested
    exact ⟨hseparate.limited, fun now hnow ↦ World.not_limited_of_not_rested hseparate.counted hnow⟩

/-- A message, and another one after a minute, in a window of its own. -/
theorem limited_twice :
    (calls "a".toList 1).Reach (World.Rested "a".toList) (.start 60)
        ([100, 160].foldl (calls "a".toList 1).step (.start 60)) ∧
      World.Limited 1 ([100, 160].foldl (calls "a".toList 1).step (.start 60)) := by
  have hreach : (calls "a".toList 1).Reach (World.Rested "a".toList) (.start 60)
      ([100, 160].foldl (calls "a".toList 1).step (.start 60)) :=
    .step (.step .refl (Nat.zero_le _) fun _ h ↦ by cases h) (show 100 ≤ 160 by decide)
      fun _ _ _ ↦ by decide
  exact ⟨hreach, ((limited_of_rested "a".toList (by decide) 60).2 _ hreach).1⟩

/-- With a limit of two messages a minute, three are accepted within three seconds. -/
theorem three_accepted :
    ([0, 59, 60, 61].foldl (calls "a".toList 2).step (.start 60)).accepted = [61, 60, 59, 0] ∧
      ¬ World.Limited 2 ([0, 59, 60, 61].foldl (calls "a".toList 2).step (.start 60)) :=
  ⟨by decide, fun h ↦ absurd (h 59) (by decide)⟩

end SendLimiter

end Epistle.Smtp
