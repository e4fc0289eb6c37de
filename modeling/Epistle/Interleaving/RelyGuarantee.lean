import Epistle.Interleaving.Schedule

/-!
# Rely–guarantee reasoning about sessions

To show that every configuration a monitored schedule reaches satisfies an invariant, it is not
necessary to follow the schedule. It is enough to say, for each session, what the steps of the
others may do to it (its *rely*), what every call must be sure of before it is made (its
*precondition*), and to check that a call made under its precondition keeps the invariant and stays
within everybody else's rely. What remains is one obligation per command, about its program alone:
from the state the command is started in, with the others acting within the rely between any two
calls, each call meets its precondition. That obligation is `Discipline.Safe`.

## The shape of `Safe`

`Safe s Q p w` is defined by recursion on the program. The others move first: before each call, and
before the value is handed over, the world may have changed within the rely. A postcondition is
therefore always one that the rely preserves, and no separate stability side condition is needed.
-/

namespace Interleaving

variable {Op : Type} {Ans : Op → Type} {σ α Cmd γ : Type}

namespace System

/-- What a step with the given label does to the store. -/
def effect (S : System Ans σ α Cmd) : Label Op Cmd → σ → σ
  | .start _ _, d => d
  | .act _ o, d => (S.exec o d).2
  | .crash, d => d

/-- The store and the history after a step. -/
def after (S : System Ans σ α Cmd) (M : Monitor Op Cmd σ γ) (w : σ × γ)
    (l : Label Op Cmd) : σ × γ :=
  (S.effect l w.1, M.next w.2 w.1 l)

section

variable (S : System Ans σ α Cmd)

section

variable (M : Monitor Op Cmd σ γ) (w : σ × γ) (l : Label Op Cmd)

@[simp] theorem after_fst :
    (S.after M w l).1 = S.effect l w.1 := rfl

@[simp] theorem after_snd :
    (S.after M w l).2 = M.next w.2 w.1 l := rfl

end

@[simp] theorem effect_start (s : ℕ) (c : Cmd) (d : σ) :
    S.effect (.start s c) d = d := rfl

@[simp] theorem effect_act (s : ℕ) (o : Op) (d : σ) :
    S.effect (.act s o) d = (S.exec o d).2 := rfl

@[simp] theorem effect_crash (d : σ) :
    S.effect (.crash : Label Op Cmd) d = d := rfl

end

end System

/-- An invariant with the relies and preconditions that keep it, for the schedules that a monitor
lets pass. -/
structure Discipline (S : System Ans σ α Cmd) (M : Monitor Op Cmd σ γ) where
  /-- The invariant. -/
  inv : σ × γ → Prop
  /-- What the steps of other sessions do, seen from a session. -/
  rely : ℕ → σ × γ → σ × γ → Prop
  /-- What a session is sure of when it makes a call. -/
  pre : ℕ → Op → σ × γ → Prop
  /-- What an idle session knows of the value it holds. -/
  rest : ℕ → α → σ × γ → Prop
  rely_refl : ∀ s w, rely s w w
  rely_trans : ∀ {s w w' w''}, rely s w w' → rely s w' w'' → rely s w w''
  inv_act : ∀ {s o w}, inv w → M.guard w.2 w.1 (.act s o) → pre s o w → inv (S.after M w (.act s o))
  rely_act : ∀ {s t o w}, s ≠ t → inv w → M.guard w.2 w.1 (.act s o) → pre s o w →
    rely t w (S.after M w (.act s o))
  inv_start : ∀ {s c w}, inv w → M.guard w.2 w.1 (.start s c) →
    inv (S.after M w (.start s c))
  rely_start : ∀ {s t c w}, s ≠ t → inv w → M.guard w.2 w.1 (.start s c) →
    rely t w (S.after M w (.start s c))
  inv_crash : ∀ {w}, inv w → M.guard w.2 w.1 .crash → inv (S.after M w .crash)
  /-- The value of a fresh session needs no knowledge. -/
  rest_idle : ∀ {s w}, inv w → rest s S.idle w

namespace Discipline

variable {S : System Ans σ α Cmd} {M : Monitor Op Cmd σ γ} (D : Discipline S M) {β δ : Type}
  {s : ℕ} {w w' : σ × γ}

/-- Under interference within the rely of session `s`, every call of the program meets its
precondition, and the value it returns satisfies `Q` when it is handed over. -/
def Safe (s : ℕ) (Q : β → σ × γ → Prop) : Prog Ans β → σ × γ → Prop
  | .ret a, w => ∀ w', D.rely s w w' → D.inv w' → Q a w'
  | .call o k, w => ∀ w', D.rely s w w' → D.inv w' → M.guard w'.2 w'.1 (.act s o) →
      D.pre s o w' ∧ Safe s Q (k (S.exec o w'.1).1) (S.after M w' (.act s o))

/-! ## Rules for programs -/

variable {D} {Q R : β → σ × γ → Prop}

theorem Safe.ret {a : β} (h : ∀ w', D.rely s w w' → D.inv w' → Q a w') :
    D.Safe s Q (.ret a) w := h

theorem Safe.call {o : Op} {k : Ans o → Prog Ans β}
    (h : ∀ w', D.rely s w w' → D.inv w' → M.guard w'.2 w'.1 (.act s o) →
      D.pre s o w' ∧ D.Safe s Q (k (S.exec o w'.1).1) (S.after M w' (.act s o))) :
    D.Safe s Q (.call o k) w := h

/-- What is safe now is safe after the others have moved. -/
theorem Safe.rely {p : Prog Ans β} (hp : D.Safe s Q p w) (hw : D.rely s w w') :
    D.Safe s Q p w' := by
  cases p with
  | ret a | call o k => exact fun w'' h ↦ hp w'' (D.rely_trans hw h)

/-- Sequencing: the second program may assume what the first one establishes. -/
theorem Safe.bind {Q : δ → σ × γ → Prop} {p : Prog Ans β} {f : β → Prog Ans δ} (hw : D.inv w)
    (hp : D.Safe s R p w) (hf : ∀ a w', D.inv w' → R a w' → D.Safe s Q (f a) w') :
    D.Safe s Q (p >>= f) w := by
  induction p generalizing w with
  | ret a => exact hf a w hw (hp w (D.rely_refl s w) hw)
  | call o k ih =>
    refine .call fun w' hrely hinv hguard ↦ ?_
    obtain ⟨hpre, hk⟩ := hp w' hrely hinv hguard
    exact ⟨hpre, ih _ (D.inv_act hinv hguard hpre) hk⟩

/-- Weakening the postcondition. -/
theorem Safe.mono {p : Prog Ans β} (hw : D.inv w) (hp : D.Safe s R p w)
    (h : ∀ a w', D.inv w' → R a w' → Q a w') : D.Safe s Q p w := by
  induction p generalizing w with
  | ret a => exact fun w' hrely hinv ↦ h a w' hinv (hp w' hrely hinv)
  | call o k ih =>
    refine .call fun w' hrely hinv hguard ↦ ?_
    obtain ⟨hpre, hk⟩ := hp w' hrely hinv hguard
    exact ⟨hpre, ih _ (D.inv_act hinv hguard hpre) hk⟩

section

variable {F : σ × γ → Prop} (hrely : ∀ {w w'}, F w → D.rely s w w' → F w')
include hrely

/-- What neither the others nor the session's own calls make false holds at the end. -/
theorem Safe.frame (hact : ∀ {o w}, D.inv w → F w → M.guard w.2 w.1 (.act s o) → D.pre s o w → F
    (S.after M w (.act s o))) {p : Prog Ans β} (hp : D.Safe s Q p w) (hw : F w) :
    D.Safe s (fun a w ↦ Q a w ∧ F w) p w := by
  induction p generalizing w with
  | ret a => exact fun w' h hinv ↦ ⟨hp w' h hinv, hrely hw h⟩
  | call o k ih =>
    refine .call fun w' h hinv hguard ↦ ?_
    obtain ⟨hpre, hk⟩ := hp w' h hinv hguard
    exact ⟨hpre, ih _ hk (hact hinv (hrely hw h) hguard hpre)⟩

/-- A program all of whose calls meet their preconditions and keep `F` under a rely that keeps `F`
establishes `F`, and what all its values satisfy. -/
theorem Safe.of_only {V : β → Prop} {c : Op → Prop} {p : Prog Ans β} (hact : ∀ {o w}, c o → D.inv w
    → F w → M.guard w.2 w.1 (.act s o) → D.pre s o w ∧ F (S.after M w (.act s o))) (hp : p.Only c)
    (hV : p.Returns V) (hw : F w) : D.Safe s (fun a w ↦ F w ∧ V a) p w := by
  induction p generalizing w with
  | ret a => exact fun w' h _ ↦ ⟨hrely hw h, hV⟩
  | call o k ih =>
    refine .call fun w' h hinv hguard ↦ ?_
    obtain ⟨hpre, hF⟩ := hact hp.1 hinv (hrely hw h) hguard
    exact ⟨hpre, ih _ (hp.2 _) (hV _) hF⟩

end

/-! ## Adequacy -/

variable (D)

/-- Every command is safe from the state it is started in. -/
def Verified : Prop :=
  ∀ s c a w, D.inv w → M.guard w.2 w.1 (.start s c) → D.rest s a w →
    D.Safe s (D.rest s) (S.body c a) (S.after M w (.start s c))

variable {D}

/-- The invariant holds in every reachable configuration, and what every session still has to do is
safe from there. -/
theorem Verified.reach (hD : D.Verified) {d : σ} (hd : D.inv (d, M.first)) {c : Config Ans σ α}
    {g : γ} (hc : Reach S M d c g) :
    D.inv (c.store, g) ∧ ∀ s, D.Safe s (D.rest s) (c.sess s) (c.store, g) := by
  induction hc with
  | init => exact ⟨hd, fun s w' _ hinv ↦ D.rest_idle hinv⟩
  | @step c c' g e l _ hstep hguard ih =>
    obtain ⟨hinv, hsafe⟩ := ih
    obtain ⟨s, cmd, a, hs, rfl, rfl⟩ | ⟨s, o, k, hs, rfl, rfl⟩ | ⟨rfl, rfl⟩ :=
      S.step_cases hstep
    · refine ⟨D.inv_start (w := (c.store, g)) hinv hguard, fun t ↦ ?_⟩
      by_cases hts : t = s
      · subst hts
        have hrest := hsafe t
        rw [hs] at hrest
        rw [Config.advance_sess_self]
        exact hD t cmd a (c.store, g) hinv hguard (hrest _ (D.rely_refl _ _) hinv)
      · rw [Config.advance_sess_of_ne _ _ _ hts]
        exact (hsafe t).rely (D.rely_start (w := (c.store, g)) (Ne.symm hts) hinv hguard)
    · have hcall := hsafe s
      rw [hs] at hcall
      obtain ⟨hpre, hk⟩ := hcall _ (D.rely_refl _ _) hinv hguard
      refine ⟨D.inv_act (w := (c.store, g)) hinv hguard hpre, fun t ↦ ?_⟩
      by_cases hts : t = s
      · subst hts
        rw [Config.advance_sess_self]
        exact hk
      · rw [Config.advance_sess_of_ne _ _ _ hts]
        exact (hsafe t).rely (D.rely_act (w := (c.store, g)) (Ne.symm hts) hinv hguard hpre)
    · exact ⟨D.inv_crash (w := (c.store, g)) hinv hguard, fun s w' _ hinv' ↦ D.rest_idle hinv'⟩

/-- Everything ever returned satisfies what an idle session knows of its value, as far as steps do
not take it back. -/
theorem Verified.reach_returned (hD : D.Verified) {d : σ} (hd : D.inv (d, M.first))
    {L : α → σ × γ → Prop} (hrest : ∀ {s a w}, D.rest s a w → L a w)
    (hact : ∀ {a s o w}, D.inv w → L a w → M.guard w.2 w.1 (.act s o) → D.pre s o w →
      L a (S.after M w (.act s o)))
    (hstart : ∀ {a s c w}, L a w → L a (S.after M w (.start s c)))
    (hcrash : ∀ {a w}, L a w → L a (S.after M w .crash)) {c : Config Ans σ α} {g : γ}
    (hc : Reach S M d c g) : ∀ a ∈ c.returned, L a (c.store, g) := by
  induction hc with
  | init => simp [System.init]
  | @step c c' g e l hc hstep hguard ih =>
    obtain ⟨hinv, hsafe⟩ := hD.reach hd hc
    obtain ⟨hinv', hsafe'⟩ := hD.reach hd (Reach.step hc hstep hguard)
    have hnew : ∀ s a, c'.sess s = .ret a → L a (c'.store, M.next g c.store l) := by
      intro s a hs
      have hret := hsafe' s
      rw [hs] at hret
      exact hrest (hret _ (D.rely_refl _ _) hinv')
    obtain ⟨s, cmd, b, -, rfl, rfl⟩ | ⟨s, o, k, hs, rfl, rfl⟩ | ⟨rfl, rfl⟩ := S.step_cases hstep
    · intro a ha
      rcases Config.mem_advance_returned.1 ha with ha | ha
      · exact hstart (w := (c.store, g)) (ih a ha)
      · exact hnew s a (by rw [Config.advance_sess_self, ha])
    · intro a ha
      rcases Config.mem_advance_returned.1 ha with ha | ha
      · have hcall := hsafe s
        rw [hs] at hcall
        obtain ⟨hpre, -⟩ := hcall _ (D.rely_refl _ _) hinv hguard
        exact hact (w := (c.store, g)) hinv (ih a ha) hguard hpre
      · exact hnew s a (by rw [Config.advance_sess_self, ha])
    · exact fun a ha ↦ hcrash (w := (c.store, g)) (ih a ha)

end Discipline

end Interleaving
