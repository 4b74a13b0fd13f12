import Mathlib.Data.Fintype.Basic
import Mathlib.Data.Finset.Insert
import ElephantShrew.Verified.StepSystem

/-!
# What a fair scheduler brings about

An infinite run of a system is a `Trace`.  The scheduler may pause, and is fair
to a set of labels when it takes one of them again and again if it can again
and again.  `LeadsTo P Q` says that after every state with `P` comes one with
`Q`.

The rule is `LeadsTo.ranked`: as long as `Q` is not reached no step raises a
rank, and somebody the scheduler is fair to can lower it, or will be able to.
A set of stable goals is reached together (`LeadsTo.all`).
-/

namespace ElephantShrew.Verified

variable {State Label : Type}

namespace System

/-- The end of a run. -/
def Reachable (S : System State Label) (s : State) : Prop := ∃ tr, S.Run tr s

/-- One of the labels can be taken. -/
def Enabled (S : System State Label) (A : Label → Prop) (s : State) : Prop :=
  ∃ l s', A l ∧ S.step s l s'

end System

/-- An infinite run. -/
structure Trace (S : System State Label) where
  state : Nat → State
  /-- the step taken, if any -/
  label : Nat → Option Label
  init : S.init (state 0)
  step : ∀ t l, label t = some l → S.step (state t) l (state (t + 1))
  pause : ∀ t, label t = none → state (t + 1) = state t

namespace Trace

variable {S : System State Label} {ρ : Trace S}

theorem reachable (ρ : Trace S) (t : Nat) : S.Reachable (ρ.state t) := by
  induction t with
  | zero => exact ⟨[], .init ρ.init⟩
  | succ t ih =>
      obtain ⟨tr, h⟩ := ih
      cases hl : ρ.label t with
      | none =>
          rw [ρ.pause t hl]
          exact ⟨tr, h⟩
      | some l => exact ⟨tr ++ [l], h.step (ρ.step t l hl)⟩

/-- The scheduler takes one of the labels. -/
def Takes (ρ : Trace S) (A : Label → Prop) (t : Nat) : Prop := ∃ l, ρ.label t = some l ∧ A l

/-- Strong fairness. -/
def Fair (ρ : Trace S) (A : Label → Prop) : Prop :=
  (∀ t, ∃ t' ≥ t, S.Enabled A (ρ.state t')) → ∀ t, ∃ t' ≥ t, ρ.Takes A t'

def LeadsTo (ρ : Trace S) (P Q : State → Prop) : Prop :=
  ∀ t, P (ρ.state t) → ∃ t' ≥ t, Q (ρ.state t')

variable {P Q R : State → Prop}

/-! ## Rules of leads-to -/

theorem LeadsTo.of_imp (h : ∀ s, S.Reachable s → P s → Q s) : ρ.LeadsTo P Q :=
  fun t hP => ⟨t, Nat.le_refl t, h _ (ρ.reachable t) hP⟩

theorem LeadsTo.trans (h : ρ.LeadsTo P Q) (h' : ρ.LeadsTo Q R) : ρ.LeadsTo P R := by
  intro t hP
  obtain ⟨u, hu, hQ⟩ := h t hP
  obtain ⟨v, hv, hR⟩ := h' u hQ
  exact ⟨v, hu.trans hv, hR⟩

theorem LeadsTo.or (h : ρ.LeadsTo P R) (h' : ρ.LeadsTo Q R) :
    ρ.LeadsTo (fun s => P s ∨ Q s) R := by
  intro t hPQ
  rcases hPQ with hP | hQ
  · exact h t hP
  · exact h' t hQ

theorem LeadsTo.exists {ι : Type} {P : ι → State → Prop} (h : ∀ i, ρ.LeadsTo (P i) Q) :
    ρ.LeadsTo (fun s => ∃ i, P i s) Q := by
  intro t hP
  obtain ⟨i, hP⟩ := hP
  exact h i t hP

/-- What steps preserve, pauses included, until something else holds. -/
theorem persists (h : ∀ s l s', S.Reachable s → P s → S.step s l s' → P s' ∨ Q s') {t : Nat}
    (hP : P (ρ.state t)) {t' : Nat} (ht : t ≤ t') :
    P (ρ.state t') ∨ ∃ u, t ≤ u ∧ Q (ρ.state u) := by
  induction t', ht using Nat.le_induction with
  | base => exact Or.inl hP
  | succ u hu ih =>
      rcases ih with ih | ih
      · cases hl : ρ.label u with
        | none =>
            rw [ρ.pause u hl]
            exact Or.inl ih
        | some l =>
            rcases h _ l _ (ρ.reachable u) ih (ρ.step u l hl) with hP | hQ
            · exact Or.inl hP
            · exact Or.inr ⟨u + 1, hu.trans (Nat.le_succ u), hQ⟩
      · exact Or.inr ih

/-- What every step preserves holds from then on. -/
theorem stable (h : ∀ s l s', S.Reachable s → P s → S.step s l s' → P s') {t : Nat}
    (hP : P (ρ.state t)) {t' : Nat} (ht : t ≤ t') : P (ρ.state t') := by
  have hstay := persists (Q := fun _ => False)
    (fun s l s' hs hP hstep => Or.inl (h s l s' hs hP hstep)) hP ht
  rcases hstay with hP | ⟨u, -, hfalse⟩
  · exact hP
  · exact hfalse.elim

/-- What holds while waiting holds when the wait ends. -/
theorem LeadsTo.while (h : ρ.LeadsTo P R)
    (hstay : ∀ s l s', S.Reachable s → P s → S.step s l s' → P s' ∨ Q s') :
    ρ.LeadsTo P fun s => (P s ∧ R s) ∨ Q s := by
  intro t hP
  obtain ⟨u, hu, hR⟩ := h t hP
  rcases persists hstay hP hu with hP' | ⟨v, hv, hQ⟩
  · exact ⟨u, hu, Or.inl ⟨hP', hR⟩⟩
  · exact ⟨v, hv, Or.inr hQ⟩

/-- A rank goes down until the goal is reached. -/
theorem LeadsTo.rank (f : State → Nat)
    (h : ∀ k, ρ.LeadsTo (fun s => P s ∧ f s = k) fun s => Q s ∨ (P s ∧ f s < k)) :
    ρ.LeadsTo P Q := by
  suffices hall : ∀ k t, P (ρ.state t) → f (ρ.state t) = k → ∃ t' ≥ t, Q (ρ.state t') from
    fun t hP => hall _ t hP rfl
  intro k
  induction k using Nat.strong_induction_on with
  | _ k ih =>
      intro t hP hk
      obtain ⟨u, hu, hQ | ⟨hP', hless⟩⟩ := h k t ⟨hP, hk⟩
      · exact ⟨u, hu, hQ⟩
      · obtain ⟨v, hv, hQ⟩ := ih _ hless u hP' rfl
        exact ⟨v, hu.trans hv, hQ⟩

/-- Stable goals are reached together. -/
theorem LeadsTo.all {ι : Type} [Fintype ι] {Q : ι → State → Prop}
    (h : ∀ i, ρ.LeadsTo P (Q i))
    (hP : ∀ s l s', S.Reachable s → P s → S.step s l s' → P s')
    (hstable : ∀ i s l s', S.Reachable s → Q i s → S.step s l s' → Q i s') :
    ρ.LeadsTo P fun s => ∀ i, Q i s := by
  classical
  suffices hsome : ∀ F : Finset ι, ρ.LeadsTo P fun s => P s ∧ ∀ i ∈ F, Q i s by
    intro t ht
    obtain ⟨u, hu, -, hQ⟩ := hsome Finset.univ t ht
    exact ⟨u, hu, fun i => hQ i (Finset.mem_univ i)⟩
  intro F
  induction F using Finset.induction_on with
  | empty => exact .of_imp fun s _ ht => ⟨ht, fun i hi => absurd hi (Finset.notMem_empty i)⟩
  | insert i F _ ih =>
      intro t ht
      obtain ⟨u, hu, hPu, hF⟩ := ih t ht
      obtain ⟨v, hv, hQ⟩ := h i u hPu
      refine ⟨v, hu.trans hv, stable hP hPu hv, fun j hj => ?_⟩
      rcases Finset.mem_insert.mp hj with rfl | hj
      · exact hQ
      · exact stable (hstable j) (hF j hj) hv

/-! ## The rule of fairness -/

/-- A step the scheduler is fair to, and that will be possible. -/
theorem LeadsTo.fair {A : Label → Prop} (hfair : ρ.Fair A)
    (hstay : ∀ s l s', S.Reachable s → P s → S.step s l s' → Q s' ∨ (P s' ∧ ¬ A l))
    (henabled : ρ.LeadsTo P fun s => S.Enabled A s ∨ Q s) : ρ.LeadsTo P Q := by
  intro t hP
  by_contra hnever
  have hnone : ∀ u, t ≤ u → ¬ Q (ρ.state u) := fun u hu hQ => hnever ⟨u, hu, hQ⟩
  have hkeeps : ∀ s l s', S.Reachable s → P s → S.step s l s' → P s' ∨ Q s' := by
    intro s l s' hs hPs hstep
    rcases hstay s l s' hs hPs hstep with hQ | ⟨hP', -⟩
    · exact Or.inr hQ
    · exact Or.inl hP'
  have hforever : ∀ u, t ≤ u → P (ρ.state u) := by
    intro u hu
    rcases persists hkeeps hP hu with hP' | ⟨v, hv, hQ⟩
    · exact hP'
    · exact absurd hQ (hnone v hv)
  have hagain : ∀ u, ∃ u' ≥ u, S.Enabled A (ρ.state u') := by
    intro u
    obtain ⟨v, hv, hen | hQ⟩ := henabled (max t u) (hforever _ (Nat.le_max_left t u))
    · exact ⟨v, (Nat.le_max_right t u).trans hv, hen⟩
    · exact absurd hQ (hnone v ((Nat.le_max_left t u).trans hv))
  obtain ⟨u, hu, l, hl, hA⟩ := hfair hagain t
  rcases hstay _ l _ (ρ.reachable u) (hforever u hu) (ρ.step u l hl) with hQ | ⟨-, hnot⟩
  · exact hnone (u + 1) (Nat.le_succ_of_le hu) hQ
  · exact hnot hA

/-- **Progress.**  No step raises the rank before the goal is reached; the party
that is to move keeps its turn as long as the rank stays, and its step lowers
the rank. -/
theorem LeadsTo.ranked {ι : Type} {A : ι → Label → Prop} (hfair : ∀ i, ρ.Fair (A i))
    (rank : State → Nat) (turn : State → ι)
    (hstay : ∀ s l s', S.Reachable s → P s → S.step s l s' → Q s' ∨ (P s' ∧
      (rank s' < rank s ∨ (rank s' = rank s ∧ turn s' = turn s ∧ ¬ A (turn s) l))))
    (henabled : ∀ k i, ρ.LeadsTo (fun s => P s ∧ rank s = k ∧ turn s = i)
      fun s => S.Enabled (A i) s ∨ Q s ∨ (P s ∧ rank s < k)) :
    ρ.LeadsTo P Q := by
  apply LeadsTo.rank rank
  intro k
  suffices hturn : ∀ i, ρ.LeadsTo (fun s => P s ∧ rank s = k ∧ turn s = i)
      fun s => Q s ∨ (P s ∧ rank s < k) from
    fun t ht => hturn _ t ⟨ht.1, ht.2, rfl⟩
  intro i
  apply LeadsTo.fair (hfair i) _ (henabled k i)
  rintro s l s' hs ⟨hP, hk, hi⟩ hstep
  rcases hstay s l s' hs hP hstep with hQ | ⟨hP', hless | ⟨hsame, hturn, hnot⟩⟩
  · exact Or.inl (Or.inl hQ)
  · exact Or.inl (Or.inr ⟨hP', by omega⟩)
  · rw [hi] at hturn hnot
    exact Or.inr ⟨⟨hP', hsame.trans hk, hturn⟩, hnot⟩

/-! ## Runs that end -/

/-- Every run goes on as a trace in which nothing happens any more. -/
theorem exists_of_run {tr : List Label} {s : State} (h : S.Run tr s) :
    ∃ ρ : Trace S, ∀ t ≥ tr.length, ρ.state t = s ∧ ρ.label t = none := by
  induction h with
  | init h =>
      exact ⟨⟨fun _ => _, fun _ => none, h, fun _ _ hl => (nomatch hl), fun _ _ => rfl⟩,
        fun _ _ => ⟨rfl, rfl⟩⟩
  | @step tr s s' l h hs ih =>
      obtain ⟨ρ, hρ⟩ := ih
      refine ⟨⟨fun t => if t ≤ tr.length then ρ.state t else s',
        fun t => if t = tr.length then some l else if t < tr.length then ρ.label t else none,
        ?_, ?_, ?_⟩, ?_⟩
      · rw [if_pos (Nat.zero_le _)]
        exact ρ.init
      · intro t l' hl
        rcases Nat.lt_trichotomy t tr.length with ht | ht | ht
        · rw [if_neg (by omega), if_pos ht] at hl
          rw [if_pos ht.le, if_pos (show t + 1 ≤ tr.length from ht)]
          exact ρ.step t l' hl
        · rw [if_pos ht] at hl
          injection hl with hl
          rw [if_pos ht.le, if_neg (by omega), (hρ t ht.ge).1, ← hl]
          exact hs
        · rw [if_neg (by omega), if_neg (by omega)] at hl
          cases hl
      · intro t hl
        rcases Nat.lt_trichotomy t tr.length with ht | ht | ht
        · rw [if_neg (by omega), if_pos ht] at hl
          rw [if_pos ht.le, if_pos (show t + 1 ≤ tr.length from ht)]
          exact ρ.pause t hl
        · rw [if_pos ht] at hl
          cases hl
        · rw [if_neg (by omega), if_neg (by omega)]
      · intro t ht
        rw [List.length_append, List.length_singleton] at ht
        exact ⟨if_neg (by omega), (if_neg (by omega)).trans (if_neg (by omega))⟩

/-- A scheduler is fair to what is not possible in the end. -/
theorem Fair.of_end {A : Label → Prop} {n : Nat} {s : State} (h : ∀ t ≥ n, ρ.state t = s)
    (hnot : ¬ S.Enabled A s) : ρ.Fair A := by
  intro hagain
  obtain ⟨t, ht, hen⟩ := hagain n
  rw [h t ht] at hen
  exact absurd hen hnot

end Trace

end ElephantShrew.Verified
