import Ashacky.Support.Machine
import Mathlib.Algebra.Order.Ring.Nat

/-!
# Support — Progress

Endless runs of a transition relation, and what has to happen in them.

* `Endless`: a run without an end; `Endless.steps`: it is a run up to any of its states.
* `Endless.Fair`: steps of a kind that can be taken from some time on are taken.
* `Endless.reaches`: **the rule of the helpful steps**.  Before the goal an invariant holds, with it a
  helpful step can be taken, and a rank that no step raises is lowered by the helpful ones; then the
  goal is reached.
* `Endless.cons`: a step before an endless run.
* `Endless.exists_lasso`: events that lead back to where they started can be taken for ever.
-/

namespace Ashacky.Support

variable {σ ε ο : Type*}

/-- A run without an end. -/
structure Endless (step : σ → ε → ο → σ → Prop) where
  state : ℕ → σ
  event : ℕ → ε
  taken : ∀ n, ∃ o, step (state n) (event n) o (state (n + 1))

namespace Endless

variable {step : σ → ε → ο → σ → Prop}

theorem steps (r : Endless step) (n : ℕ) : ∃ t, Steps step (r.state 0) t (r.state n) := by
  induction n with
  | zero => exact ⟨[], .refl _⟩
  | succ n ih =>
      obtain ⟨t, ht⟩ := ih
      obtain ⟨o, ho⟩ := r.taken n
      exact ⟨t ++ [(r.event n, o)], ht.append (.one ho)⟩

/-- Steps of the kind that can be taken from some time on are taken. -/
def Fair (r : Endless step) (kind : σ → ε → Prop) : Prop :=
  ∀ n, (∀ m, n ≤ m → ∃ e o s', kind (r.state m) e ∧ step (r.state m) e o s') →
    ∃ m, n ≤ m ∧ kind (r.state m) (r.event m)

section Rank
variable {r : Endless step} {kind : σ → ε → Prop} {goal : ℕ → Prop} {I : σ → Prop} {n : ℕ}

/-- Up to the goal, the invariant holds and the rank is not raised. -/
theorem kept_of_not_goal {rank : σ → ℕ}
    (hkeep : ∀ m, n ≤ m → I (r.state m) → ¬ goal m →
      I (r.state (m + 1)) ∧ rank (r.state (m + 1)) ≤ rank (r.state m))
    (hn : I (r.state n)) (hno : ∀ m, n ≤ m → ¬ goal m) {m : ℕ} (hm : n ≤ m) :
    I (r.state m) ∧ rank (r.state m) ≤ rank (r.state n) := by
  induction m, hm using Nat.le_induction with
  | base => exact ⟨hn, le_rfl⟩
  | succ m hm ih =>
      obtain ⟨hI, hrank⟩ := hkeep m hm ih.1 (hno m hm)
      exact ⟨hI, hrank.trans ih.2⟩

/-- **The rule of the helpful steps.** -/
theorem reaches (rank : σ → ℕ) (hfair : r.Fair kind)
    (hkeep : ∀ m, n ≤ m → I (r.state m) → ¬ goal m →
      I (r.state (m + 1)) ∧ rank (r.state (m + 1)) ≤ rank (r.state m))
    (hhelp : ∀ m, n ≤ m → I (r.state m) → ¬ goal m → kind (r.state m) (r.event m) →
      rank (r.state (m + 1)) < rank (r.state m))
    (henabled : ∀ m, n ≤ m → I (r.state m) → ∃ e o s', kind (r.state m) e ∧ step (r.state m) e o s')
    (hn : I (r.state n)) : ∃ m, n ≤ m ∧ goal m := by
  by_contra hno
  have hnever : ∀ m, n ≤ m → ¬ goal m := fun m hm hgoal => hno ⟨m, hm, hgoal⟩
  -- The induction is on the rank: without the goal, fairness would lower it again and again.
  have hdown : ∀ k m, n ≤ m → rank (r.state m) ≠ k := by
    intro k
    induction k using Nat.strong_induction_on with
    | _ k ih =>
        intro m hm hrank
        have hfrom {j : ℕ} (hj : m ≤ j) :=
          kept_of_not_goal (fun i hi => hkeep i (hm.trans hi))
            (kept_of_not_goal hkeep hn hnever hm).1 (fun i hi => hnever i (hm.trans hi)) hj
        obtain ⟨j, hj, hkind⟩ := hfair m fun j hj => henabled j (hm.trans hj) (hfrom hj).1
        have hlt := hhelp j (hm.trans hj) (hfrom hj).1 (hnever j (hm.trans hj)) hkind
        exact ih _ (hrank ▸ hlt.trans_le (hfrom hj).2) (j + 1) (hm.trans (hj.trans j.le_succ)) rfl
  exact hdown _ n le_rfl rfl

end Rank

/-- A step before an endless run. -/
def cons {s : σ} {e : ε} (r : Endless step) (h : ∃ o, step s e o (r.state 0)) : Endless step where
  state
    | 0 => s
    | n + 1 => r.state n
  event
    | 0 => e
    | n + 1 => r.event n
  taken
    | 0 => h
    | n + 1 => r.taken n

/-- The state that a list of events leads to. -/
def after (step : σ → ε → Option (ο × σ)) (s : σ) (es : List ε) : Option σ :=
  es.foldlM (fun s e => (step s e).map Prod.snd) s

theorem after_snoc (step : σ → ε → Option (ο × σ)) (s : σ) (es : List ε) (e : ε) :
    after step s (es ++ [e]) = (after step s es).bind fun s => (step s e).map Prod.snd := by
  rw [after, List.foldlM_append]
  exact congrArg (Option.bind _) (funext fun s => bind_pure ((step s e).map Prod.snd))

/-- **Events that lead back to where they started can be taken for ever.** -/
theorem exists_lasso {step : σ → ε → Option (ο × σ)} {s : σ} {cycle : List ε} (hne : cycle ≠ [])
    (h : after step s cycle = some s) :
    ∃ r : Endless fun s e o s' => step s e = some (o, s'), ∀ n,
      cycle[n % cycle.length]? = some (r.event n) ∧
        after step s (cycle.take (n % cycle.length)) = some (r.state n) := by
  have hlt (n : ℕ) : n % cycle.length < cycle.length :=
    Nat.mod_lt n (List.length_pos_of_ne_nil hne)
  have hprefix (n : ℕ) : ∃ s', after step s (cycle.take (n % cycle.length)) = some s' := by
    rw [← List.take_append_drop (n % cycle.length) cycle, after, List.foldlM_append] at h
    obtain ⟨s', hs', -⟩ := Option.bind_eq_some_iff.mp h
    exact ⟨s', hs'⟩
  choose state hstate using hprefix
  refine ⟨⟨state, fun n => cycle.get ⟨n % cycle.length, hlt n⟩, fun n => ?_⟩, fun n =>
    ⟨List.getElem?_eq_getElem (hlt n), hstate n⟩⟩
  have hsnoc : after step s (cycle.take (n % cycle.length + 1)) =
      (step (state n) (cycle.get ⟨n % cycle.length, hlt n⟩)).map Prod.snd := by
    rw [← List.take_append_getElem (hlt n), after_snoc, hstate n]
    rfl
  -- The next event of the cycle, or its first, when this was its last.
  have hnext : (step (state n) (cycle.get ⟨n % cycle.length, hlt n⟩)).map Prod.snd = some (state (n + 1)) := by
    rw [← hsnoc, ← hstate (n + 1)]
    have hmod : (n + 1) % cycle.length = (n % cycle.length + 1) % cycle.length :=
      (Nat.mod_add_mod n cycle.length 1).symm
    rcases Nat.lt_or_eq_of_le (Nat.succ_le_of_lt (hlt n)) with hin | hlast
    · rw [hmod, Nat.mod_eq_of_lt hin]
    · rw [hmod, ← Nat.succ_eq_add_one, hlast, Nat.mod_self, List.take_length]
      exact h
  obtain ⟨⟨o, s'⟩, hstep, hs'⟩ := Option.map_eq_some_iff.mp hnext
  exact ⟨o, hs' ▸ hstep⟩

end Endless

end Ashacky.Support
