import Mathlib.Data.List.Basic

/-!
# Support — Effect

Throwing code over a state: `EStateM ε σ`, where a throw keeps the state it happened in.  A
precondition calculus with one postcondition for a normal end and one for a throw, and the two
ways a sequence of actions can end.

* `wp_bind`, `wp_mono`: the calculus follows the sequence; a weaker postcondition suffices.
* `run_bind_eq_ok`: a sequence that ends normally does so through an intermediate state.
* `mapM_eq_ok`: so does a list of them, item by item.
-/

namespace Ashacky.Support

variable {ε σ τ α β : Type}

/-- Run from `s`, the action ends normally in `Q` or throws in `E`. -/
def wp (x : EStateM ε σ α) (Q : α → σ → Prop) (E : ε → σ → Prop) (s : σ) : Prop :=
  match x.run s with
  | .ok a s' => Q a s'
  | .error e s' => E e s'

section Rules

variable {x : EStateM ε σ α} {Q Q' : α → σ → Prop} {E E' : ε → σ → Prop} {s : σ}

@[simp] theorem wp_pure (a : α) : wp (pure a : EStateM ε σ α) Q E s ↔ Q a s := Iff.rfl

@[simp] theorem wp_throw (e : ε) : wp (throw e : EStateM ε σ α) Q E s ↔ E e s := Iff.rfl

@[simp] theorem wp_get {Q : σ → σ → Prop} : wp (get : EStateM ε σ σ) Q E s ↔ Q s s := Iff.rfl

@[simp] theorem wp_set {Q : PUnit → σ → Prop} (s' : σ) :
    wp (set s' : EStateM ε σ PUnit) Q E s ↔ Q ⟨⟩ s' := Iff.rfl

@[simp] theorem wp_modify {Q : PUnit → σ → Prop} (f : σ → σ) :
    wp (modify f : EStateM ε σ PUnit) Q E s ↔ Q ⟨⟩ (f s) := Iff.rfl

@[simp] theorem wp_bind {f : α → EStateM ε σ β} {Q : β → σ → Prop} :
    wp (x >>= f) Q E s ↔ wp x (fun a s' => wp (f a) Q E s') E s := by
  simp only [wp, EStateM.run_bind]
  cases x.run s <;> rfl

@[simp] theorem wp_modifyGet {f : σ → α × σ} :
    wp (modifyGet f : EStateM ε σ α) Q E s ↔ Q (f s).1 (f s).2 := Iff.rfl

@[simp] theorem wp_tryCatch {handle : ε → EStateM ε σ α} :
    wp (tryCatch x handle) Q E s ↔ wp x Q (fun e s' => wp (handle e) Q E s') s := by
  change (match EStateM.tryCatch x handle s with | .ok a s' => Q a s' | .error e s' => E e s') ↔ _
  delta EStateM.tryCatch
  simp only [wp, EStateM.run]
  cases x s <;> rfl

theorem wp_mono (h : wp x Q E s) (hQ : ∀ a s', Q a s' → Q' a s') (hE : ∀ e s', E e s' → E' e s') :
    wp x Q' E' s := by
  simp only [wp] at h ⊢
  cases hx : x.run s with
  | ok a s' => rw [hx] at h; exact hQ a s' h
  | error e s' => rw [hx] at h; exact hE e s' h

/-- Every action ends in one of the two ways. -/
theorem wp_intro (hQ : ∀ a s', x.run s = .ok a s' → Q a s')
    (hE : ∀ e s', x.run s = .error e s' → E e s') : wp x Q E s := by
  simp only [wp]
  cases hx : x.run s with
  | ok a s' => exact hQ a s' hx
  | error e s' => exact hE e s' hx

theorem wp_and (h : wp x Q E s) (h' : wp x Q' E' s) :
    wp x (fun a s' => Q a s' ∧ Q' a s') (fun e s' => E e s' ∧ E' e s') s := by
  simp only [wp] at h h' ⊢
  cases hx : x.run s with
  | ok a s' => rw [hx] at h h'; exact ⟨h, h'⟩
  | error e s' => rw [hx] at h h'; exact ⟨h, h'⟩

theorem wp_ite {c : Prop} [Decidable c] {y : EStateM ε σ α} (ht : c → wp x Q E s)
    (he : ¬ c → wp y Q E s) : wp (if c then x else y) Q E s := by
  by_cases hc : c
  · rw [if_pos hc]; exact ht hc
  · rw [if_neg hc]; exact he hc

end Rules

/-- Throwing pure code, over a state. -/
def fromExcept : Except ε α → EStateM ε σ α
  | .ok a => pure a
  | .error e => throw e

theorem wp_fromExcept {x : Except ε α} {Q : α → σ → Prop} {E : ε → σ → Prop} {s : σ}
    (hQ : ∀ a, x = .ok a → Q a s) (hE : ∀ e, x = .error e → E e s) : wp (fromExcept x) Q E s := by
  cases x with
  | ok a => exact hQ a rfl
  | error e => exact hE e rfl

theorem run_fromExcept_eq_ok {x : Except ε α} {s s' : σ} {a : α} :
    (fromExcept x : EStateM ε σ α).run s = .ok a s' ↔ x = .ok a ∧ s' = s := by
  cases x with
  | ok b =>
      change EStateM.Result.ok b s = .ok a s' ↔ _
      simp [eq_comm]
  | error e =>
      constructor
      · intro h
        cases h
      · rintro ⟨⟨⟩, _⟩

/-- What an action ensures when it ends normally. -/
theorem wp.ok {x : EStateM ε σ α} {Q : α → σ → Prop} {E : ε → σ → Prop} {s s' : σ} {a : α}
    (h : wp x Q E s) (hx : x.run s = .ok a s') : Q a s' := by
  simp only [wp, hx] at h
  exact h

/-- What an action ensures when it throws. -/
theorem wp.error {x : EStateM ε σ α} {Q : α → σ → Prop} {E : ε → σ → Prop} {s s' : σ} {e : ε}
    (h : wp x Q E s) (hx : x.run s = .error e s') : E e s' := by
  simp only [wp, hx] at h
  exact h

/-- An action with a known end. -/
theorem wp_of_run_eq_ok {x : EStateM ε σ α} {Q : α → σ → Prop} {E : ε → σ → Prop} {s s' : σ} {a : α}
    (hx : x.run s = .ok a s') (h : Q a s') : wp x Q E s := by
  simp only [wp, hx]
  exact h

/-- An action that cannot throw, with the one normal end it can have. -/
theorem run_eq_ok_of_wp {x : EStateM ε σ α} {s s' : σ} {a : α}
    (h : wp x (fun b t => b = a ∧ t = s') (fun _ _ => False) s) : x.run s = .ok a s' := by
  cases hx : x.run s with
  | ok b t =>
      obtain ⟨rfl, rfl⟩ := h.ok hx
      rfl
  | error e t => exact (h.error hx).elim

/-- A sequence ends normally when both parts do. -/
theorem run_bind_eq_ok {x : EStateM ε σ α} {f : α → EStateM ε σ β} {s s' : σ} {b : β} :
    (x >>= f).run s = .ok b s' ↔ ∃ a s₁, x.run s = .ok a s₁ ∧ (f a).run s₁ = .ok b s' := by
  rw [EStateM.run_bind]
  cases hx : x.run s with
  | ok a s₁ =>
      constructor
      · intro h
        exact ⟨a, s₁, rfl, h⟩
      · rintro ⟨_, _, ⟨⟩, h⟩
        exact h
  | error e s₁ => simp

/-- The same for throwing pure code. -/
theorem except_bind_eq_ok {x : Except ε α} {f : α → Except ε β} {b : β} :
    (x >>= f) = .ok b ↔ ∃ a, x = .ok a ∧ f a = .ok b := by
  cases x with
  | ok a =>
      constructor
      · intro h
        exact ⟨a, rfl, h⟩
      · rintro ⟨_, ⟨⟩, h⟩
        exact h
  | error e =>
      constructor
      · intro h
        cases h
      · rintro ⟨_, ⟨⟩, _⟩

/-- A list is mapped when each of its items is, in order. -/
theorem mapM_eq_ok {f : α → Except ε β} {xs : List α} {ys : List β} :
    xs.mapM f = .ok ys ↔ xs.map f = ys.map .ok := by
  induction xs generalizing ys with
  | nil =>
      rw [List.mapM_nil, List.map_nil, List.nil_eq, List.map_eq_nil_iff]
      exact ⟨fun h => (Except.ok.inj h).symm, fun h => h ▸ rfl⟩
  | cons x xs ih =>
      rw [List.mapM_cons, List.map_cons, eq_comm, @eq_comm _ (f x :: _), List.map_eq_cons_iff]
      simp only [@eq_comm _ (Except.ok ys), except_bind_eq_ok, ih]
      constructor
      · rintro ⟨y, hy, ys', hys, h⟩
        cases h
        exact ⟨y, ys', rfl, hy.symm, hys.symm⟩
      · rintro ⟨y, ys', rfl, hy, hys⟩
        exact ⟨y, hy.symm, ys', hys.symm, rfl⟩

/-- Two lists, one after the other. -/
theorem mapM_append_eq_ok {f : α → Except ε β} {xs ys : List α} {zs : List β} :
    (xs ++ ys).mapM f = .ok zs ↔
      ∃ us, xs.mapM f = .ok us ∧ ∃ vs, ys.mapM f = .ok vs ∧ zs = us ++ vs := by
  simp only [List.mapM_append, except_bind_eq_ok, pure, Except.pure, Except.ok.injEq,
    @eq_comm _ zs]

/-- The results of a mapped list. -/
theorem mem_of_map_eq_ok {f : α → Except ε β} {xs : List α} {ys : List β}
    (h : xs.map f = ys.map .ok) {y : β} : y ∈ ys ↔ ∃ x ∈ xs, f x = .ok y := by
  rw [← List.mem_map, h, List.mem_map_of_injective fun _ _ => Except.ok.inj]

/-- Items that are all mapped make a mapped list. -/
theorem exists_map_eq_ok {f : α → Except ε β} {xs : List α} (h : ∀ x ∈ xs, ∃ y, f x = .ok y) :
    ∃ ys : List β, xs.map f = ys.map .ok := by
  induction xs with
  | nil => exact ⟨[], rfl⟩
  | cons x xs ih =>
      obtain ⟨y, hy⟩ := h x (by simp)
      obtain ⟨ys, hys⟩ := ih fun x hx => h x (List.mem_cons_of_mem _ hx)
      exact ⟨y :: ys, by rw [List.map_cons, List.map_cons, hy, hys]⟩
end Ashacky.Support
