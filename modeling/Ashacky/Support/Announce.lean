import Mathlib.Data.Nat.ModEq
import Ashacky.Support.Machine

/-!
# Support — Announcements

A machine with a `view` that is read from outside, and announcements of its changes that are put
together: a change makes one due, and what is due is announced later.  A step is *heralded* if it
announces, or keeps what is due and leaves an announcement due wherever it changes the view.

* `Heralded.trans`: what is heralded piece by piece is heralded.
* `Steps.within`: a run is one of steps from states with an invariant.
* `Steps.heralded`: over a run of heralded steps the view is as it was, or an announcement is due or
  was made.
* `Steps.counted`: a counter that every announcement advances says how many there were.
* `Steps.seen`: a reader that finds the counter as it was finds the view as it was, unless an
  announcement is due.
-/

namespace Ashacky.Support

variable {σ ε ο υ : Type*}

/-- What a step may do to the view, by the announcements it makes. -/
def Heralded (view : σ → υ) (due : σ → Prop) (announced : Nat) (s s' : σ) : Prop :=
  0 < announced ∨ (due s → due s') ∧ (view s' = view s ∨ due s')

section Heralded
variable {view : σ → υ} {due : σ → Prop} {m n : Nat} {s s₁ s' : σ}

theorem Heralded.refl (s : σ) : Heralded view due 0 s s := .inr ⟨id, .inl rfl⟩

theorem Heralded.trans (h : Heralded view due m s s₁) (h' : Heralded view due n s₁ s') :
    Heralded view due (m + n) s s' := by
  obtain h | ⟨hdue, hview⟩ := h
  · exact .inl (Nat.add_pos_left h n)
  obtain h' | ⟨hdue', hview'⟩ := h'
  · exact .inl (Nat.add_pos_right m h')
  refine .inr ⟨hdue' ∘ hdue, ?_⟩
  obtain hview | h₁ := hview
  · exact hview'.imp_left fun h => h.trans hview
  · exact .inr (hdue' h₁)

/-- Nothing that is seen changes. -/
theorem Heralded.same (hview : view s' = view s) (hdue : due s → due s') : Heralded view due m s s' :=
  .inr ⟨hdue, .inl hview⟩

/-- An announcement is due. -/
theorem Heralded.of_due (h : due s') : Heralded view due m s s' := .inr ⟨fun _ => h, .inr h⟩

end Heralded

/-- The announcements of a run. -/
def announcements (announced : ο → Nat) (t : List (ε × ο)) : Nat :=
  (t.map fun x => announced x.2).sum

section Runs
variable {step : σ → ε → ο → σ → Prop} {view : σ → υ} {due : σ → Prop} {announced : ο → Nat}
  {counter : σ → Nat} {s s' : σ} {t : List (ε × ο)}

theorem announcements_cons (e : ε) (o : ο) (t : List (ε × ο)) :
    announcements announced ((e, o) :: t) = announced o + announcements announced t := by
  simp only [announcements, List.map_cons, List.sum_cons]

/-- A run that starts with an invariant takes each step from a state with it. -/
theorem Steps.within {I : σ → Prop} (h : Steps step s t s')
    (hstep : ∀ {s e o s'}, I s → step s e o s' → I s') (hs : I s) :
    Steps (fun s e o s' => step s e o s' ∧ I s) s t s' := by
  induction h with
  | refl s => exact .refl s
  | more h _ ih => exact .more ⟨h, hs⟩ (ih (hstep hs h))

/-- A run of heralded steps is heralded. -/
theorem Steps.heralded (h : Steps step s t s')
    (hstep : ∀ {s e o s'}, step s e o s' → Heralded view due (announced o) s s') :
    Heralded view due (announcements announced t) s s' := by
  induction h with
  | refl s => exact Heralded.refl s
  | more h _ ih =>
      rw [announcements_cons]
      exact (hstep h).trans ih

/-- A counter modulo `w` that each announcement advances. -/
theorem Steps.counted {w : Nat} (h : Steps step s t s')
    (hstep : ∀ {s e o s'}, step s e o s' → counter s' % w = (counter s + announced o) % w) :
    counter s' % w = (counter s + announcements announced t) % w := by
  induction h with
  | refl s => rfl
  | @more s s₁ s' e o t h _ ih =>
      rw [ih, announcements_cons, ← Nat.add_assoc, Nat.add_mod, hstep h, ← Nat.add_mod]

/-- **What a revision says.**  Between two reads that find the same counter, with fewer
announcements than it has values, the view did not change, unless an announcement is due. -/
theorem Steps.seen {w : Nat} (h : Steps step s t s')
    (hstep : ∀ {s e o s'}, step s e o s' → Heralded view due (announced o) s s')
    (hcount : ∀ {s e o s'}, step s e o s' → counter s' % w = (counter s + announced o) % w)
    (hlt : announcements announced t < w) (hsame : counter s' % w = counter s % w) :
    view s' = view s ∨ due s' := by
  have hzero : announcements announced t = 0 := by
    have h₁ : (counter s + announcements announced t) ≡ counter s + 0 [MOD w] :=
      (h.counted hcount).symm.trans hsame
    have h₂ := Nat.ModEq.add_left_cancel' _ h₁
    rwa [Nat.ModEq, Nat.mod_eq_of_lt hlt, Nat.zero_mod] at h₂
  obtain hpos | ⟨-, hview⟩ := h.heralded hstep
  · exact absurd hpos (hzero ▸ Nat.lt_irrefl 0)
  · exact hview

end Runs

end Ashacky.Support
