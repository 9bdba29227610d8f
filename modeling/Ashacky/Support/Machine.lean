import Mathlib.Data.List.Basic

/-!
# Support — Machine

Runs of a transition relation that consumes events and produces outputs.  A step
`step s e o s'` takes the state `s` to `s'` on the event `e`, with the outputs `o`; a run is a
chain of steps together with its *trace*, the list of events it took, each with its outputs.

* `Steps.append`, `Steps.split`: runs compose, and a run over `t ++ u` is a run over `t`
  followed by a run over `u`.
* `Steps.invariant`: what one step preserves, every run preserves.
* `Steps.invariant_trace`: the same for a property of the state and the trace so far.
* `Steps.leaves`: a run out of a set of states has a step out of it.
* `append_eq_append_cons`: the entries of a trace that goes on.
* `Since`: some step of the run was of one kind and the ones after it are of another, with
  `Since.now` and `Since.later` for its last step.
* `Steps.of_play`, `Steps.play_eq`: the runs of a step function are what it computes.
-/

namespace Ashacky.Support

variable {σ ε ο : Type*}

/-- A run from `s` to `s'`, with its trace. -/
inductive Steps (step : σ → ε → ο → σ → Prop) : σ → List (ε × ο) → σ → Prop where
  | refl (s : σ) : Steps step s [] s
  | more {s s₁ s' : σ} {e : ε} {o : ο} {t : List (ε × ο)}
      (h : step s e o s₁) (r : Steps step s₁ t s') : Steps step s ((e, o) :: t) s'

namespace Steps

variable {step : σ → ε → ο → σ → Prop} {s s₁ s' : σ} {t u : List (ε × ο)}

theorem one {e : ε} {o : ο} (h : step s e o s') : Steps step s [(e, o)] s' :=
  .more h (.refl _)

theorem append (h₁ : Steps step s t s₁) (h₂ : Steps step s₁ u s') : Steps step s (t ++ u) s' := by
  induction h₁ with
  | refl => exact h₂
  | more h _ ih => exact .more h (ih h₂)

/-- A run over `t ++ u` passes through a state between `t` and `u`. -/
theorem split (h : Steps step s (t ++ u) s') : ∃ m, Steps step s t m ∧ Steps step m u s' := by
  induction t generalizing s with
  | nil => exact ⟨s, .refl s, h⟩
  | cons x t ih =>
      cases h with
      | more h r =>
          obtain ⟨m, h₁, h₂⟩ := ih r
          exact ⟨m, .more h h₁, h₂⟩

/-- A run is a run up to any of its steps, that step, and a run from there. -/
theorem split_at {e : ε} {o : ο} (h : Steps step s (t ++ (e, o) :: u) s') :
    ∃ m m', Steps step s t m ∧ step m e o m' ∧ Steps step m' u s' := by
  obtain ⟨m, h₁, h₂⟩ := h.split
  cases h₂ with
  | more h r => exact ⟨m, _, h₁, h, r⟩

/-- **The invariant rule.**  A property that every step preserves holds at the end of a run
that starts with it. -/
theorem invariant {I : σ → Prop} (hstep : ∀ {s e o s'}, I s → step s e o s' → I s')
    (h : Steps step s t s') (hs : I s) : I s' := by
  induction h with
  | refl => exact hs
  | more h _ ih => exact ih (hstep hs h)

/-- **The invariant rule, with the trace so far.**  `I s t` relates a state to the trace that
led to it; a step extends the trace at its end. -/
theorem invariant_trace {I : σ → List (ε × ο) → Prop}
    (hstep : ∀ {s t e o s'}, I s t → step s e o s' → I s' (t ++ [(e, o)]))
    (h : Steps step s t s') (hs : I s u) : I s' (u ++ t) := by
  induction h generalizing u with
  | refl => simpa using hs
  | more h _ ih => simpa using ih (hstep hs h)

theorem mono {step' : σ → ε → ο → σ → Prop} (h : Steps step s t s')
    (himp : ∀ {s e o s'}, step s e o s' → step' s e o s') : Steps step' s t s' := by
  induction h with
  | refl => exact .refl _
  | more h _ ih => exact .more (himp h) ih

/-- A run that leaves a set of states has a step that leaves it. -/
theorem leaves {I : σ → Prop} (h : Steps step s t s') (hs : I s) (hs' : ¬ I s') :
    ∃ u e o v m m', t = u ++ (e, o) :: v ∧ Steps step s u m ∧ step m e o m' ∧ I m ∧ ¬ I m' ∧
      Steps step m' v s' := by
  induction h with
  | refl => exact absurd hs hs'
  | @more s s₁ s' e o t h r ih =>
      by_cases h₁ : I s₁
      · obtain ⟨u, e', o', v, m, m', rfl, hu, hm, hI, hI', hv⟩ := ih h₁ hs'
        exact ⟨(e, o) :: u, e', o', v, m, m', rfl, .more h hu, hm, hI, hI', hv⟩
      · exact ⟨[], e, o, t, s, s₁, rfl, .refl s, h, hs, h₁, r⟩

end Steps

/-- An entry of a trace that goes on is one of the trace so far, or of what follows. -/
theorem append_eq_append_cons {α : Type*} {t t' u v : List α} {x : α} (h : t ++ t' = u ++ x :: v) :
    (∃ w, t = u ++ x :: w ∧ v = w ++ t') ∨ ∃ w, t' = w ++ x :: v ∧ u = t ++ w := by
  obtain ⟨w, hu, hw⟩ | ⟨w, ht, hw⟩ := List.append_eq_append_iff.mp h
  · exact .inr ⟨w, hw, hu⟩
  · cases w with
    | nil => exact .inr ⟨[], hw.symm, by simpa using ht.symm⟩
    | cons y w =>
        obtain ⟨rfl, rfl⟩ := List.cons.inj hw
        exact .inl ⟨w, ht, rfl⟩

/-! ### What happened before -/

/-- Some step of the run satisfies `P`, which also sees the trace before it, and every later step
satisfies `Q`. -/
def Since (step : σ → ε → ο → σ → Prop) (P : List (ε × ο) → σ → ε → ο → σ → Prop)
    (Q : σ → ε → ο → σ → Prop) (s : σ) (t : List (ε × ο)) (s' : σ) : Prop :=
  ∃ u e o v m m', t = u ++ (e, o) :: v ∧ Steps step s u m ∧ step m e o m' ∧ P u m e o m' ∧
    Steps (fun s e o s' => step s e o s' ∧ Q s e o s') m' v s'

/-- Some step of the run satisfies `P`. -/
def Once (step : σ → ε → ο → σ → Prop) (P : List (ε × ο) → σ → ε → ο → σ → Prop) (s : σ)
    (t : List (ε × ο)) (s' : σ) : Prop :=
  Since step P (fun _ _ _ _ => True) s t s'

section Since
variable {step : σ → ε → ο → σ → Prop} {P : List (ε × ο) → σ → ε → ο → σ → Prop}
  {Q : σ → ε → ο → σ → Prop} {s m m' : σ} {t : List (ε × ο)} {e : ε} {o : ο}

theorem Since.now (h : Steps step s t m) (hstep : step m e o m') (hP : P t m e o m') :
    Since step P Q s (t ++ [(e, o)]) m' :=
  ⟨t, e, o, [], m, m', rfl, h, hstep, hP, .refl m'⟩

theorem Since.later (h : Since step P Q s t m) (hstep : step m e o m') (hQ : Q m e o m') :
    Since step P Q s (t ++ [(e, o)]) m' := by
  obtain ⟨u, e₀, o₀, v, m₀, m₁, rfl, hu, h₀, hP, hv⟩ := h
  exact ⟨u, e₀, o₀, v ++ [(e, o)], m₀, m₁, by simp, hu, h₀, hP, hv.append (.one ⟨hstep, hQ⟩)⟩

theorem Once.later (h : Once step P s t m) (hstep : step m e o m') :
    Once step P s (t ++ [(e, o)]) m' :=
  Since.later h hstep trivial

end Since

/-! ### Machines that compute -/

/-- The run of a partial step function on a list of events. -/
def play (step : σ → ε → Option (ο × σ)) (s : σ) : List ε → Option (List (ε × ο) × σ)
  | [] => some ([], s)
  | e :: es =>
      (step s e).bind fun r => (play step r.2 es).map fun u => ((e, r.1) :: u.1, u.2)

/-- What is played is a run. -/
theorem Steps.of_play {step : σ → ε → Option (ο × σ)} {s s' : σ} {es : List ε}
    {t : List (ε × ο)} (h : play step s es = some (t, s')) :
    Steps (fun s e o s' => step s e = some (o, s')) s t s' := by
  induction es generalizing s t with
  | nil =>
      cases h
      exact .refl _
  | cons e es ih =>
      obtain ⟨⟨o, s₁⟩, hstep, h⟩ := Option.bind_eq_some_iff.mp h
      obtain ⟨⟨u, s₂⟩, hrest, h⟩ := Option.map_eq_some_iff.mp h
      cases h
      exact .more hstep (ih hrest)

theorem play_events {step : σ → ε → Option (ο × σ)} {s s' : σ} {es : List ε} {t : List (ε × ο)}
    (h : play step s es = some (t, s')) : t.map Prod.fst = es := by
  induction es generalizing s t with
  | nil =>
      cases h
      rfl
  | cons e es ih =>
      obtain ⟨⟨o, s₁⟩, -, h⟩ := Option.bind_eq_some_iff.mp h
      obtain ⟨⟨u, s₂⟩, hrest, h⟩ := Option.map_eq_some_iff.mp h
      cases h
      rw [List.map_cons, ih hrest]

/-- A run is what is played on its events. -/
theorem Steps.play_eq {step : σ → ε → Option (ο × σ)} {s s' : σ} {t : List (ε × ο)}
    (h : Steps (fun s e o s' => step s e = some (o, s')) s t s') :
    play step s (t.map Prod.fst) = some (t, s') := by
  induction h with
  | refl => rfl
  | more hstep _ ih => simp only [List.map_cons, play, hstep, Option.bind_some, ih, Option.map_some]

/-- What is played within a condition is a run within it. -/
theorem Steps.of_play_guarded {step : σ → ε → Option (ο × σ)} {C : σ → ε → Prop}
    [∀ s e, Decidable (C s e)] {s s' : σ} {es : List ε} {t : List (ε × ο)}
    (h : play (fun s e => if C s e then step s e else none) s es = some (t, s')) :
    Steps (fun s e o s' => step s e = some (o, s') ∧ C s e) s t s' :=
  (Steps.of_play h).mono fun h => (Option.ite_none_right_eq_some.mp h).symm

end Ashacky.Support
