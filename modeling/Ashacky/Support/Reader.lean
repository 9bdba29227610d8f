import Mathlib.Data.List.Basic

/-!
# Support — Reader

Readers that take their input piece by piece.  From a piece and a state a reader yields some values
and goes on in a new state, or rejects; what it yielded before it rejected stands.

* `many`: the pieces one after the other, up to the first that is rejected.
* `many_append`, `many_many`: how the pieces are grouped does not matter.
* `many_congr`: readers that agree on each piece, from the states met, agree on all of them.
* `many_invariant`: what each piece preserves, all of them preserve.
-/

namespace Ashacky.Support

variable {α β ε σ : Type}

/-- What a reader yields, and the state it goes on in or why it rejects. -/
abbrev Reading (β ε σ : Type) := List β × Except ε σ

namespace Reading

/-- Read on, if nothing was rejected. -/
def andThen (x : Reading β ε σ) (k : σ → Reading β ε σ) : Reading β ε σ :=
  match x.2 with
  | .ok s => (x.1 ++ (k s).1, (k s).2)
  | .error e => (x.1, .error e)

@[simp] theorem ok_andThen (out : List β) (s : σ) (k : σ → Reading β ε σ) :
    andThen (out, .ok s) k = (out ++ (k s).1, (k s).2) := rfl

@[simp] theorem error_andThen (out : List β) (e : ε) (k : σ → Reading β ε σ) :
    andThen (out, .error e) k = (out, .error e) := rfl

theorem andThen_assoc (x : Reading β ε σ) (k l : σ → Reading β ε σ) :
    (x.andThen k).andThen l = x.andThen fun s => (k s).andThen l := by
  obtain ⟨out, _ | s⟩ := x
  · rfl
  · rw [ok_andThen, ok_andThen]
    obtain ⟨out', _ | s'⟩ := k s
    · rfl
    · simp

end Reading

open Reading

/-- The pieces one after the other. -/
def many (r : α → σ → Reading β ε σ) : List α → σ → Reading β ε σ
  | [], s => ([], .ok s)
  | a :: as, s => (r a s).andThen (many r as)

section

variable {r r' : α → σ → Reading β ε σ}

@[simp] theorem many_nil (s : σ) : many r [] s = ([], .ok s) := rfl

theorem many_cons (a : α) (as : List α) (s : σ) :
    many r (a :: as) s = (r a s).andThen (many r as) := rfl

@[simp] theorem many_singleton (a : α) (s : σ) : many r [a] s = r a s := by
  rw [many_cons]
  obtain ⟨out, _ | s'⟩ := r a s
  · rfl
  · simp

theorem many_append (as bs : List α) (s : σ) :
    many r (as ++ bs) s = (many r as s).andThen (many r bs) := by
  induction as generalizing s with
  | nil => simp
  | cons a as ih =>
      rw [List.cons_append, many_cons, many_cons, andThen_assoc]
      congr 1
      funext s'
      exact ih s'

/-- **The grouping of the pieces does not matter.** -/
theorem many_many (ass : List (List α)) (s : σ) : many (many r) ass s = many r ass.flatten s := by
  induction ass generalizing s with
  | nil => rfl
  | cons as ass ih =>
      rw [many_cons, List.flatten_cons, many_append]
      congr 1
      funext s'
      exact ih s'

theorem many_map {γ : Type} (f : γ → α) (cs : List γ) (s : σ) :
    many r (cs.map f) s = many (fun c => r (f c)) cs s := by
  induction cs generalizing s with
  | nil => rfl
  | cons c cs ih =>
      rw [List.map_cons, many_cons, many_cons]
      congr 1
      funext s'
      exact ih s'

/-- Readers that agree on each piece, in the states they come to, read alike. -/
theorem many_congr {I : σ → Prop} {as : List α} (h : ∀ a ∈ as, ∀ s, I s → r a s = r' a s)
    (hI : ∀ a ∈ as, ∀ s out s', I s → r a s = (out, .ok s') → I s') {s : σ} (hs : I s) :
    many r as s = many r' as s := by
  induction as generalizing s with
  | nil => rfl
  | cons a as ih =>
      rw [many_cons, many_cons, ← h a List.mem_cons_self s hs]
      cases hr : r a s with
      | mk out next =>
          cases next with
          | error e => rfl
          | ok s' =>
              rw [ok_andThen, ok_andThen, ih (fun a ha => h a (List.mem_cons_of_mem _ ha))
                (fun a ha => hI a (List.mem_cons_of_mem _ ha))
                (hI a List.mem_cons_self s out s' hs hr)]

/-- **The invariant rule.** -/
theorem many_invariant {I : σ → Prop} (h : ∀ a s out s', I s → r a s = (out, .ok s') → I s')
    {as : List α} {s s' : σ} {out : List β} (hs : I s) (hr : many r as s = (out, .ok s')) :
    I s' := by
  induction as generalizing s out with
  | nil =>
      cases hr
      exact hs
  | cons a as ih =>
      rw [many_cons] at hr
      cases ha : r a s with
      | mk out₁ next =>
          cases next with
          | error e =>
              rw [ha] at hr
              cases hr
          | ok s₁ =>
              rw [ha, ok_andThen] at hr
              exact ih (h a s out₁ s₁ hs ha) (Prod.ext rfl (Prod.mk.inj hr).2)

end

end Ashacky.Support
