import Ashacky.Support.Bytes

/-!
# Support — Elements

Byte strings that are sequences of elements: an identifier, a length byte, and a body of that
length.  A reader of one walks it from element to element and looks at each (`walk`); it rejects
the string where the next element does not fit into what is left.

* `elements_flatMap`, `flatMap_elements`: the elements of a byte string and what is left after
  them determine it, and a concatenation of elements is split into those elements.
* `walk_eq`: a walk visits the complete elements in order, and then rejects the string if
  anything is left.
* `walk_eq_ok`: what a walk accepts is a concatenation of elements whose visits succeed.
* `walk_error`: a walk fails as one of its visits does, or on a truncated element.
-/

namespace Ashacky.Support

/-- An element.  Its body is one whose length fits into a byte. -/
structure Element where
  id : UInt8
  body : Data
  short : body.length < 256
deriving DecidableEq

namespace Element

/-- The bytes of an element. -/
def encode (e : Element) : Data := e.id :: UInt8.ofNat e.body.length :: e.body

@[simp] theorem length_encode (e : Element) : e.encode.length = e.body.length + 2 := rfl

@[ext] theorem ext' {e f : Element} (hid : e.id = f.id) (hbody : e.body = f.body) : e = f := by
  cases e
  cases f
  cases hid
  cases hbody
  rfl

/-- The element a byte string starts with and the bytes after it, if it is complete. -/
def next : Data → Option (Element × Data)
  | id :: length :: rest =>
      if length.toNat ≤ rest.length then
        some (⟨id, rest.take length.toNat, (List.length_take_le _ _).trans_lt length.toNat_lt⟩,
          rest.drop length.toNat)
      else none
  | _ => none

@[simp] theorem next_nil : next [] = none := rfl

theorem next_encode (e : Element) (d : Data) : next (e.encode ++ d) = some (e, d) := by
  have hlen : (UInt8.ofNat e.body.length).toNat = e.body.length := by
    rw [UInt8.toNat_ofNat', Nat.mod_eq_of_lt e.short]
  rw [encode, List.cons_append, List.cons_append, next]
  simp [hlen]

theorem next_eq_some {d rest : Data} {e : Element} (h : next d = some (e, rest)) :
    d = e.encode ++ rest := by
  unfold next at h
  split at h
  · rename_i id length tail
    obtain ⟨hle, heq⟩ := Option.ite_none_right_eq_some.mp h
    obtain ⟨rfl, rfl⟩ := Prod.mk.inj (Option.some.inj heq)
    simp [encode, Nat.min_eq_left hle]
  · cases h

/-- The complete elements a byte string starts with, at most `fuel` of them, and what is left
after them. -/
def split : Nat → Data → List Element × Data
  | 0, d => ([], d)
  | fuel + 1, d =>
      match next d with
      | none => ([], d)
      | some (e, rest) => (e :: (split fuel rest).1, (split fuel rest).2)

end Element

open Element

/-- The complete elements a byte string starts with. -/
def elements (d : Data) : List Element := (split d.length d).1

/-- The bytes after them. -/
def leftover (d : Data) : Data := (split d.length d).2

theorem split_join (fuel : Nat) (d : Data) : (split fuel d).1.flatMap encode ++ (split fuel d).2 = d := by
  induction fuel generalizing d with
  | zero => rfl
  | succ fuel ih =>
      rw [split]
      split
      · rfl
      · rename_i e rest h
        rw [List.flatMap_cons, List.append_assoc, ih, next_eq_some h]

theorem split_flatMap {es : List Element} {fuel : Nat} (h : (es.flatMap encode).length ≤ fuel) :
    split fuel (es.flatMap encode) = (es, []) := by
  induction es generalizing fuel with
  | nil => cases fuel <;> rfl
  | cons e es ih =>
      rw [List.flatMap_cons] at h ⊢
      cases fuel with
      | zero => simp at h
      | succ fuel =>
          have hle : (es.flatMap encode).length ≤ fuel := by
            simp only [List.length_append, length_encode] at h
            omega
          rw [split, next_encode]
          simp [ih hle]

/-- A byte string is its complete elements and what is left after them. -/
theorem flatMap_elements (d : Data) : (elements d).flatMap encode ++ leftover d = d :=
  split_join d.length d

@[simp] theorem elements_flatMap (es : List Element) : elements (es.flatMap encode) = es := by
  rw [elements, split_flatMap (Nat.le_refl _)]

@[simp] theorem leftover_flatMap (es : List Element) : leftover (es.flatMap encode) = [] := by
  rw [leftover, split_flatMap (Nat.le_refl _)]

/-- Nothing is left exactly when the byte string is a concatenation of elements. -/
theorem leftover_eq_nil {d : Data} : leftover d = [] ↔ ∃ es : List Element, d = es.flatMap encode := by
  constructor
  · intro h
    have hjoin := flatMap_elements d
    rw [h, List.append_nil] at hjoin
    exact ⟨elements d, hjoin.symm⟩
  · rintro ⟨es, rfl⟩
    exact leftover_flatMap es

/-! ### Walks -/

section Walk
variable {σ ε : Type*} (truncated : ε) (visit : σ → Element → Except ε σ)

/-- The loop `while offset < len`: an element that does not fit ends it with an error, and so
does a visit that fails.  The bytes are those from the offset on; every turn consumes at least
two. -/
def walkFrom : Nat → Data → σ → Except ε σ
  | 0, _, s => .ok s
  | fuel + 1, d, s =>
      if d = [] then .ok s
      else
        match next d with
        | none => .error truncated
        | some (e, rest) => visit s e >>= walkFrom fuel rest

/-- The whole loop. -/
def walk (d : Data) (s : σ) : Except ε σ := walkFrom truncated visit d.length d s

/-- Turns that are not needed change nothing. -/
theorem walkFrom_enough {fuel fuel' : Nat} {d : Data} (h : d.length ≤ fuel) (h' : d.length ≤ fuel') (s : σ) :
    walkFrom truncated visit fuel d s = walkFrom truncated visit fuel' d s := by
  induction fuel generalizing fuel' d s with
  | zero =>
      cases List.length_eq_zero_iff.mp (Nat.le_zero.mp h)
      cases fuel' <;> rfl
  | succ fuel ih =>
      by_cases hd : d = []
      · subst hd
        cases fuel' <;> rfl
      · cases fuel' with
        | zero => exact absurd (List.length_eq_zero_iff.mp (Nat.le_zero.mp h')) hd
        | succ fuel' =>
            rw [walkFrom, walkFrom, if_neg hd, if_neg hd]
            split
            · rfl
            · rename_i e rest hn
              have hlen := congrArg List.length (next_eq_some hn)
              simp only [List.length_append, length_encode] at hlen
              exact bind_congr fun s' => ih (by omega) (by omega) s'

/-- A turn of the loop. -/
theorem walk_next {d : Data} (hd : d ≠ []) (s : σ) :
    walk truncated visit d s =
      match next d with
      | none => .error truncated
      | some (e, rest) => visit s e >>= walk truncated visit rest := by
  cases d with
  | nil => exact absurd rfl hd
  | cons b d =>
      rw [walk, List.length_cons, walkFrom, if_neg hd]
      cases hn : next (b :: d) with
      | none => rfl
      | some p =>
          obtain ⟨e, rest⟩ := p
          have hlen := congrArg List.length (next_eq_some hn)
          simp only [List.length_append, length_encode, List.length_cons] at hlen
          exact bind_congr fun s' => walkFrom_enough truncated visit (by omega) (Nat.le_refl _) s'

theorem walkFrom_eq {fuel : Nat} {d : Data} (h : d.length ≤ fuel) (s : σ) :
    walkFrom truncated visit fuel d s = (do
      let s' ← (split fuel d).1.foldlM visit s
      if (split fuel d).2 = [] then .ok s' else .error truncated) := by
  induction fuel generalizing d s with
  | zero =>
      cases List.length_eq_zero_iff.mp (Nat.le_zero.mp h)
      rfl
  | succ fuel ih =>
      rw [walkFrom, split]
      by_cases hd : d = []
      · subst hd
        rfl
      · rw [if_neg hd]
        cases hn : next d with
        | none => simp [hd, pure, Except.pure, bind, Except.bind]
        | some p =>
            obtain ⟨e, rest⟩ := p
            have hle : rest.length ≤ fuel := by
              have hlen := congrArg List.length (next_eq_some hn)
              simp only [List.length_append, length_encode] at hlen
              omega
            simp only [List.foldlM_cons, bind_assoc]
            exact bind_congr fun s' => ih hle s'

/-- **A walk.**  The complete elements are visited in order; then the string is rejected if
anything is left. -/
theorem walk_eq (d : Data) (s : σ) :
    walk truncated visit d s = (do
      let s' ← (elements d).foldlM visit s
      if leftover d = [] then .ok s' else .error truncated) :=
  walkFrom_eq truncated visit (Nat.le_refl _) s

theorem walk_flatMap (es : List Element) (s : σ) :
    walk truncated visit (es.flatMap encode) s = es.foldlM visit s := by
  rw [walk_eq, elements_flatMap, leftover_flatMap]
  simp only [if_true]
  exact bind_pure _

/-- What a walk accepts. -/
theorem walk_eq_ok {d : Data} {s s' : σ} :
    walk truncated visit d s = .ok s' ↔
      ∃ es : List Element, d = es.flatMap encode ∧ es.foldlM visit s = .ok s' := by
  constructor
  · intro h
    rw [walk_eq] at h
    cases hf : (elements d).foldlM visit s with
    | error x => rw [hf] at h; cases h
    | ok s₁ =>
        rw [hf] at h
        by_cases hl : leftover d = []
        · obtain ⟨es, rfl⟩ := leftover_eq_nil.mp hl
          rw [elements_flatMap] at hf
          refine ⟨es, rfl, hf.trans ?_⟩
          simpa [bind, Except.bind, hl] using h
        · simp [bind, Except.bind, hl] at h
  · rintro ⟨es, rfl, h⟩
    rw [walk_flatMap, h]

/-- The errors of a walk are those of its visits and the one for a truncated element. -/
theorem walkFrom_error {P : ε → Prop} (ht : P truncated)
    (hv : ∀ s e x, visit s e = .error x → P x) {fuel : Nat} {d : Data} {s : σ} {x : ε}
    (h : walkFrom truncated visit fuel d s = .error x) : P x := by
  induction fuel generalizing d s with
  | zero => cases h
  | succ fuel ih =>
      rw [walkFrom] at h
      split at h
      · cases h
      · split at h
        · cases h
          exact ht
        · rename_i e rest _
          cases hvisit : visit s e with
          | error y =>
              rw [hvisit] at h
              cases h
              exact hv s e _ hvisit
          | ok s' =>
              rw [hvisit] at h
              exact ih h

theorem walk_error {P : ε → Prop} (ht : P truncated) (hv : ∀ s e x, visit s e = .error x → P x)
    {d : Data} {s : σ} {x : ε} (h : walk truncated visit d s = .error x) : P x :=
  walkFrom_error truncated visit ht hv h

end Walk

end Ashacky.Support
