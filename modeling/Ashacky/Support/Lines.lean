import Ashacky.Support.Brackets

/-!
# Support — Lines

A byte stream of JSON objects, one a line, that may be cut: its reader may start again anywhere,
and its writers may stop anywhere and be followed by others.

* `infix_newline`: where a line stands in a text.
* `cut`: the complete lines of a text; `cut_append`, `cut_rest`: reading them in pieces.
* `Wire`: how the objects are written and read.
* `Wire.Carries`: each line of the stream ends with one object; read from any of its bytes on, the
  line yields that object or nothing.
* `Carries.append`, `Carries.drop`, `Carries.take`: writing, starting again and stopping keep this.
* `Carries.read_line`: what a reader of the next line gets.
-/

namespace Ashacky.Support

variable {α β : Type}

/-- A byte that stands for itself in a line. -/
def Plain (c : UInt8) : Prop := c ≠ 0 ∧ c ≠ 10

/-- The first newline splits a text in one way. -/
theorem append_newline_inj {l l' r r' : Data} (hl : 10 ∉ l) (hl' : 10 ∉ l')
    (h : l ++ 10 :: r = l' ++ 10 :: r') : l = l' ∧ r = r' := by
  induction l generalizing l' with
  | nil =>
      cases l' with
      | nil => exact ⟨rfl, (List.cons.inj h).2⟩
      | cons c l' => exact absurd (by simp [← (List.cons.inj h).1]) hl'
  | cons c l ih =>
      cases l' with
      | nil => exact absurd (by simp [(List.cons.inj h).1]) hl
      | cons c' l' =>
          obtain ⟨rfl, ht⟩ := List.cons.inj h
          obtain ⟨rfl, rfl⟩ := ih (fun hm => hl (List.mem_cons_of_mem _ hm))
            (fun hm => hl' (List.mem_cons_of_mem _ hm)) ht
          exact ⟨rfl, rfl⟩

/-- A line stands in a text at the end of the first line, or in the text after it. -/
theorem infix_newline {x l r : Data} (hx : 10 ∉ x) (hl : 10 ∉ l) :
    x ++ [10] <:+: l ++ 10 :: r ↔ x <:+ l ∨ x ++ [10] <:+: r := by
  constructor
  · rintro ⟨s, t, h⟩
    rw [List.append_assoc, List.append_assoc] at h
    obtain ⟨a, rfl, hr⟩ | ⟨c, rfl, hr⟩ := List.append_eq_append_iff.mp h
    · obtain ⟨rfl, -⟩ := append_newline_inj hx (fun ha => hl (List.mem_append_right _ ha)) hr
      exact .inl (List.suffix_append _ _)
    · cases c with
      | nil =>
          obtain ⟨rfl, -⟩ := append_newline_inj (l := []) List.not_mem_nil hx hr
          exact .inl List.nil_suffix
      | cons b c =>
          obtain ⟨-, rfl⟩ := List.cons.inj hr
          exact .inr ⟨c, t, by simp⟩
  · rintro (⟨s, rfl⟩ | h)
    · exact ⟨s, r, by simp⟩
    · exact h.trans ((List.suffix_cons _ _).trans (List.suffix_append _ _)).isInfix

/-- The complete lines of a text, without their newlines, and the unfinished line after them: what
`split(b'\n', 1)` yields turn by turn. -/
def cut : Data → List Data × Data
  | [] => ([], [])
  | c :: rest =>
      if c = 10 then ([] :: (cut rest).1, (cut rest).2)
      else match cut rest with
        | ([], tail) => ([], c :: tail)
        | (line :: lines, tail) => ((c :: line) :: lines, tail)

/-- Reading on: the unfinished line comes before what follows. -/
theorem cut_append (a b : Data) :
    cut (a ++ b) = ((cut a).1 ++ (cut ((cut a).2 ++ b)).1, (cut ((cut a).2 ++ b)).2) := by
  induction a with
  | nil => rfl
  | cons c a ih =>
      rw [List.cons_append, cut, cut, ih]
      by_cases hc : c = 10
      · simp only [if_pos hc, List.cons_append]
      · simp only [if_neg hc]
        obtain ⟨_ | ⟨line, lines⟩, tail⟩ := cut a
        · simp only [List.nil_append, List.cons_append]
          rw [cut, if_neg hc]
        · simp only [List.cons_append]

/-- The unfinished line has no newline. -/
theorem cut_rest (a : Data) : cut (cut a).2 = ([], (cut a).2) := by
  induction a with
  | nil => rfl
  | cons c a ih =>
      rw [cut]
      by_cases hc : c = 10
      · simpa only [if_pos hc] using ih
      · simp only [if_neg hc]
        revert ih
        obtain ⟨_ | ⟨line, lines⟩, tail⟩ := cut a
        · intro ih
          rw [cut, if_neg hc, ih]
        · exact id

/-- How objects are written to a stream and read from it.  A reader accepts no other texts than the
scan does, and may skip blanks before an object. -/
structure Wire (α β : Type) where
  /-- The text is one that is written for the object. -/
  writes : α → Data → Prop
  read : Data → Option β
  value : α → β → Prop
  isObject : ∀ {a x}, writes a x → IsObject x
  plain : ∀ {a x}, writes a x → ∀ c ∈ x, Plain c
  accepted : ∀ {s v}, (∀ c ∈ s, Plain c) → read s = some v → Accepted s
  behind : ∀ {a x b v}, writes a x → (∀ c ∈ b, blank c) → read (b ++ x) = some v →
    value a v

namespace Wire

variable (W : Wire α β)

/-- The lines of the stream carry the objects, and an unfinished line may follow. -/
inductive Carries : List α → Data → Prop where
  | rest {l : Data} (hl : ∀ c ∈ l, Plain c) : Carries [] l
  | line {a : α} {l : Data} {as : List α} {bytes : Data} (hl : ∀ c ∈ l, Plain c)
      (hr : ∀ s, s <:+ l → ∀ v, W.read s = some v → W.value a v) (h : Carries as bytes) :
      Carries (a :: as) (l ++ 10 :: bytes)

namespace Carries

variable {W} {as : List α} {bytes : Data}

theorem nil : W.Carries [] [] := .rest (by simp)

/-- Any bytes followed by an object yield that object or nothing. -/
theorem read_suffix {a : α} {u x : Data} (hu : ∀ c ∈ u, Plain c) (hx : W.writes a x) :
    ∀ s, s <:+ u ++ x → ∀ v, W.read s = some v → W.value a v := by
  intro s hs v hv
  have hplain : ∀ c ∈ s, Plain c := by
    intro c hc
    rcases List.mem_append.mp (hs.subset hc) with h | h
    · exact hu c h
    · exact W.plain hx c h
  obtain ⟨b, rfl, hb⟩ := (W.isObject hx).accepted_suffix hs (W.accepted hplain hv)
  exact W.behind hx hb hv

/-- **Writing**: an object ends the unfinished line. -/
theorem append (h : W.Carries as bytes) {a : α} {x : Data} (hx : W.writes a x) :
    W.Carries (as ++ [a]) (bytes ++ (x ++ [10])) := by
  induction h with
  | rest hl =>
      rename_i l
      rw [← List.append_assoc]
      refine .line ?_ (read_suffix hl hx) nil
      intro c hc
      rcases List.mem_append.mp hc with hc | hc
      · exact hl c hc
      · exact W.plain hx c hc
  | line hl hr _ ih =>
      rw [List.append_assoc, List.cons_append]
      exact .line hl hr ih

theorem tail {c : UInt8} (h : W.Carries as (c :: bytes)) :
    ∃ as', as' <:+ as ∧ W.Carries as' bytes := by
  generalize hb : c :: bytes = b at h
  cases h with
  | rest hl =>
      subst hb
      exact ⟨[], List.suffix_refl _, .rest fun c hc => hl c (List.mem_cons_of_mem _ hc)⟩
  | line hl hr h =>
      rename_i a l as bytes'
      cases l with
      | nil =>
          obtain ⟨-, rfl⟩ := List.cons.inj hb
          exact ⟨as, List.suffix_cons _ _, h⟩
      | cons c' l =>
          obtain ⟨-, rfl⟩ := List.cons.inj hb
          exact ⟨a :: as, List.suffix_refl _, .line (fun c hc => hl c (List.mem_cons_of_mem _ hc))
            (fun s hs => hr s (hs.trans (List.suffix_cons _ _))) h⟩

/-- **Starting again**: what remains of the stream carries some of the objects. -/
theorem drop (h : W.Carries as bytes) (n : Nat) :
    ∃ as', as' <:+ as ∧ W.Carries as' (bytes.drop n) := by
  induction n generalizing as bytes with
  | zero => exact ⟨as, List.suffix_refl _, h⟩
  | succ n ih =>
      cases bytes with
      | nil => exact ⟨as, List.suffix_refl _, h⟩
      | cons c bytes =>
          obtain ⟨as₁, h₁, hc⟩ := h.tail
          obtain ⟨as₂, h₂, hd⟩ := ih hc
          exact ⟨as₂, h₂.trans h₁, hd⟩

/-- **Stopping**: what was written of the stream carries some of the objects. -/
theorem take (h : W.Carries as bytes) (n : Nat) :
    ∃ as', as' <+: as ∧ W.Carries as' (bytes.take n) := by
  induction h generalizing n with
  | rest hl => exact ⟨[], List.prefix_refl _, .rest fun c hc => hl c (List.mem_of_mem_take hc)⟩
  | line hl hr _ ih =>
      rename_i a l as bytes _
      by_cases hn : n ≤ l.length
      · refine ⟨[], List.nil_prefix, .rest fun c hc => hl c ?_⟩
        rw [List.take_append_of_le_length hn] at hc
        exact List.mem_of_mem_take hc
      · obtain ⟨m, rfl⟩ : ∃ m, n = l.length + (m + 1) := ⟨n - l.length - 1, by omega⟩
        obtain ⟨as', has, h'⟩ := ih m
        rw [List.take_length_add_append, List.take_succ_cons]
        exact ⟨a :: as', (List.prefix_cons_inj a).mpr has, .line hl hr h'⟩

/-- **Reading a line**: the next object, or nothing. -/
theorem read_line {l : Data} (h : W.Carries as (l ++ 10 :: bytes)) (hl : 10 ∉ l) :
    ∃ a as', as = a :: as' ∧ (∀ v, W.read l = some v → W.value a v) ∧
      W.Carries as' bytes := by
  generalize hb : l ++ 10 :: bytes = b at h
  cases h with
  | rest hl' => exact absurd rfl (hl' 10 (by simp [← hb])).2
  | line hl' hr h =>
      rename_i a l' as bytes'
      have hn : 10 ∉ l' := fun hm => (hl' 10 hm).2 rfl
      obtain ⟨rfl, rfl⟩ := append_newline_inj hl hn hb
      exact ⟨a, as, rfl, hr l (List.suffix_refl _), h⟩

end Carries

end Wire

end Ashacky.Support
