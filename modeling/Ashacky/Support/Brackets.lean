import Ashacky.Support.Bytes

/-!
# Support — Brackets

A scan of text for the braces and quotes of a JSON object: enough to see that the text of an
object, cut or with something in front of it, is not the text of an object.

* `next`, `run`: the scan; `done` is reached at the brace that closes the first one, and only
  blanks may follow it.
* `IsObject`: the text starts with a brace, and its last byte closes it.
* `accepted_suffix`: what remains of any bytes followed by such a text is accepted only if it is
  that text, behind blanks.
-/

namespace Ashacky.Support

/-- What a scan has seen: nothing yet, code or a string at a depth, the closed object, or
something else. -/
inductive Scan where
  | start
  | code (depth : Nat)
  | quote (depth : Nat)
  | escape (depth : Nat)
  | done
  | bad
  deriving DecidableEq

/-- The blanks of JSON, and the bytes of a byte order mark. -/
def blank (c : UInt8) : Bool :=
  c = 0x20 || c = 0x09 || c = 0x0a || c = 0x0d || c = 0xef || c = 0xbb || c = 0xbf

namespace Scan

def next : Scan → UInt8 → Scan
  | start, c => if c = 0x7b then code 0 else if blank c then start else bad
  | code d, c =>
      if c = 0x22 then quote d
      else if c = 0x7b then code (d + 1)
      else if c = 0x7d then if d = 0 then done else code (d - 1)
      else if c = 0x5c then bad
      else code d
  | quote d, c => if c = 0x22 then code d else if c = 0x5c then escape d else quote d
  | escape d, _ => quote d
  | done, c => if blank c then done else bad
  | bad, _ => bad

def run (s : Scan) (l : Data) : Scan := l.foldl next s

@[simp] theorem run_nil (s : Scan) : s.run [] = s := rfl

@[simp] theorem run_cons (s : Scan) (c : UInt8) (l : Data) : s.run (c :: l) = (s.next c).run l := rfl

@[simp] theorem run_append (s : Scan) (l l' : Data) : s.run (l ++ l') = (s.run l).run l' :=
  List.foldl_append

/-- The second scan is out of step with the first: at another depth, or in code where the first is
in a string, or the reverse. -/
def Apart : Scan → Scan → Prop
  | code d, code k | quote d, quote k | escape d, escape k => k ≠ d
  | code _, escape _ | quote _, escape _ | escape _, code _ | escape _, quote _
  | escape _, done | start, start => False
  | _, _ => True

/-- Scans that are out of step stay out of step. -/
theorem Apart.next {o n : Scan} (h : Apart o n) (c : UInt8) : Apart (o.next c) (n.next c) := by
  have hq : ¬ blank 0x22 ∧ ¬ blank 0x5c ∧ ¬ blank 0x7b ∧ ¬ blank 0x7d := by decide
  cases o <;> cases n <;> simp only [Apart] at h <;> simp only [Scan.next] <;>
    repeat' split
  all_goals first | exact trivial | exact h | simp_all [Apart] <;> omega

theorem Apart.run {o n : Scan} (h : Apart o n) (l : Data) : Apart (o.run l) (n.run l) := by
  induction l generalizing o n with
  | nil => exact h
  | cons c l ih => exact ih (h.next c)

/-- A scan out of step with one that closes does not close there. -/
theorem Apart.next_ne_done {n : Scan} (h : Apart (code 0) n) : n.next 0x7d ≠ done := by
  have hb : ¬ blank 0x7d := by decide
  cases n <;> simp only [Apart] at h <;> simp_all [Scan.next]

theorem run_eq_start {s : Scan} {l : Data} (h : s.run l = start) :
    s = start ∧ ∀ c ∈ l, blank c := by
  induction l generalizing s with
  | nil => exact ⟨h, by simp⟩
  | cons c l ih =>
      obtain ⟨hs, hl⟩ := ih h
      have hc : s = start ∧ blank c := by
        cases s with
        | start =>
            simp only [Scan.next] at hs
            split_ifs at hs with _ hb
            exact ⟨rfl, hb⟩
        | code d | quote d | done =>
            simp only [Scan.next] at hs
            split_ifs at hs
        | escape d | bad => cases hs
      exact ⟨hc.1, List.forall_mem_cons.mpr ⟨hc.2, hl⟩⟩

end Scan

open Scan

/-- The text of an object: from a brace to the brace that closes it. -/
def IsObject (x : Data) : Prop :=
  ∃ body, x = 0x7b :: (body ++ [0x7d]) ∧ (code 0).run body = code 0

instance (x : Data) : Decidable (IsObject x) :=
  decidable_of_iff (x = 0x7b :: (x.tail.dropLast ++ [0x7d]) ∧ (code 0).run x.tail.dropLast = code 0)
    ⟨fun h => ⟨_, h⟩, fun ⟨body, hx, h⟩ => by subst hx; simpa using h⟩

/-- The scan accepts the text. -/
def Accepted (s : Data) : Prop := start.run s = done

namespace IsObject

variable {x : Data}

theorem accepted (hx : IsObject x) : Accepted x := by
  obtain ⟨body, rfl, hbody⟩ := hx
  rw [Accepted, run_cons, run_append, show start.next 0x7b = code 0 from rfl, hbody]
  rfl

/-- After anything but blanks, the text of an object is not accepted. -/
theorem run_ne_done (hx : IsObject x) {s : Scan} (hs : s ≠ start) : s.run x ≠ done := by
  obtain ⟨body, rfl, hbody⟩ := hx
  have hapart : Apart start s := by
    cases s with
    | start => exact absurd rfl hs
    | code | quote | escape | done | bad => trivial
  have hrun := (hapart.next 0x7b).run body
  rw [show start.next 0x7b = code 0 from rfl] at hrun
  rw [hbody] at hrun
  rw [run_cons, run_append]
  exact hrun.next_ne_done

/-- What remains of the text behind its first byte is not accepted. -/
theorem not_accepted_of_suffix (hx : IsObject x) {s : Data} (hs : s <:+ x) (hne : s ≠ x) :
    ¬ Accepted s := by
  obtain ⟨body, rfl, hbody⟩ := hx
  rcases List.suffix_cons_iff.mp hs with rfl | hs
  · exact absurd rfl hne
  · rcases List.eq_nil_or_concat s with rfl | ⟨b₂, c, rfl⟩
    · intro h
      cases h
    · obtain ⟨b₁, hb⟩ := hs
      rw [List.concat_eq_append, ← List.append_assoc] at hb
      obtain ⟨hbody', hc⟩ := List.append_inj' hb rfl
      obtain rfl : c = 0x7d := (List.cons.inj hc).1
      -- the scan of the whole text is somewhere inside the object when the other one starts
      rw [← hbody', run_append] at hbody
      have hapart : Apart ((code 0).run b₁) start := by
        cases ho : (code 0).run b₁ with
        | start => cases (run_eq_start ho).1
        | code | quote | escape | done | bad => trivial
      have hrun := hapart.run b₂
      rw [hbody] at hrun
      rw [Accepted, List.concat_eq_append, run_append]
      exact hrun.next_ne_done

/-- **What remains of any bytes followed by the text of an object** is accepted only if it is that
text, behind blanks. -/
theorem accepted_suffix (hx : IsObject x) {u s : Data} (hs : s <:+ u ++ x) (ha : Accepted s) :
    ∃ b, s = b ++ x ∧ ∀ c ∈ b, blank c := by
  rcases List.suffix_or_suffix_of_suffix hs (List.suffix_append u x) with hsx | ⟨b, rfl⟩
  · by_cases hne : s = x
    · exact ⟨[], hne, by simp⟩
    · exact absurd ha (hx.not_accepted_of_suffix hsx hne)
  · refine ⟨b, rfl, ?_⟩
    by_cases hb : start.run b = start
    · exact (run_eq_start hb).2
    · rw [Accepted, run_append] at ha
      exact absurd ha (hx.run_ne_done hb)

end IsObject

end Ashacky.Support
