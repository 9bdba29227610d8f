import Mathlib.Data.List.Basic

/-!
# Support — JSON text

The grammar of JSON, on characters.  A scan that counts the open brackets outside strings comes back
to its depth at the end of a value and never below it within; so an array ends with the bracket that
closes its first one.

* `Text`: the texts of values and of their parts, without blanks around a value.
* `array_closed`: a value that starts with an array is that array.
* `not_value_of_cut`: an array that is cut starts with no value.
-/

namespace Ashacky.Support.JsonText

/-! ### The grammar -/

def isBlank (c : Char) : Bool := c = ' ' || c = '\t' || c = '\n' || c = '\r'

/-- A text of blanks. -/
def Blank (t : List Char) : Prop := ∀ c ∈ t, isBlank c

/-- One digit or more. -/
def Digits (t : List Char) : Prop := t ≠ [] ∧ ∀ c ∈ t, c.isDigit

def Integer (t : List Char) : Prop := t = ['0'] ∨ Digits t ∧ t.head? ≠ some '0'

def Fraction (t : List Char) : Prop := t = [] ∨ ∃ digits, t = '.' :: digits ∧ Digits digits

def Exponent (t : List Char) : Prop :=
  t = [] ∨ ∃ e sign digits, t = e :: (sign ++ digits) ∧ (e = 'e' ∨ e = 'E') ∧
    (sign = [] ∨ sign = ['+'] ∨ sign = ['-']) ∧ Digits digits

def Number (t : List Char) : Prop :=
  ∃ sign integer fraction exponent, t = sign ++ (integer ++ (fraction ++ exponent)) ∧
    (sign = [] ∨ sign = ['-']) ∧ Integer integer ∧ Fraction fraction ∧ Exponent exponent

def isHex (c : Char) : Bool :=
  c.isDigit || ('a' ≤ c && c ≤ 'f') || ('A' ≤ c && c ≤ 'F')

/-- The characters between the quotation marks, `\x22`; an escape starts with `\x5c`. -/
inductive Quoted : List Char → Prop where
  | nil : Quoted []
  | char {c : Char} {t : List Char} (hcontrol : 0x20 ≤ c.toNat) (hquote : c ≠ '\x22')
      (hescape : c ≠ '\x5c') (h : Quoted t) : Quoted (c :: t)
  | escape {c : Char} {t : List Char}
      (hc : c ∈ ['\x22', '\x5c', '/', 'b', 'f', 'n', 'r', 't']) (h : Quoted t) :
      Quoted ('\x5c' :: c :: t)
  | unicode {digits t : List Char} (hlength : digits.length = 4) (hdigits : ∀ c ∈ digits, isHex c)
      (h : Quoted t) : Quoted ('\x5c' :: 'u' :: (digits ++ t))

inductive Part where
  | value
  /-- A value, with blanks around it. -/
  | element
  | elements
  | member
  | members

inductive Text : Part → List Char → Prop where
  | literal {t : List Char} (h : t = ['n', 'u', 'l', 'l'] ∨ t = ['t', 'r', 'u', 'e'] ∨
      t = ['f', 'a', 'l', 's', 'e']) : Text .value t
  | number {t : List Char} (h : Number t) : Text .value t
  | string {t : List Char} (h : Quoted t) : Text .value ('\x22' :: (t ++ ['\x22']))
  | noElements {t : List Char} (h : Blank t) : Text .value ('[' :: (t ++ [']']))
  | array {t : List Char} (h : Text .elements t) : Text .value ('[' :: (t ++ [']']))
  | noMembers {t : List Char} (h : Blank t) : Text .value ('{' :: (t ++ ['}']))
  | object {t : List Char} (h : Text .members t) : Text .value ('{' :: (t ++ ['}']))
  | element {before t after : List Char} (hbefore : Blank before) (h : Text .value t)
      (hafter : Blank after) : Text .element (before ++ (t ++ after))
  | oneElement {t : List Char} (h : Text .element t) : Text .elements t
  | moreElements {t u : List Char} (h : Text .element t) (hmore : Text .elements u) :
      Text .elements (t ++ ',' :: u)
  | member {before name after t : List Char} (hbefore : Blank before) (hname : Quoted name)
      (hafter : Blank after) (h : Text .element t) :
      Text .member (before ++ '\x22' :: (name ++ '\x22' :: (after ++ ':' :: t)))
  | oneMember {t : List Char} (h : Text .member t) : Text .members t
  | moreMembers {t u : List Char} (h : Text .member t) (hmore : Text .members u) :
      Text .members (t ++ ',' :: u)

/-- A value that is an array. -/
def IsArray (t : List Char) : Prop := Text .value t ∧ t.head? = some '['

/-! ### The scan -/

/-- Outside strings, in one, or after an escape in one, under so many open brackets. -/
inductive Scan where
  | code (depth : Nat)
  | quote (depth : Nat)
  | escape (depth : Nat)

namespace Scan

def depth : Scan → Nat
  | code d | quote d | escape d => d

def next : Scan → Char → Scan
  | code d, c =>
      if c = '\x22' then quote d
      else if c = '[' ∨ c = '{' then code (d + 1)
      else if c = ']' ∨ c = '}' then code (d - 1)
      else code d
  | quote d, c => if c = '\x22' then code d else if c = '\x5c' then escape d else quote d
  | escape d, _ => quote d

def run (s : Scan) (t : List Char) : Scan := t.foldl next s

@[simp] theorem run_nil (s : Scan) : s.run [] = s := rfl

@[simp] theorem run_cons (s : Scan) (c : Char) (t : List Char) : s.run (c :: t) = (s.next c).run t := rfl

@[simp] theorem run_append (s : Scan) (t u : List Char) : s.run (t ++ u) = (s.run t).run u :=
  List.foldl_append

end Scan

open JsonText.Scan

/-- The scan goes from one state to another, and is never under fewer brackets on the way. -/
inductive Over (d : Nat) : Scan → List Char → Scan → Prop where
  | nil {s : Scan} (h : d ≤ s.depth) : Over d s [] s
  | cons {s s' : Scan} {c : Char} {t : List Char} (h : d ≤ s.depth) (ht : Over d (s.next c) t s') :
      Over d s (c :: t) s'

namespace Over

variable {d : Nat} {s m s' : Scan} {t u : List Char}

/-- Texts that stay at a depth can be joined. -/
theorem append (ht : Over d s t m) (hu : Over d m u s') : Over d s (t ++ u) s' := by
  induction ht with
  | nil => exact hu
  | cons h _ ih => exact .cons h (ih hu)

/-- The scan ends as it is said. -/
theorem run (h : Over d s t s') : s.run t = s' := by
  induction h with
  | nil => rfl
  | cons _ _ ih => exact ih

/-- The scan is at the depth wherever the text is cut. -/
theorem cut (h : Over d s (t ++ u) s') : d ≤ (s.run t).depth := by
  induction t generalizing s with
  | nil =>
      cases h with
      | nil h | cons h => exact h
  | cons c t ih =>
      cases h with
      | cons _ ht => exact ih ht

/-- A text that stays at a depth stays at a smaller one. -/
theorem mono {d' : Nat} (h : Over d s t s') (hd : d' ≤ d) : Over d' s t s' := by
  induction h with
  | nil h => exact .nil (Nat.le_trans hd h)
  | cons h _ ih => exact .cons (Nat.le_trans hd h) ih

end Over

/-- The character is no bracket and no quotation mark. -/
def isPlain (c : Char) : Bool :=
  c ≠ '\x22' && c ≠ '[' && c ≠ '{' && c ≠ ']' && c ≠ '}'

section Plain
variable {d : Nat} {t : List Char}

/-- Plain characters stay at the depth. -/
theorem over_plain (h : ∀ c ∈ t, isPlain c) : Over d (code d) t (code d) := by
  induction t with
  | nil => exact .nil (Nat.le_refl d)
  | cons c t ih =>
      obtain ⟨hc, ht⟩ := List.forall_mem_cons.mp h
      have hnext : (code d).next c = code d := by
        simp only [isPlain, Bool.and_eq_true, decide_eq_true_eq] at hc
        simp only [next, hc, if_false, or_self]
      exact .cons (Nat.le_refl d) (hnext.symm ▸ ih ht)

theorem over_quoted (h : ∀ c ∈ t, c ≠ '\x22' ∧ c ≠ '\x5c') : Over d (quote d) t (quote d) := by
  induction t with
  | nil => exact .nil (Nat.le_refl d)
  | cons c t ih =>
      obtain ⟨hc, ht⟩ := List.forall_mem_cons.mp h
      have hnext : (quote d).next c = quote d := by rw [next, if_neg hc.1, if_neg hc.2]
      exact .cons (Nat.le_refl d) (hnext.symm ▸ ih ht)

/-- A blank is plain. -/
theorem plain_of_blank {c : Char} (h : isBlank c) : isPlain c := by
  simp only [isBlank, Bool.or_eq_true, decide_eq_true_eq] at h
  obtain ((rfl | rfl) | rfl) | rfl := h <;> decide

/-- A fixed text is checked by running the test on it. -/
theorem plain_of_all (h : t.all isPlain) : ∀ c ∈ t, isPlain c := List.all_eq_true.mp h

theorem over_blank (h : Blank t) : Over d (code d) t (code d) :=
  over_plain fun c hc => plain_of_blank (h c hc)

theorem isDigit_ne {c x : Char} (h : c.isDigit) (hx : x.isDigit = false) : c ≠ x := by
  rintro rfl
  rw [hx] at h
  cases h

/-- A digit is plain. -/
theorem plain_of_digit {c : Char} (h : c.isDigit) : isPlain c := by
  simp only [isPlain, Bool.and_eq_true, decide_eq_true_eq]
  refine ⟨⟨⟨⟨?_, ?_⟩, ?_⟩, ?_⟩, ?_⟩ <;> exact isDigit_ne h (by decide)

/-- A hexadecimal digit is no quote and no backslash. -/
theorem hex_ne {c : Char} (h : isHex c) : c ≠ '\x22' ∧ c ≠ '\x5c' := by
  constructor <;> (rintro rfl; revert h; decide)

end Plain

/-- A number is plain. -/
theorem Number.plain {t : List Char} (h : Number t) : ∀ c ∈ t, isPlain c := by
  have hdigits : ∀ {t : List Char}, Digits t → ∀ c ∈ t, isPlain c :=
    fun ht c hc => plain_of_digit (ht.2 c hc)
  obtain ⟨sign, integer, fraction, exponent, rfl, hsign, hinteger, hfraction, hexponent⟩ := h
  simp only [List.forall_mem_append]
  refine ⟨?_, ?_, ?_, ?_⟩
  · obtain rfl | rfl := hsign <;> exact plain_of_all rfl
  · obtain rfl | ⟨hinteger, -⟩ := hinteger
    · exact plain_of_all rfl
    · exact hdigits hinteger
  · obtain rfl | ⟨digits, rfl, hfraction⟩ := hfraction
    · nofun
    · exact List.forall_mem_cons.mpr ⟨by decide, hdigits hfraction⟩
  · obtain rfl | ⟨e, sign, digits, rfl, he, hsign, hexponent⟩ := hexponent
    · nofun
    · refine List.forall_mem_cons.mpr ⟨?_, List.forall_mem_append.mpr ⟨?_, hdigits hexponent⟩⟩
      · obtain rfl | rfl := he <;> decide
      · obtain rfl | rfl | rfl := hsign <;> exact plain_of_all rfl

/-- The rest of a string stays inside it. -/
theorem Quoted.over {t : List Char} {d : Nat} (h : Quoted t) : Over d (quote d) t (quote d) := by
  induction h with
  | nil => exact .nil (Nat.le_refl d)
  | @char c t _ hquote hescape _ ih =>
      have hnext : (quote d).next c = quote d := by rw [next, if_neg hquote, if_neg hescape]
      exact .cons (Nat.le_refl d) (hnext.symm ▸ ih)
  | escape _ _ ih => exact .cons (Nat.le_refl d) (.cons (Nat.le_refl d) ih)
  | unicode _ hdigits _ ih =>
      have hover := over_quoted (d := d) fun c hc => hex_ne (hdigits c hc)
      exact .cons (Nat.le_refl d) (.cons (Nat.le_refl d) (hover.append ih))

/-- Something between brackets. -/
theorem over_brackets {d : Nat} {t : List Char} {first last : Char} (hfirst : first = '[' ∨ first = '{')
    (hlast : last = ']' ∨ last = '}') (h : Over (d + 1) (code (d + 1)) t (code (d + 1))) :
    Over d (code d) (first :: (t ++ [last])) (code d) := by
  have hopen : (code d).next first = code (d + 1) := by
    obtain rfl | rfl := hfirst <;> rfl
  have hclose : (code (d + 1)).next last = code d := by
    obtain rfl | rfl := hlast <;> rfl
  refine .cons (Nat.le_refl d) (hopen.symm ▸ (h.mono (Nat.le_succ d)).append ?_)
  exact .cons (Nat.le_succ d) (hclose.symm ▸ .nil (Nat.le_refl d))

/-- A plain character can be put before what stays at the depth. -/
theorem over_mark {d : Nat} {c : Char} {t : List Char} {s' : Scan} (hc : isPlain c)
    (h : Over d (code d) t s') : Over d (code d) (c :: t) s' := by
  have hc' : Over d (code d) [c] (code d) := over_plain (List.forall_mem_singleton.mpr hc)
  exact hc'.append h

/-- **The brackets of a text are closed.** -/
theorem Text.over {part : Part} {t : List Char} (h : Text part t) (d : Nat) :
    Over d (code d) t (code d) := by
  induction h generalizing d with
  | literal h => obtain rfl | rfl | rfl := h <;> exact over_plain (plain_of_all rfl)
  | number h => exact over_plain h.plain
  | string h =>
      exact .cons (Nat.le_refl d) (h.over.append (.cons (Nat.le_refl d) (.nil (Nat.le_refl d))))
  | noElements h => exact over_brackets (.inl rfl) (.inl rfl) (over_blank h)
  | array _ ih => exact over_brackets (.inl rfl) (.inl rfl) (ih (d + 1))
  | noMembers h => exact over_brackets (.inr rfl) (.inr rfl) (over_blank h)
  | object _ ih => exact over_brackets (.inr rfl) (.inr rfl) (ih (d + 1))
  | element hbefore _ hafter ih =>
      exact (over_blank hbefore).append ((ih d).append (over_blank hafter))
  | oneElement _ ih => exact ih d
  | moreElements _ _ ih ihmore => exact (ih d).append (over_mark (by decide) (ihmore d))
  | member hbefore hname hafter _ ih =>
      refine (over_blank hbefore).append (.cons (Nat.le_refl d) ?_)
      refine hname.over.append (.cons (Nat.le_refl d) ?_)
      exact (over_blank hafter).append (over_mark (by decide) (ih d))
  | oneMember _ ih => exact ih d
  | moreMembers _ _ ih ihmore => exact (ih d).append (over_mark (by decide) (ihmore d))

/-! ### Arrays -/

theorem Number.ne_nil {t : List Char} (h : Number t) : t ≠ [] := by
  obtain ⟨sign, integer, fraction, exponent, rfl, -, hinteger, -, -⟩ := h
  have hne : integer ≠ [] := by
    obtain rfl | ⟨hinteger, -⟩ := hinteger
    · exact List.cons_ne_nil _ _
    · exact hinteger.1
  exact List.append_ne_nil_of_right_ne_nil _ (List.append_ne_nil_of_left_ne_nil hne _)

theorem Text.ne_nil {t : List Char} (h : Text .value t) : t ≠ [] := by
  cases h with
  | literal h => obtain rfl | rfl | rfl := h <;> exact List.cons_ne_nil _ _
  | number h => exact h.ne_nil
  | string | noElements | array | noMembers | object => exact List.cons_ne_nil _ _

section Arrays
variable {a t u : List Char}

/-- An array is what is between its brackets. -/
theorem IsArray.inside (h : IsArray a) :
    ∃ t, a = '[' :: (t ++ [']']) ∧ Over 1 (code 1) t (code 1) := by
  obtain ⟨htext, hhead⟩ := h
  cases htext with
  | literal h => obtain rfl | rfl | rfl := h <;> cases hhead
  | number h => exact absurd (h.plain '[' (List.mem_of_head? hhead)) (by decide)
  | string | noMembers | object => cases hhead
  | noElements h => exact ⟨_, rfl, over_blank h⟩
  | array h => exact ⟨_, rfl, h.over 1⟩

theorem IsArray.ne_nil (h : IsArray a) : a ≠ [] := h.1.ne_nil

/-- An array ends with its bracket. -/
theorem IsArray.last (h : IsArray a) : ∃ t, a = t ++ [']'] := by
  obtain ⟨t, rfl, -⟩ := h.inside
  exact ⟨'[' :: t, rfl⟩

/-- Within an array a bracket is open. -/
theorem IsArray.cut (h : IsArray (t ++ u)) (ht : t ≠ []) (hu : u ≠ []) :
    1 ≤ ((code 0).run t).depth := by
  obtain ⟨inner, hinner, hover⟩ := h.inside
  obtain ⟨last, u, rfl⟩ : ∃ last v, u = v ++ [last] :=
    ⟨_, _, (List.dropLast_append_getLast hu).symm⟩
  cases t with
  | nil => exact absurd rfl ht
  | cons c t =>
      rw [List.cons_append, ← List.append_assoc] at hinner
      obtain ⟨rfl, htail⟩ := List.cons.inj hinner
      obtain ⟨rfl, -⟩ := List.append_inj' htail rfl
      exact hover.cut

/-- What starts with an array and is a value is an array. -/
theorem IsArray.of_append (h : IsArray a) (hvalue : Text .value (a ++ u)) : IsArray (a ++ u) :=
  ⟨hvalue, by rw [List.head?_append_of_ne_nil _ h.ne_nil, h.2]⟩

/-- **A value that starts with an array is that array.** -/
theorem array_closed (h : IsArray a) (hvalue : Text .value (a ++ u)) : u = [] := by
  by_contra hu
  have hdepth := (h.of_append hvalue).cut h.ne_nil hu
  rw [(h.1.over 0).run] at hdepth
  exact Nat.not_succ_le_zero 0 hdepth

/-- **An array that is cut starts with no value.** -/
theorem not_value_of_cut {v : List Char} (h : IsArray (v ++ t ++ u)) (hu : u ≠ []) : ¬ Text .value v := by
  intro hv
  have harray : IsArray v := by
    refine ⟨hv, ?_⟩
    rw [← h.2, List.append_assoc, List.head?_append_of_ne_nil _ hv.ne_nil]
  rw [List.append_assoc] at h
  have hnil := array_closed harray h.1
  exact hu (List.append_eq_nil_iff.mp hnil).2

end Arrays

end Ashacky.Support.JsonText
