import Mathlib.Data.List.Basic

/-!
# Support — Feed

A value that is set by a program and by others, and that the program is told of late: the values in
the order they were set, and the number of the one that was reported last.  Reports come in order
and may skip values.

* `Feed.Sound`: a report is of a value that was set, and the first value is the only initial one.
* `Feed.Outstanding`: what holds of the program's own values that are still to be reported, with
  `Outstanding.see` for a report and `Outstanding.set` for a new value.
-/

namespace Ashacky.Support

/-- Who set a value: nobody, the program when it was told of the value number `seen`, or another. -/
inductive Setter where
  | initial
  | own (seen : Nat)
  | other
  deriving DecidableEq

/-- The program set the value. -/
def Setter.isOwn : Setter → Bool
  | .own _ => true
  | _ => false

structure Entry (α : Type*) where
  setter : Setter
  value : α

structure Feed (α : Type*) where
  entries : List (Entry α)
  reported : Nat

namespace Feed

variable {α : Type*}

def initial (v : α) : Feed α := ⟨[⟨.initial, v⟩], 0⟩

/-- A value is set. -/
def set (f : Feed α) (setter : Setter) (v : α) : Feed α :=
  { f with entries := f.entries ++ [⟨setter, v⟩] }

/-- The program sets values, one after the other. -/
def setOwn (f : Feed α) (vs : List α) : Feed α :=
  { f with entries := f.entries ++ vs.map fun v => ⟨.own f.reported, v⟩ }

/-- The value number `k` is reported. -/
def see (f : Feed α) (k : Nat) : Feed α := { f with reported := k }

/-- The value number `k` can be reported next, and is `e`. -/
def Reports (f : Feed α) (k : Nat) (e : Entry α) : Prop :=
  f.reported ≤ k ∧ f.entries[k]? = some e

structure Sound (f : Feed α) : Prop where
  reported : f.reported < f.entries.length
  seen : ∀ e ∈ f.entries, ∀ m, e.setter = .own m → m ≤ f.reported
  first : ∀ i e, f.entries[i]? = some e → e.setter = .initial → i = 0

/-- The property holds of the program's own values that are still to be reported. -/
def Outstanding (f : Feed α) (P : α → Prop) : Prop :=
  ∀ i e, f.reported < i → f.entries[i]? = some e → e.setter.isOwn → P e.value

instance (f : Feed α) (P : α → Prop) [DecidablePred P] : Decidable (f.Outstanding P) :=
  decidable_of_iff (∀ i ∈ List.range f.entries.length, f.reported < i → ∀ e ∈ f.entries[i]?,
      e.setter.isOwn → P e.value)
    ⟨fun h i e hi he ho => h i (List.mem_range.mpr (List.getElem?_eq_some_iff.mp he).1) hi e he ho,
      fun h i _ hi e he ho => h i e hi he ho⟩

variable {f : Feed α} {P Q : α → Prop} {k : Nat} {e : Entry α}

/-- A new feed is sound. -/
theorem sound_initial (v : α) : Sound (initial v) where
  reported := Nat.zero_lt_one
  seen e he m hm := by
    obtain rfl := List.mem_singleton.mp he
    cases hm
  first i e he _ := by
    have := (List.getElem?_eq_some_iff.mp he).1
    simpa [initial] using this

theorem Sound.see (S : Sound f) (h : f.Reports k e) : Sound (f.see k) where
  reported := (List.getElem?_eq_some_iff.mp h.2).1
  seen e he m hm := Nat.le_trans (S.seen e he m hm) h.1
  first := S.first

/-- Values that are not initial keep the feed sound, if they were set after what was reported. -/
theorem Sound.append (S : Sound f) {es : List (Entry α)}
    (hes : ∀ e ∈ es, e.setter ≠ .initial ∧ ∀ m, e.setter = .own m → m ≤ f.reported) :
    Sound { f with entries := f.entries ++ es } where
  reported := by
    rw [List.length_append]
    exact Nat.lt_add_right _ S.reported
  seen e he m hm := (List.mem_append.mp he).elim (fun he => S.seen e he m hm)
    fun he => (hes e he).2 m hm
  first i e he hinit := by
    by_cases hi : i < f.entries.length
    · rw [List.getElem?_append_left hi] at he
      exact S.first i e he hinit
    · rw [List.getElem?_append_right (Nat.le_of_not_lt hi)] at he
      exact absurd hinit (hes e (List.mem_of_getElem? he)).1

theorem Sound.other (S : Sound f) (v : α) : Sound (f.set .other v) :=
  S.append fun e he => by
    obtain rfl := List.mem_singleton.mp he
    exact ⟨nofun, nofun⟩

theorem Sound.setOwn (S : Sound f) (vs : List α) : Sound (f.setOwn vs) :=
  S.append fun e he => by
    obtain ⟨v, -, rfl⟩ := List.mem_map.mp he
    refine ⟨nofun, ?_⟩
    rintro m ⟨⟩
    exact Nat.le_refl _

theorem Outstanding.mono (h : f.Outstanding P) (himp : ∀ v, P v → Q v) : f.Outstanding Q :=
  fun i e hi he ho => himp _ (h i e hi he ho)

/-- A later report leaves the property to what is still outstanding. -/
theorem Outstanding.see (h : f.Outstanding P) (hk : f.reported ≤ k) : (f.see k).Outstanding P :=
  fun i e hi he ho => h i e (Nat.lt_of_le_of_lt hk hi) he ho

theorem Outstanding.append (h : f.Outstanding P) {es : List (Entry α)}
    (hes : ∀ e ∈ es, e.setter.isOwn → P e.value) :
    Outstanding { f with entries := f.entries ++ es } P := by
  intro i e hi he ho
  by_cases hlt : i < f.entries.length
  · rw [List.getElem?_append_left hlt] at he
    exact h i e hi he ho
  · rw [List.getElem?_append_right (Nat.le_of_not_lt hlt)] at he
    exact hes e (List.mem_of_getElem? he) ho

/-- Another's value is not one of the program's own. -/
theorem Outstanding.other (h : f.Outstanding P) (v : α) : (f.set .other v).Outstanding P :=
  h.append fun e he ho => by
    obtain rfl := List.mem_singleton.mp he
    cases ho

/-- Own values that have the property can be set. -/
theorem Outstanding.setOwn (h : f.Outstanding P) {vs : List α} (hvs : ∀ v ∈ vs, P v) :
    (f.setOwn vs).Outstanding P :=
  h.append fun e he _ => by
    obtain ⟨v, hv, rfl⟩ := List.mem_map.mp he
    exact hvs v hv

end Feed

end Ashacky.Support
