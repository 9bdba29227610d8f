import Mathlib.Data.List.Basic
import Mathlib.Data.List.Nodup
import Mathlib.Logic.Function.Basic

/-!
# Support — Stores

Stores to a shared memory that others read in between.  A program is a list of groups: the groups
are carried out one after the other, the stores of a group in any order, one at a time.

* `eventual`: what the memory holds when all stores are done, whatever the order; `eventual_perform`
  says that every store keeps it.
* `Behind`: of the cells of a set, the program writes one given store first; `Behind.perform` says
  that it was that one, or the cells are untouched.
-/

namespace Ashacky.Support

variable {κ ν : Type*}

/-- The value goes to the cell. -/
structure Store (κ ν : Type*) where
  cell : κ
  value : ν

/-- The stores that are left to do, in groups. -/
abbrev Stores (κ ν : Type*) := List (List (Store κ ν))

namespace Stores

/-- All stores that are left satisfy `P`. -/
def All (P : Store κ ν → Prop) (p : Stores κ ν) : Prop := ∀ g ∈ p, ∀ w ∈ g, P w

/-- No cell is written twice in one group. -/
def Tidy (p : Stores κ ν) : Prop := ∀ g ∈ p, (g.map Store.cell).Nodup

/-- Before any other cell of the set, the program writes the given one. -/
def Behind (inside : κ → Prop) (first : Store κ ν) : Stores κ ν → Prop
  | [] => True
  | g :: p => (∀ w ∈ g, ¬ inside w.cell) ∧ Behind inside first p ∨ g = [first]

/-- A program that leaves the set alone. -/
theorem Behind.of_untouched {inside : κ → Prop} {first : Store κ ν} {p : Stores κ ν}
    (h : All (fun w => ¬ inside w.cell) p) : Behind inside first p := by
  induction p with
  | nil => exact trivial
  | cons g p ih =>
      exact .inl ⟨h g List.mem_cons_self, ih fun g hg => h g (List.mem_cons_of_mem _ hg)⟩

variable [DecidableEq κ]

/-- The k-th store of the first group that has any left. -/
def perform (mem : κ → ν) : Stores κ ν → Nat → Option ((κ → ν) × Stores κ ν)
  | [], _ => none
  | [] :: p, k => perform mem p k
  | (w :: g) :: p, k =>
      ((w :: g)[k]?).map fun w' => (Function.update mem w'.cell w'.value, (w :: g).eraseIdx k :: p)

/-- The memory after a whole group. -/
def settle (mem : κ → ν) (g : List (Store κ ν)) : κ → ν :=
  fun c => ((g.find? (·.cell = c)).map Store.value).getD (mem c)

/-- The memory after the whole program. -/
def eventual (mem : κ → ν) (p : Stores κ ν) : κ → ν := p.foldl settle mem

section Settle
variable {mem : κ → ν} {g : List (Store κ ν)}

theorem settle_untouched {c : κ} (h : ∀ w ∈ g, w.cell ≠ c) : settle mem g c = mem c := by
  rw [settle, List.find?_eq_none.mpr]
  · rfl
  · intro w hw
    simpa using h w hw

theorem settle_one (w : Store κ ν) :
    settle mem [w] = Function.update mem w.cell w.value := by
  funext c
  by_cases hc : w.cell = c
  · subst hc
    simp [settle]
  · simp [settle, hc, Function.update_of_ne (Ne.symm hc)]

theorem settle_mem (hg : (g.map Store.cell).Nodup) {w : Store κ ν} (hw : w ∈ g) :
    settle mem g w.cell = w.value := by
  cases hfound : g.find? (·.cell = w.cell) with
  | none => exact absurd (List.find?_eq_none.mp hfound w hw) (by simp)
  | some v =>
      have hcell : v.cell = w.cell := by simpa using List.find?_some hfound
      obtain rfl := List.inj_on_of_nodup_map hg (List.mem_of_find?_eq_some hfound) hw hcell
      simp [settle, hfound]

end Settle

section Perform
variable {mem mem' : κ → ν} {p p' : Stores κ ν} {k : Nat}

/-- What a store does. -/
theorem perform_cases (h : perform mem p k = some (mem', p')) :
    ∃ q g r w, p = q ++ g :: r ∧ (∀ e ∈ q, e = []) ∧ g[k]? = some w ∧
      mem' = Function.update mem w.cell w.value ∧ p' = g.eraseIdx k :: r := by
  induction p with
  | nil => cases h
  | cons g p ih =>
      cases g with
      | nil =>
          obtain ⟨q, g, r, w, rfl, hq, hw, hmem, hp⟩ := ih h
          exact ⟨[] :: q, g, r, w, rfl, by simpa using hq, hw, hmem, hp⟩
      | cons v g =>
          obtain ⟨w, hw, h⟩ := Option.map_eq_some_iff.mp h
          cases h
          exact ⟨[], v :: g, p, w, rfl, nofun, hw, rfl, rfl⟩

theorem All.perform {P : Store κ ν → Prop} (hP : All P p) (h : perform mem p k = some (mem', p')) :
    All P p' := by
  obtain ⟨q, g, r, w, rfl, -, -, -, rfl⟩ := perform_cases h
  intro g' hg' w' hw'
  rcases List.mem_cons.mp hg' with rfl | hg'
  · exact hP g (by simp) w' (List.mem_of_mem_eraseIdx hw')
  · exact hP g' (by simp [hg']) w' hw'

/-- The cell keeps its value, or gets one that was left to store. -/
theorem All.perform_cell {P : Store κ ν → Prop} (hP : All P p)
    (h : Stores.perform mem p k = some (mem', p')) (c : κ) :
    mem' c = mem c ∨ P ⟨c, mem' c⟩ := by
  obtain ⟨q, g, r, w, rfl, -, hw, rfl, -⟩ := perform_cases h
  by_cases hc : c = w.cell
  · subst hc
    right
    rw [Function.update_self]
    exact hP g (by simp) w (List.mem_of_getElem? hw)
  · left
    exact Function.update_of_ne hc _ _

theorem Tidy.perform (ht : Tidy p) (h : perform mem p k = some (mem', p')) : Tidy p' := by
  obtain ⟨q, g, r, w, rfl, -, -, -, rfl⟩ := perform_cases h
  intro g' hg'
  rcases List.mem_cons.mp hg' with rfl | hg'
  · exact (ht g (by simp)).sublist ((List.eraseIdx_sublist g k).map _)
  · exact ht g' (by simp [hg'])

/-- One store of a group and then the rest come to the whole group. -/
theorem settle_eraseIdx {g : List (Store κ ν)} (hg : (g.map Store.cell).Nodup) {w : Store κ ν}
    (hw : g[k]? = some w) :
    settle (Function.update mem w.cell w.value) (g.eraseIdx k) = settle mem g := by
  induction g generalizing k with
  | nil => cases hw
  | cons v g ih =>
      rw [List.map_cons, List.nodup_cons] at hg
      funext c
      cases k with
      | zero =>
          obtain rfl : v = w := by simpa using hw
          by_cases hc : v.cell = c
          · subst hc
            have hrest : ∀ x ∈ g, x.cell ≠ v.cell :=
              fun x hx hcell => hg.1 (List.mem_map.mpr ⟨x, hx, hcell⟩)
            rw [List.eraseIdx_cons_zero, settle_untouched hrest, Function.update_self]
            simp [settle]
          · simp [settle, hc, Function.update_of_ne (Ne.symm hc)]
      | succ k =>
          have hrest := congrFun (ih hg.2 (by simpa using hw)) c
          by_cases hc : v.cell = c
          · simp [settle, hc]
          · simpa [settle, hc] using hrest

theorem eventual_empty {q : Stores κ ν} (hq : ∀ e ∈ q, e = []) : eventual mem (q ++ p) =
    eventual mem p := by
  induction q with
  | nil => rfl
  | cons g q ih =>
      obtain rfl := hq g List.mem_cons_self
      exact ih fun e he => hq e (List.mem_cons_of_mem _ he)

/-- **Every store keeps what the memory comes to.** -/
theorem eventual_perform (ht : Tidy p) (h : perform mem p k = some (mem', p')) :
    eventual mem' p' = eventual mem p := by
  obtain ⟨q, g, r, w, rfl, hq, hw, rfl, rfl⟩ := perform_cases h
  rw [eventual_empty hq]
  show eventual (settle _ _) r = eventual (settle _ _) r
  rw [settle_eraseIdx (ht g (by simp)) hw]

/-- A program that has nothing left has come to its end. -/
theorem eventual_done (h : All (fun _ => False) p) : eventual mem p = mem := by
  induction p with
  | nil => rfl
  | cons g p ih =>
      obtain rfl : g = [] := by
        cases g with
        | nil => rfl
        | cons w g => exact (h _ List.mem_cons_self w List.mem_cons_self).elim
      exact ih fun g hg => h g (List.mem_cons_of_mem _ hg)

/-- A cell that the program does not write keeps its value. -/
theorem eventual_untouched {c : κ} (h : All (fun w => w.cell ≠ c) p) :
    eventual mem p c = mem c := by
  induction p generalizing mem with
  | nil => rfl
  | cons g p ih =>
      show eventual (settle mem g) p c = mem c
      rw [ih fun g hg => h g (List.mem_cons_of_mem _ hg)]
      exact settle_untouched (h g List.mem_cons_self)

/-- **The first store to the set is the given one.** -/
theorem Behind.perform {inside : κ → Prop} {first : Store κ ν} (hb : Behind inside first p)
    (h : perform mem p k = some (mem', p')) :
    mem' = Function.update mem first.cell first.value ∨
    (∀ c, inside c → mem' c = mem c) ∧ Behind inside first p' := by
  obtain ⟨q, g, r, w, rfl, hq, hw, rfl, rfl⟩ := perform_cases h
  have hb : Behind inside first (g :: r) := by
    clear h
    induction q with
    | nil => exact hb
    | cons e q ih =>
        obtain rfl := hq e List.mem_cons_self
        rcases hb with ⟨-, hb⟩ | hb
        · exact ih hb fun e he => hq e (List.mem_cons_of_mem _ he)
        · cases hb
  rcases hb with ⟨hg, hr⟩ | rfl
  · right
    refine ⟨fun c hc => Function.update_of_ne ?_ _ _, .inl ⟨fun v hv => ?_, hr⟩⟩
    · rintro rfl
      exact hg w (List.mem_of_getElem? hw) hc
    · exact hg v (List.mem_of_mem_eraseIdx hv)
  · left
    obtain rfl := List.mem_singleton.mp (List.mem_of_getElem? hw)
    rfl

end Perform

end Stores

end Ashacky.Support
