import Mathlib.Data.List.FinRange
import Mathlib.Logic.Function.Basic

/-!
# Video — Surfaces

`rk_CreateSurfaces` of the VA driver (`patches/rockchip-vaapi.patch`).  It counts the free entries of
its table first; then it takes the free entries one by one, and each gets memory of its own.

The size of the table and the first id are those of the driver that the patch is for.  The memory of a
call is what `calloc` returns, one answer after the other; a step outside the table gives nothing.

* `createLoop_spec`: the entries a loop has taken, and what stopped it.
* `AllOrNothing`: what a call should leave.
* `create_iff`: a call leaves it unless memory runs out behind the first entry.
-/

namespace Ashacky.Video.Driver

/-- Memory from `calloc`. -/
structure Block where
  address : Nat
  size : Nat
deriving DecidableEq

/-- `RKSurface`; a lock is there or not. -/
structure Surface where
  used : Bool
  width : Int
  height : Int
  primeFd : Int
  hstride : Int
  vstride : Int
  pixels : Option Block
  bytes : Nat
  gpu : Option Nat
  decoded : Bool
  ctxId : Nat
  lock : Bool
  cond : Bool
deriving DecidableEq

/-- After `memset`. -/
def Surface.zero : Surface := ⟨false, 0, 0, 0, 0, 0, none, 0, none, false, 0, false, false⟩

/-- `VAStatus`. -/
inductive Status where
  | success
  | invalidParameter
  | allocationFailed
deriving DecidableEq

/-- `VA_RT_FORMAT_YUV420`. -/
def formatYuv420 : Int := 0x1

/-- `VA_RT_FORMAT_YUV420_10`. -/
def formatYuv420Ten : Int := 0x100

/-- `d->surfaces`. -/
abbrev Table (maxSurfaces : Nat) := Fin maxSurfaces → Surface

/-- A status, the table, and the ids that were written. -/
abbrev Outcome (maxSurfaces : Nat) := Status × Table maxSurfaces × List Nat

section Create
variable {maxSurfaces : Nat} (surfaceIdBase : Nat) (calloc : Nat → Option Nat) (w h format : Int)

/-- `t->bytes`. -/
def sampleBytes : Nat := if format = formatYuv420Ten then 2 else 1

/-- The entry when `calloc` fails. -/
def cleared : Surface := { Surface.zero with bytes := sampleBytes format }

/-- The entry of a new surface. -/
def created (address : Nat) : Surface :=
  { cleared format with
    pixels := some ⟨address, w.toNat * h.toNat * 3 / 2 * sampleBytes format⟩
    used := true
    width := w
    height := h
    hstride := w
    vstride := h
    primeFd := -1
    lock := true
    cond := true }

/-- The id of an entry. -/
def surfaceId (i : Fin maxSurfaces) : Nat := surfaceIdBase + i

/-- `while(d->surfaces[i].used)i++;`. -/
def firstFree (d : Table maxSurfaces) : Option (Fin maxSurfaces) :=
  (List.finRange maxSurfaces).find? fun i => !(d i).used

/-- `free_slots`. -/
def freeSlots (d : Table maxSurfaces) : Nat := (List.finRange maxSurfaces).countP fun i => !(d i).used

/-- The loop, with its turns still to go. -/
def createLoop : Nat → Nat → Table maxSurfaces → List Nat → Option (Outcome maxSurfaces)
  | 0, _, d, ids => some (.success, d, ids)
  | turns + 1, k, d, ids => do
      let i ← firstFree d
      match calloc k with
      | none => some (.allocationFailed, Function.update d i (cleared format), ids)
      | some address =>
          createLoop turns (k + 1) (Function.update d i (created w h format address))
            (ids ++ [surfaceId surfaceIdBase i])

/-- The arguments pass. -/
def Valid (maxSurfaces : Nat) (w h format n : Int) : Prop :=
  ¬ (w < 2 ∨ h < 2 ∨ w > 4096 ∨ h > 4096 ∨ w % 2 ≠ 0 ∨ h % 2 ≠ 0 ∨ n < 1 ∨ n > maxSurfaces ∨
    (format ≠ formatYuv420 ∧ format ≠ formatYuv420Ten))

instance (maxSurfaces : Nat) (w h format n : Int) : Decidable (Valid maxSurfaces w h format n) :=
  instDecidableNot

/-- `rk_CreateSurfaces`. -/
def createSurfaces (n : Int) (d : Table maxSurfaces) : Option (Outcome maxSurfaces) :=
  if ¬ Valid maxSurfaces w h format n then some (.invalidParameter, d, [])
  else if n > freeSlots d then some (.allocationFailed, d, [])
  else createLoop surfaceIdBase calloc w h format n.toNat 0 d []

end Create

/-! ### The loop -/

section Loop
variable {maxSurfaces : Nat} {surfaceIdBase : Nat} {calloc : Nat → Option Nat} {w h format : Int}
  {d : Table maxSurfaces}

theorem firstFree_eq_some {i : Fin maxSurfaces} (hi : firstFree d = some i) : (d i).used = false := by
  simpa using List.find?_some hi

theorem exists_firstFree (hfree : 0 < freeSlots d) : ∃ i, firstFree d = some i := by
  rw [← Option.isSome_iff_exists, firstFree, List.find?_isSome]
  exact List.countP_pos_iff.mp hfree

/-- One of distinct entries is taken. -/
theorem countP_taken {l : List (Fin maxSurfaces)} (hnodup : l.Nodup) {i : Fin maxSurfaces} (hi : i ∈ l)
    (hfree : (d i).used = false) {s : Surface} (hs : s.used = true) :
    (l.countP fun j => !(Function.update d i s j).used) + 1 = l.countP fun j => !(d j).used := by
  induction l with
  | nil => cases hi
  | cons j l ih =>
      obtain ⟨hj, hnodup⟩ := List.nodup_cons.mp hnodup
      by_cases hji : j = i
      · subst hji
        have hrest : (l.countP fun k => !(Function.update d j s k).used) =
            l.countP fun k => !(d k).used := by
          refine List.countP_congr fun k hk => ?_
          rw [Function.update_of_ne (ne_of_mem_of_not_mem hk hj)]
        rw [List.countP_cons_of_neg (by simp [hs]), List.countP_cons_of_pos (by simp [hfree]), hrest]
      · have hrest := ih hnodup ((List.mem_cons.mp hi).resolve_left (Ne.symm hji))
        rw [List.countP_cons, List.countP_cons, Function.update_of_ne hji, ← hrest]
        omega

theorem freeSlots_taken {i : Fin maxSurfaces} (hfree : (d i).used = false) {s : Surface}
    (hs : s.used = true) :
    freeSlots (Function.update d i s) + 1 = freeSlots d :=
  countP_taken (List.nodup_finRange _) (List.mem_finRange i) hfree hs

/-- Free entries that were taken, and nothing else. -/
structure Taken (d : Table maxSurfaces) (taken : List (Fin maxSurfaces)) (d' : Table maxSurfaces) :
    Prop where
  fresh : ∀ i ∈ taken, (d i).used = false
  distinct : taken.Nodup
  used : ∀ i ∈ taken, (d' i).used = true
  same : ∀ i ∉ taken, d' i = d i

theorem Taken.none (d : Table maxSurfaces) : Taken d [] d := ⟨nofun, List.nodup_nil, nofun, fun _ _ => rfl⟩

theorem Taken.cons {d' : Table maxSurfaces} {taken : List (Fin maxSurfaces)} {i : Fin maxSurfaces}
    {s : Surface} (h : Taken (Function.update d i s) taken d') (hfree : (d i).used = false)
    (hs : s.used = true) : Taken d (i :: taken) d' := by
  have hi : i ∉ taken := by
    intro hmem
    have hfresh := h.fresh i hmem
    rw [Function.update_self, hs] at hfresh
    cases hfresh
  refine ⟨?_, List.nodup_cons.mpr ⟨hi, h.distinct⟩, ?_, ?_⟩
  · intro j hj
    rcases List.mem_cons.mp hj with rfl | hj
    · exact hfree
    · have hfresh := h.fresh j hj
      rwa [Function.update_of_ne (ne_of_mem_of_not_mem hj hi)] at hfresh
  · intro j hj
    rcases List.mem_cons.mp hj with rfl | hj
    · rw [h.same j hi, Function.update_self]
      exact hs
    · exact h.used j hj
  · intro j hj
    obtain ⟨hji, hj⟩ := not_or.mp (mt List.mem_cons.mpr hj)
    rw [h.same j hj, Function.update_of_ne hji]

/-- **The loop.**  It takes an entry a turn, up to the end or to the first call of `calloc` that fails. -/
theorem createLoop_spec (surfaceIdBase : Nat) (calloc : Nat → Option Nat) (w h format : Int) {turns : Nat}
    (hfree : turns ≤ freeSlots d) (k : Nat) (ids : List Nat) :
    ∃ taken d', Taken d taken d' ∧ (∀ j < taken.length, calloc (k + j) ≠ none) ∧
      ((taken.length = turns ∧ createLoop surfaceIdBase calloc w h format turns k d ids =
          some (.success, d', ids ++ taken.map (surfaceId surfaceIdBase))) ∨
        taken.length < turns ∧ calloc (k + taken.length) = none ∧ ∃ i, (d' i).used = false ∧
          createLoop surfaceIdBase calloc w h format turns k d ids =
            some (.allocationFailed, Function.update d' i (cleared format),
              ids ++ taken.map (surfaceId surfaceIdBase))) := by
  induction turns generalizing d k ids with
  | zero => exact ⟨[], d, .none d, nofun, .inl ⟨rfl, by simp [createLoop]⟩⟩
  | succ turns ih =>
      obtain ⟨i, hi⟩ := exists_firstFree (Nat.lt_of_lt_of_le turns.succ_pos hfree)
      have hunused := firstFree_eq_some hi
      cases hcalloc : calloc k with
      | none =>
          refine ⟨[], d, .none d, nofun, .inr ⟨turns.succ_pos, hcalloc, i, hunused, ?_⟩⟩
          simp [createLoop, hi, hcalloc]
      | some address =>
          have hcount := freeSlots_taken hunused (s := created w h format address) rfl
          obtain ⟨taken, d', htaken, hbefore, hend⟩ :=
            ih (d := Function.update d i (created w h format address)) (by omega) (k + 1)
              (ids ++ [surfaceId surfaceIdBase i])
          have hstep : createLoop surfaceIdBase calloc w h format (turns + 1) k d ids =
              createLoop surfaceIdBase calloc w h format turns (k + 1)
                (Function.update d i (created w h format address)) (ids ++ [surfaceId surfaceIdBase i]) := by
            simp [createLoop, hi, hcalloc]
          refine ⟨i :: taken, d', htaken.cons hunused rfl, ?_, ?_⟩
          · intro j hj
            cases j with
            | zero => simp [hcalloc]
            | succ j =>
                have hj' := hbefore j (Nat.lt_of_succ_lt_succ hj)
                rwa [Nat.add_assoc, Nat.add_comm 1] at hj'
          · have hids : ids ++ (i :: taken).map (surfaceId surfaceIdBase) =
                ids ++ [surfaceId surfaceIdBase i] ++ taken.map (surfaceId surfaceIdBase) := by
              rw [List.map_cons, List.append_cons]
            rw [hstep, List.length_cons, hids]
            rcases hend with ⟨hlength, hrun⟩ | ⟨hlength, hfails, hrun⟩
            · exact .inl ⟨congrArg Nat.succ hlength, hrun⟩
            · rw [Nat.add_assoc, Nat.add_comm 1] at hfails
              exact .inr ⟨Nat.succ_lt_succ hlength, hfails, hrun⟩

end Loop

/-! ### All or nothing -/

/-- What a call should leave: as many surfaces as it was asked for, in entries that were free, and
nothing else; or an error, with the same entries used and these as they were. -/
def AllOrNothing {maxSurfaces : Nat} (surfaceIdBase : Nat) (n : Int) (d : Table maxSurfaces) :
    Option (Outcome maxSurfaces) → Prop
  | none => False
  | some (.success, d', ids) =>
      ∃ taken, Taken d taken d' ∧ (taken.length : Int) = n ∧
        ids = taken.map (surfaceId surfaceIdBase) ∧ ids.Nodup
  | some (_, d', _) => ∀ i, (d' i).used = (d i).used ∧ ((d i).used = true → d' i = d i)

section Create
variable {maxSurfaces : Nat}

theorem surfaceId_injective (surfaceIdBase : Nat) :
    Function.Injective (surfaceId surfaceIdBase : Fin maxSurfaces → Nat) :=
  fun _ _ h => Fin.ext (Nat.add_left_cancel h)

/-- **A call is all or nothing** unless memory runs out behind the first entry. -/
theorem create_iff (surfaceIdBase : Nat) (calloc : Nat → Option Nat) (w h format n : Int)
    (d : Table maxSurfaces) :
    AllOrNothing surfaceIdBase n d (createSurfaces surfaceIdBase calloc w h format n d) ↔
      ¬ (Valid maxSurfaces w h format n ∧ n ≤ freeSlots d ∧ calloc 0 ≠ none ∧
        ∃ k : Nat, k < n ∧ calloc k = none) := by
  rw [createSurfaces]
  split
  · next hinvalid => exact iff_of_true (fun i => ⟨rfl, fun _ => rfl⟩) fun hcall => hinvalid hcall.1
  · next hvalid =>
      split
      · next hcount =>
          exact iff_of_true (fun i => ⟨rfl, fun _ => rfl⟩) fun hcall => absurd hcall.2.1 (by omega)
      · next hcount =>
          have hn : 1 ≤ n := by
            have hargs := not_not.mp hvalid
            rw [Valid] at hargs
            omega
          have hfree : n.toNat ≤ freeSlots d := by omega
          obtain ⟨taken, d', htaken, hbefore, hend⟩ :=
            createLoop_spec surfaceIdBase calloc w h format hfree 0 []
          rcases hend with ⟨hlength, hrun⟩ | ⟨hlength, hfails, i, hi, hrun⟩
          · rw [hrun]
            refine iff_of_true ⟨taken, htaken, by omega, rfl, ?_⟩ ?_
            · exact htaken.distinct.map (surfaceId_injective surfaceIdBase)
            · rintro ⟨-, -, -, k, hk, hcalloc⟩
              have hnone := hbefore k (by omega)
              rw [Nat.zero_add] at hnone
              exact hnone hcalloc
          · rw [hrun]
            rw [Nat.zero_add] at hfails
            cases taken with
            | nil =>
                -- The first call failed: the entry was free, and is.
                have hd' : d' = d := funext fun j => htaken.same j List.not_mem_nil
                subst hd'
                refine iff_of_true (fun j => ?_) fun hcall => hcall.2.2.1 hfails
                by_cases hj : j = i
                · subst hj
                  rw [Function.update_self, hi]
                  exact ⟨rfl, nofun⟩
                · rw [Function.update_of_ne hj]
                  exact ⟨rfl, fun _ => rfl⟩
            | cons j taken =>
                -- The first entry is used now, and the caller has an error.
                refine iff_of_false (fun hsame => ?_) (not_not.mpr ⟨not_not.mp hvalid, by omega, ?_, ?_⟩)
                · have hused := htaken.used j List.mem_cons_self
                  have hji : j ≠ i := by
                    rintro rfl
                    rw [hi] at hused
                    cases hused
                  have hsamej := (hsame j).1
                  rw [Function.update_of_ne hji, hused, htaken.fresh j List.mem_cons_self] at hsamej
                  cases hsamej
                · exact hbefore 0 (by simp)
                · exact ⟨_, by omega, hfails⟩

end Create

/-- The table of a new driver. -/
def emptyTable : Table 64 := fun _ => Surface.zero

/-- Memory for one surface. -/
def memoryForOne (k : Nat) : Option Nat := if k = 0 then some 4096 else none

/-- **Two surfaces are asked for, and there is memory for one**: the call fails, and its entry stays
used. -/
theorem surface_lost :
    ¬ AllOrNothing 0x30000000 2 emptyTable
      (createSurfaces 0x30000000 memoryForOne 64 64 formatYuv420 2 emptyTable) := by
  have hcall : (createSurfaces 0x30000000 memoryForOne 64 64 formatYuv420 2 emptyTable).map
      (fun r => (r.1, (r.2.1 0).used)) = some (.allocationFailed, true) := by
    decide +kernel
  obtain ⟨⟨status, d', ids⟩, heq, hr⟩ := Option.map_eq_some_iff.mp hcall
  obtain ⟨rfl, hused⟩ := Prod.mk.inj hr
  rw [heq]
  intro hall
  have hsame := (hall 0).1
  rw [hused] at hsame
  cases hsame

end Ashacky.Video.Driver
