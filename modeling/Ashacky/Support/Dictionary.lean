import Mathlib.Data.List.Nodup
import Mathlib.Data.List.Perm.Basic

/-!
# Support — Dictionary

A dictionary as the list of its entries, in some order, with distinct keys.

* `lookup_eq_some_iff_mem`: looking a key up finds the entry that has it.
* `Perm.lookup_eq`: the order of the entries does not matter to it.
* `lookup_filter_ne`, `lookup_map_at`, `lookup_put`: what it finds after a key is removed, its value
  changed, or a value stored at it.
* `lookup_overlay_changes`: the changes from one dictionary to another, laid over the first, give
  the second, if it has every key of the first.
-/

namespace Ashacky.Support

variable {α β : Type*} [BEq α] [LawfulBEq α] {l l' : List (α × β)} {k : α} {v : β}

/-- No key occurs twice. -/
def DistinctKeys (l : List (α × β)) : Prop := (l.map Prod.fst).Nodup

omit [BEq α] [LawfulBEq α] in
/-- The order of the entries does not matter for distinct keys. -/
theorem DistinctKeys.perm (h : DistinctKeys l) (hp : l'.Perm l) : DistinctKeys l' :=
  (hp.map Prod.fst).nodup_iff.mpr h

/-- What is found stands in the list. -/
theorem mem_of_lookup (h : l.lookup k = some v) : (k, v) ∈ l := by
  obtain ⟨l₁, l₂, rfl, -⟩ := List.lookup_eq_some_iff.mp h
  simp

/-- With distinct keys, what stands in the list is found. -/
theorem lookup_eq_some_iff_mem (hl : DistinctKeys l) : l.lookup k = some v ↔ (k, v) ∈ l := by
  refine ⟨mem_of_lookup, fun h => ?_⟩
  obtain ⟨l₁, l₂, rfl⟩ := List.append_of_mem h
  refine List.lookup_eq_some_iff.mpr ⟨l₁, l₂, rfl, fun p hp => ?_⟩
  simp only [DistinctKeys, List.map_append, List.map_cons] at hl
  have hne := (List.nodup_append.mp hl).2.2 p.1 (List.mem_map_of_mem hp) k List.mem_cons_self
  simpa using hne.symm

/-- **The order of the entries does not matter.** -/
theorem Perm.lookup_eq (hp : l'.Perm l) (hl : DistinctKeys l) (k : α) :
    l'.lookup k = l.lookup k := by
  apply Option.ext
  intro v
  rw [lookup_eq_some_iff_mem hl, lookup_eq_some_iff_mem (hl.perm hp), hp.mem_iff]

/-- Some keys are kept. -/
theorem lookup_filter_key (l : List (α × β)) (p : α → Bool) (k : α) :
    (l.filter fun e => p e.1).lookup k = if p k then l.lookup k else none := by
  induction l with
  | nil => simp
  | cons e l ih =>
      by_cases hk : k = e.1
      · subst hk
        by_cases hp : p e.1
        · rw [List.filter_cons_of_pos (by simpa using hp), List.lookup_cons, List.lookup_cons, if_pos hp,
            beq_self_eq_true]
        · rw [List.filter_cons_of_neg (by simpa using hp), ih, if_neg hp, if_neg hp]
      · have hne : (k == e.1) = false := by simpa using hk
        by_cases hp : p e.1
        · rw [List.filter_cons_of_pos (by simpa using hp), List.lookup_cons, List.lookup_cons, hne]
          exact ih
        · rw [List.filter_cons_of_neg (by simpa using hp), List.lookup_cons, hne]
          exact ih

/-- A key is found if it stands in the list. -/
theorem lookup_isSome_iff : (l.lookup k).isSome ↔ k ∈ l.map Prod.fst := by
  rw [Option.isSome_iff_exists]
  constructor
  · rintro ⟨v, hv⟩
    exact List.mem_map_of_mem (mem_of_lookup hv)
  · intro hk
    induction l with
    | nil => cases hk
    | cons e l ih =>
        by_cases he : k = e.1
        · exact ⟨e.2, by rw [List.lookup_cons, he, beq_self_eq_true]⟩
        · have hne : (k == e.1) = false := by simpa using he
          obtain ⟨v, hv⟩ := ih (by simpa [he] using hk)
          exact ⟨v, by rw [List.lookup_cons, hne]; exact hv⟩

/-! ### Changes -/

/-- The new entries over the old ones. -/
def overlay (old new : List (α × β)) : List (α × β) :=
  new ++ old.filter fun e => (new.lookup e.1).isNone

/-- What is laid over wins. -/
theorem lookup_overlay (old new : List (α × β)) (k : α) :
    (overlay old new).lookup k = (new.lookup k).or (old.lookup k) := by
  rw [overlay, List.lookup_append, lookup_filter_key old fun a => (new.lookup a).isNone]
  cases hnew : new.lookup k <;> simp

/-- The entries of `new` that `old` does not have. -/
def changes [DecidableEq β] (old new : List (α × β)) : List (α × β) :=
  new.filter fun e => old.lookup e.1 ≠ some e.2

/-- **The changes from `old` to `new`, laid over `old`, give `new`.** -/
theorem lookup_overlay_changes [DecidableEq β] {old new : List (α × β)} (hnew : DistinctKeys new)
    (hkeys : ∀ k, (old.lookup k).isSome → (new.lookup k).isSome) (k : α) :
    ((changes old new).lookup k).or (old.lookup k) = new.lookup k := by
  have hsub : DistinctKeys (changes old new) := by
    have hl : ((changes old new).map Prod.fst).Sublist (new.map Prod.fst) := List.filter_sublist.map _
    exact hl.nodup hnew
  cases hc : (changes old new).lookup k with
  | some v =>
      have hmem := mem_of_lookup hc
      exact ((lookup_eq_some_iff_mem hnew).mpr (List.mem_of_mem_filter hmem)).symm
  | none =>
      rw [Option.none_or]
      cases hn : new.lookup k with
      | none =>
          -- A key of `old` would be one of `new`.
          cases ho : old.lookup k with
          | none => rfl
          | some v => simpa [hn] using hkeys k (by simp [ho])
      | some v =>
          by_contra hne
          have hmem : (k, v) ∈ changes old new :=
            List.mem_filter.mpr ⟨mem_of_lookup hn, by simpa using hne⟩
          rw [(lookup_eq_some_iff_mem hsub).mpr hmem] at hc
          cases hc

/-! ### Storing -/

variable [DecidableEq α]

/-- The key is removed. -/
theorem lookup_filter_ne (l : List (α × β)) (k k' : α) :
    (l.filter (·.1 ≠ k)).lookup k' = if k' = k then none else l.lookup k' := by
  rw [lookup_filter_key l (fun a => decide (a ≠ k))]
  by_cases hk : k' = k <;> simp [hk]

/-- A key that is dropped is gone, and the others stay. -/
theorem mem_keys_drop (l : List (α × β)) (k k' : α) :
    k' ∈ (l.filter (·.1 ≠ k)).map Prod.fst ↔ k' ∈ l.map Prod.fst ∧ k' ≠ k := by
  rw [← lookup_isSome_iff, lookup_filter_ne, ← lookup_isSome_iff]
  by_cases hk : k' = k <;> simp [hk]

/-- The value at the key is changed. -/
theorem lookup_map_at (l : List (α × β)) (k : α) (f : β → β) (k' : α) :
    (l.map fun e => if e.1 = k then (e.1, f e.2) else e).lookup k' =
      if k' = k then (l.lookup k).map f else l.lookup k' := by
  induction l with
  | nil => simp
  | cons e l ih =>
      rw [List.map_cons]
      by_cases he : e.1 = k
      · subst he
        rw [if_pos rfl, List.lookup_cons, ih, List.lookup_cons, List.lookup_cons]
        by_cases hk : k' = e.1
        · simp [hk]
        · have hne : (k' == e.1) = false := by simpa using hk
          rw [hne, if_neg hk, if_neg hk]
      · rw [if_neg he, List.lookup_cons, ih, List.lookup_cons, List.lookup_cons]
        by_cases hk : k' = k
        · have hne : (k == e.1) = false := by simpa using Ne.symm he
          rw [hk, if_pos rfl, if_pos rfl, hne]
        · rw [if_neg hk, if_neg hk]

/-- `d[k] = v`: the value takes the place of the one at its key, or comes last. -/
def put (l : List (α × β)) (k : α) (v : β) : List (α × β) :=
  if (l.lookup k).isSome then l.map fun e => if e.1 = k then (e.1, v) else e else l ++ [(k, v)]

/-- A key that is put has its value, and the others theirs. -/
theorem lookup_put (l : List (α × β)) (k : α) (v : β) (k' : α) :
    (put l k v).lookup k' = if k' = k then some v else l.lookup k' := by
  rw [put]
  split
  · rename_i h
    obtain ⟨old, hold⟩ := Option.isSome_iff_exists.mp h
    rw [lookup_map_at l k (fun _ => v), hold]
    rfl
  · rename_i h
    have hnone : l.lookup k = none := Option.not_isSome_iff_eq_none.mp h
    rw [List.lookup_append]
    by_cases hk : k' = k
    · simp [hk, hnone]
    · have hne : (k' == k) = false := by simpa using hk
      simp [hk, List.lookup_cons, hne]

omit [BEq α] [LawfulBEq α] in
/-- Changing a value leaves the keys. -/
theorem map_fst_map_at (l : List (α × β)) (k : α) (f : β → β) :
    (l.map fun e => if e.1 = k then (e.1, f e.2) else e).map Prod.fst = l.map Prod.fst := by
  rw [List.map_map]
  refine List.map_congr_left fun e _ => ?_
  by_cases he : e.1 = k <;> simp [he]

/-- A key that is put is added, if it was not there. -/
theorem mem_keys_put (l : List (α × β)) (k : α) (v : β) (k' : α) :
    k' ∈ (put l k v).map Prod.fst ↔ k' = k ∨ k' ∈ l.map Prod.fst := by
  rw [← lookup_isSome_iff, lookup_put, ← lookup_isSome_iff]
  by_cases hk : k' = k <;> simp [hk]

/-- Putting a key that is there leaves the keys. -/
theorem keys_put_of_mem (h : k ∈ l.map Prod.fst) (v : β) :
    (put l k v).map Prod.fst = l.map Prod.fst := by
  rw [put, if_pos (lookup_isSome_iff.mpr h)]
  exact map_fst_map_at l k fun _ => v

/-- Putting a key keeps the keys distinct. -/
theorem DistinctKeys.put (h : DistinctKeys l) (k : α) (v : β) : DistinctKeys (put l k v) := by
  rw [DistinctKeys, Support.put]
  split
  · rw [map_fst_map_at l k fun _ => v]
    exact h
  · rename_i hk
    rw [lookup_isSome_iff] at hk
    rw [List.map_append]
    refine List.nodup_append.mpr ⟨h, by simp, ?_⟩
    rintro a ha b hb rfl
    obtain rfl : a = k := List.mem_singleton.mp hb
    exact hk ha

omit [LawfulBEq α] in
/-- An entry after a put was there, or is the one that was put. -/
theorem mem_put {e : α × β} (h : e ∈ put l k v) : e ∈ l ∨ e = (k, v) := by
  rw [put] at h
  split at h
  · obtain ⟨e₀, he₀, rfl⟩ := List.mem_map.mp h
    by_cases hk : e₀.1 = k
    · exact .inr (by simp [hk])
    · exact .inl (by simpa [hk] using he₀)
  · simpa using h

end Ashacky.Support
