import Ashacky.Fido.Grammar

/-!
# Fido — canonical CBOR

`encoded` writes the one form of a value in which the keys of every dictionary increase, by length
and then lexicographically.

* `CBOR.Same`: equality of values as in Swift, where a dictionary has no order.
* `CBOR.written`: a value with the entries of its dictionaries in the order they have.
* `CBOR.sorted`: the same value with its dictionaries in canonical order; `encoded` writes this one.
* `encoded_eq_of_same`: so it does not depend on the order.
-/

namespace Ashacky.Fido
open Ashacky.Support

/-! ### The order of keys -/

/-- The strict order of encoded keys: by length, then lexicographically. -/
def KeyLt (a b : Data) : Prop := a.length < b.length ∨ a.length = b.length ∧ a < b

/-- A key stands before another, or it is the same. -/
theorem keyLe_iff {p q : Data × Data} : KeyLe p q ↔ KeyLt p.1 q.1 ∨ p.1 = q.1 := by
  rw [KeyLe, KeyLt]
  by_cases h : p.1.length = q.1.length
  · rw [if_pos h, List.le_iff_lt_or_eq]
    simp [h]
  · rw [if_neg h]
    have hne : p.1 ≠ q.1 := fun he => h (congrArg List.length he)
    simp [h, hne]

/-- The order of encoded keys is transitive. -/
theorem KeyLt.trans {a b c : Data} (h : KeyLt a b) (h' : KeyLt b c) : KeyLt a c := by
  rcases h with h | ⟨h, hlt⟩
  · rcases h' with h' | ⟨h', -⟩
    · exact .inl (h.trans h')
    · exact .inl (h' ▸ h)
  · rcases h' with h' | ⟨h', hlt'⟩
    · exact .inl (h ▸ h')
    · exact .inr ⟨h.trans h', List.lt_trans hlt hlt'⟩

theorem KeyLt.irrefl (a : Data) : ¬ KeyLt a a := by
  rintro (h | ⟨-, h⟩)
  · exact absurd h (lt_irrefl _)
  · exact absurd h (List.lt_irrefl _)

/-- Of two different keys one stands before the other. -/
theorem keyLt_trichotomy (a b : Data) : KeyLt a b ∨ a = b ∨ KeyLt b a := by
  rcases Nat.lt_trichotomy a.length b.length with h | h | h
  · exact .inl (.inl h)
  · by_cases hlt : a < b
    · exact .inl (.inr ⟨h, hlt⟩)
    · rcases List.le_iff_lt_or_eq.mp (List.not_lt.mp hlt) with hgt | heq
      · exact .inr (.inr (.inr ⟨h.symm, hgt⟩))
      · exact .inr (.inl heq.symm)
  · exact .inr (.inr (.inl h))

instance : Std.Total KeyLe where
  total p q := by
    rw [keyLe_iff, keyLe_iff]
    rcases keyLt_trichotomy p.1 q.1 with h | h | h
    · exact .inl (.inl h)
    · exact .inl (.inr h)
    · exact .inr (.inl h)

instance : IsTrans (Data × Data) KeyLe where
  trans p q r := by
    rw [keyLe_iff, keyLe_iff, keyLe_iff]
    rintro (h | h) (h' | h')
    · exact .inl (h.trans h')
    · exact .inl (h' ▸ h)
    · exact .inl (h ▸ h')
    · exact .inr (h.trans h')

/-- Keys that stand before each other are the same. -/
theorem keyLe_antisymm {p q : Data × Data} (h : KeyLe p q) (h' : KeyLe q p) : p.1 = q.1 := by
  rw [keyLe_iff] at h h'
  rcases h with h | h
  · rcases h' with h' | h'
    · exact absurd (h.trans h') (KeyLt.irrefl _)
    · exact h'.symm
  · exact h

/-! ### Encoded keys -/

/-- The number of bytes after the initial byte of a head. -/
def headExtra (ai : UInt8) : Nat := if ai < 24 then 0 else 2 ^ (ai.toNat - 24)

/-- A head is one byte with the major type, and the bytes of its argument. -/
theorem head_eq_cons (major : UInt8) (n : Nat) :
    ∃ ai t, ai ≤ 27 ∧ t.length = headExtra ai ∧ head major n = (major <<< 5 ||| ai) :: t := by
  by_cases h : n < 24
  · have hn : (UInt8.ofNat n).toNat = n := UInt8.toNat_ofNat_of_lt' (h.trans (by decide))
    refine ⟨UInt8.ofNat n, [], ?_, ?_, by rw [head, if_pos h]⟩
    · rw [UInt8.le_iff_toNat_le, hn]
      exact h.le.trans (by decide)
    · rw [headExtra, if_pos]
      · rfl
      · rw [UInt8.lt_iff_toNat_lt, hn]
        exact h
  rw [head, if_neg h]
  by_cases h1 : n ≤ 0xff
  · exact ⟨24, beBytes 1 n, by decide, by simp; decide, by simp only [if_pos h1]; rfl⟩
  by_cases h2 : n ≤ 0xffff
  · exact ⟨25, beBytes 2 n, by decide, by simp; decide, by simp only [if_neg h1, if_pos h2]; rfl⟩
  by_cases h4 : n ≤ 0xffffffff
  · exact ⟨26, beBytes 4 n, by decide, by simp; decide,
      by simp only [if_neg h1, if_neg h2, if_pos h4]; rfl⟩
  · exact ⟨27, beBytes 8 n, by decide, by simp; decide,
      by simp only [if_neg h1, if_neg h2, if_neg h4]; rfl⟩

/-- A head ends where its initial byte says. -/
theorem head_append_inj {major major' : UInt8} (hm : major ≤ 5) (hm' : major' ≤ 5) {n n' : Nat}
    {x x' : Data} (h : head major n ++ x = head major' n' ++ x') :
    major = major' ∧ head major n = head major' n' ∧ x = x' := by
  obtain ⟨ai, t, ha, ht, he⟩ := head_eq_cons major n
  obtain ⟨ai', t', ha', ht', he'⟩ := head_eq_cons major' n'
  rw [he, he', List.cons_append, List.cons_append] at h
  obtain ⟨hinit, hrest⟩ := List.cons.inj h
  obtain ⟨hmajor, hai⟩ := initial_parts hm ha
  obtain ⟨hmajor', hai'⟩ := initial_parts hm' ha'
  rw [hinit, hmajor'] at hmajor
  rw [hinit, hai'] at hai
  subst hmajor hai
  obtain ⟨rfl, rfl⟩ := List.append_inj hrest (ht.trans ht'.symm)
  exact ⟨rfl, he.trans he'.symm, rfl⟩

/-- A head determines its argument. -/
theorem head_inj {major : UInt8} (hm : major ≤ 5) {n n' : Nat} (hn : n < 2 ^ 64) (hn' : n' < 2 ^ 64)
    (h : head major n = head major n') : n = n' := by
  have h1 := (head_iff hn).mpr (rfl : head major n = _)
  have h2 := (head_iff hn').mpr h
  obtain ⟨ai, t, ha, he⟩ := h1.exists_cons
  rw [he] at h1 h2
  have hr : readArgument ai ⟨t ++ [], 0⟩ = .ok (n, ⟨[], 0⟩) :=
    (readArgument_eq_ok_iff hm ha).mpr ⟨t, rfl, h1⟩
  have hr' : readArgument ai ⟨t ++ [], 0⟩ = .ok (n', ⟨[], 0⟩) :=
    (readArgument_eq_ok_iff hm ha).mpr ⟨t, rfl, h2⟩
  rw [hr] at hr'
  exact congrArg Prod.fst (Except.ok.inj hr')

/-- The bytes of a text determine it. -/
theorem utf8_inj {s s' : String} (h : utf8 s = utf8 s') : s = s' :=
  Option.some.inj ((utf8String_eq_some_iff.mpr rfl).symm.trans (utf8String_eq_some_iff.mpr h))

/-- An integer is a head, of its own value or of what is below minus one. -/
theorem encodedInt_eq (n : Int64) : ∃ major k, major ≤ 1 ∧ k < 2 ^ 64 ∧ encodedInt n = head major k ∧
    n.toInt = if major = 0 then (k : Int) else -1 - k := by
  have hlt := n.toInt_lt
  have hge := n.le_toInt
  rw [encodedInt]
  by_cases h : 0 ≤ n.toInt
  · exact ⟨0, n.toInt.toNat, by decide, by omega, by rw [if_pos h], by rw [if_pos rfl]; omega⟩
  · exact ⟨1, (-(n.toInt + 1)).toNat, by decide, by omega, by rw [if_neg h],
      by rw [if_neg (by decide)]; omega⟩

/-- **Distinct keys have distinct encodings.** -/
theorem CBORKey.encoded_inj {k k' : CBORKey} (h : k.encoded = k'.encoded) : k = k' := by
  have hle : ∀ {m : UInt8}, m ≤ 1 → m ≤ 5 := fun hm =>
    UInt8.le_trans hm (by decide : (1 : UInt8) ≤ 5)
  have hne : ∀ {m : UInt8}, m ≤ 1 → m ≠ 3 := by
    rintro m hm rfl
    exact absurd hm (by decide)
  cases k with
  | int n =>
      obtain ⟨major, i, hm, hi, he, hn⟩ := encodedInt_eq n
      cases k' with
      | int n' =>
          obtain ⟨major', i', hm', hi', he', hn'⟩ := encodedInt_eq n'
          simp only [CBORKey.encoded, he, he'] at h
          have h' : head major i ++ [] = head major' i' ++ [] := by rw [h]
          obtain ⟨rfl, hhead, -⟩ := head_append_inj (hle hm) (hle hm') h'
          obtain rfl := head_inj (hle hm) hi hi' hhead
          rw [Int64.toInt_inj.mp (hn.trans hn'.symm)]
      | text s' =>
          simp only [CBORKey.encoded, he, encodedText] at h
          have h' : head major i ++ [] = head 3 (utf8 s').length ++ utf8 s' := by
            rw [List.append_nil, h]
          obtain ⟨rfl, -⟩ := head_append_inj (hle hm) (by decide) h'
          exact absurd rfl (hne hm)
  | text s =>
      cases k' with
      | int n' =>
          obtain ⟨major', i', hm', hi', he', hn'⟩ := encodedInt_eq n'
          simp only [CBORKey.encoded, he', encodedText] at h
          have h' : head 3 (utf8 s).length ++ utf8 s = head major' i' ++ [] := by
            rw [List.append_nil, h]
          obtain ⟨rfl, -⟩ := head_append_inj (by decide) (hle hm') h'
          exact absurd rfl (hne hm')
      | text s' =>
          simp only [CBORKey.encoded, encodedText] at h
          rw [utf8_inj (head_append_inj (by decide) (by decide) h).2.2]

/-! ### Equal values -/

mutual

/-- Equality of values in Swift: dictionaries are equal when they have as many entries and every
key of the first has an equal value in the second. -/
def CBOR.Same : CBOR → CBOR → Prop
  | .int n, .int n' => n = n'
  | .bytes d, .bytes d' => d = d'
  | .text s, .text s' => s = s'
  | .bool b, .bool b' => b = b'
  | .array a, .array a' => SameItems a a'
  | .map m, .map m' => m.length = m'.length ∧ SameEntries m m'
  | _, _ => False

def SameItems : List CBOR → List CBOR → Prop
  | [], [] => True
  | v :: a, v' :: a' => v.Same v' ∧ SameItems a a'
  | _, _ => False

def SameEntries : List (CBORKey × CBOR) → List (CBORKey × CBOR) → Prop
  | [], _ => True
  | (k, v) :: m, m' => (∃ v', m'.lookup k = some v' ∧ v.Same v') ∧ SameEntries m m'

end

/-! ### Induction on values -/

mutual

/-- Induction on a value, with its items and the values of its entries. -/
theorem CBOR.induct {P : CBOR → Prop} (int : ∀ n, P (.int n)) (bytes : ∀ d, P (.bytes d))
    (text : ∀ s, P (.text s)) (bool : ∀ b, P (.bool b))
    (array : ∀ a, (∀ v ∈ a, P v) → P (.array a))
    (map : ∀ m, (∀ e ∈ m, P e.2) → P (.map m)) : ∀ v, P v
  | .int n => int n
  | .bytes d => bytes d
  | .text s => text s
  | .bool b => bool b
  | .array a => array a (CBOR.inductItems int bytes text bool array map a)
  | .map m => map m (CBOR.inductEntries int bytes text bool array map m)

/-- The induction over the values of an array. -/
theorem CBOR.inductItems {P : CBOR → Prop} (int : ∀ n, P (.int n)) (bytes : ∀ d, P (.bytes d))
    (text : ∀ s, P (.text s)) (bool : ∀ b, P (.bool b))
    (array : ∀ a, (∀ v ∈ a, P v) → P (.array a))
    (map : ∀ m, (∀ e ∈ m, P e.2) → P (.map m)) : ∀ a : List CBOR, ∀ v ∈ a, P v
  | [] => List.forall_mem_nil _
  | v :: a => List.forall_mem_cons.mpr ⟨CBOR.induct int bytes text bool array map v,
      CBOR.inductItems int bytes text bool array map a⟩

/-- The induction over the values of a dictionary. -/
theorem CBOR.inductEntries {P : CBOR → Prop} (int : ∀ n, P (.int n)) (bytes : ∀ d, P (.bytes d))
    (text : ∀ s, P (.text s)) (bool : ∀ b, P (.bool b))
    (array : ∀ a, (∀ v ∈ a, P v) → P (.array a))
    (map : ∀ m, (∀ e ∈ m, P e.2) → P (.map m)) : ∀ m : List (CBORKey × CBOR), ∀ e ∈ m, P e.2
  | [] => List.forall_mem_nil _
  | (_, v) :: m => List.forall_mem_cons.mpr ⟨CBOR.induct int bytes text bool array map v,
      CBOR.inductEntries int bytes text bool array map m⟩

end

/-! ### The order of the entries -/

mutual

/-- The value with the entries of its dictionaries in the order they have. -/
def CBOR.written : CBOR → Data
  | .int n => encodedInt n
  | .bytes d => head 2 d.length ++ d
  | .text s => encodedText s
  | .bool b => [if b then 0xf5 else 0xf4]
  | .array a => head 4 a.length ++ writtenItems a
  | .map m => head 5 m.length ++ writtenEntries m

def writtenItems : List CBOR → Data
  | [] => []
  | v :: a => v.written ++ writtenItems a

def writtenEntries : List (CBORKey × CBOR) → Data
  | [] => []
  | (k, v) :: m => k.encoded ++ (v.written ++ writtenEntries m)

end

/-- The order of two entries. -/
def EntryLe (e f : CBORKey × CBOR) : Prop := KeyLe (e.1.encoded, []) (f.1.encoded, [])

instance : DecidableRel EntryLe := fun _ _ => inferInstanceAs (Decidable (KeyLe _ _))

mutual

/-- The value with its dictionaries in the order of their keys. -/
def CBOR.sorted : CBOR → CBOR
  | .array a => .array (sortedItems a)
  | .map m => .map ((sortedEntries m).insertionSort EntryLe)
  | v => v

def sortedItems : List CBOR → List CBOR
  | [] => []
  | v :: a => v.sorted :: sortedItems a

def sortedEntries : List (CBORKey × CBOR) → List (CBORKey × CBOR)
  | [] => []
  | (k, v) :: m => (k, v.sorted) :: sortedEntries m

end

mutual

/-- In every dictionary of the value, the encoded keys strictly increase. -/
def CBOR.Canonical : CBOR → Prop
  | .array a => CanonicalItems a
  | .map m => (m.map fun e => e.1.encoded).Pairwise KeyLt ∧ CanonicalValues m
  | _ => True

def CanonicalItems : List CBOR → Prop
  | [] => True
  | v :: a => v.Canonical ∧ CanonicalItems a

def CanonicalValues : List (CBORKey × CBOR) → Prop
  | [] => True
  | (_, v) :: m => v.Canonical ∧ CanonicalValues m

end

section

variable {a : List CBOR} {m : List (CBORKey × CBOR)}

/-- The entries are written one after the other, each key before its value. -/
theorem writtenEntries_eq :
    writtenEntries m = (m.map fun e => (e.1.encoded, e.2.written)).flatMap fun p => p.1 ++ p.2 := by
  induction m with
  | nil => rfl
  | cons e m ih => rw [writtenEntries, ih, List.map_cons, List.flatMap_cons, List.append_assoc]

/-- The values of an array are sorted one by one. -/
theorem sortedItems_eq : sortedItems a = a.map CBOR.sorted := by
  induction a with
  | nil => rfl
  | cons v a ih => rw [sortedItems, ih, List.map_cons]

/-- The values of a dictionary are sorted one by one. -/
theorem sortedEntries_eq : sortedEntries m = m.map fun e => (e.1, e.2.sorted) := by
  induction m with
  | nil => rfl
  | cons e m ih => rw [sortedEntries, ih, List.map_cons]

/-- An array has distinct keys when its values have. -/
theorem distinctItems_iff : DistinctItems a ↔ ∀ v ∈ a, v.Distinct := by
  induction a with
  | nil => simp [DistinctItems]
  | cons v a ih => rw [DistinctItems, ih, List.forall_mem_cons]

theorem distinctValues_iff : DistinctValues m ↔ ∀ e ∈ m, e.2.Distinct := by
  induction m with
  | nil => simp [DistinctValues]
  | cons e m ih => rw [DistinctValues, ih, List.forall_mem_cons]

/-- An array is canonical when its values are. -/
theorem canonicalItems_iff : CanonicalItems a ↔ ∀ v ∈ a, v.Canonical := by
  induction a with
  | nil => simp [CanonicalItems]
  | cons v a ih => rw [CanonicalItems, ih, List.forall_mem_cons]

theorem canonicalValues_iff : CanonicalValues m ↔ ∀ e ∈ m, e.2.Canonical := by
  induction m with
  | nil => simp [CanonicalValues]
  | cons e m ih => rw [CanonicalValues, ih, List.forall_mem_cons]

/-- Each entry of the one has an equal value under its key in the other. -/
theorem sameEntries_iff {m' : List (CBORKey × CBOR)} :
    SameEntries m m' ↔ ∀ e ∈ m, ∃ v', m'.lookup e.1 = some v' ∧ e.2.Same v' := by
  induction m with
  | nil => simp [SameEntries]
  | cons e m ih => rw [SameEntries, ih, List.forall_mem_cons]

/-- An array is one deeper than its deepest value. -/
theorem depthItems_le_iff {n : Nat} : depthItems a ≤ n ↔ ∀ v ∈ a, v.depth + 1 ≤ n := by
  induction a with
  | nil => simp [depthItems]
  | cons v a ih => rw [depthItems, max_le_iff, ih, List.forall_mem_cons]

theorem depthEntries_le_iff {n : Nat} : depthEntries m ≤ n ↔ ∀ e ∈ m, e.2.depth + 1 ≤ n := by
  induction m with
  | nil => simp [depthEntries]
  | cons e m ih => rw [depthEntries, max_le_iff, ih, List.forall_mem_cons]

/-- The nodes of an array are those of its values. -/
theorem nodesItems_eq : nodesItems a = (a.map CBOR.nodes).sum := by
  induction a with
  | nil => rfl
  | cons v a ih => rw [nodesItems, ih, List.map_cons, List.sum_cons]

/-- The nodes of a dictionary are those of its values, and one for each key. -/
theorem nodesEntries_eq : nodesEntries m = (m.map fun e => 1 + e.2.nodes).sum := by
  induction m with
  | nil => rfl
  | cons e m ih => rw [nodesEntries, ih, List.map_cons, List.sum_cons]

/-- The entries of a sorted dictionary. -/
theorem sorted_entries_perm (m : List (CBORKey × CBOR)) :
    ((sortedEntries m).insertionSort EntryLe).Perm (m.map fun e => (e.1, e.2.sorted)) :=
  sortedEntries_eq ▸ List.perm_insertionSort EntryLe _

/-- A sorted dictionary has the entries it had, with sorted values. -/
theorem mem_sorted_entries {e : CBORKey × CBOR} :
    e ∈ (sortedEntries m).insertionSort EntryLe ↔ ∃ f ∈ m, (f.1, f.2.sorted) = e := by
  rw [(sorted_entries_perm m).mem_iff, List.mem_map]

/-- A sorted dictionary has the keys it had. -/
theorem keys_sorted_entries (m : List (CBORKey × CBOR)) :
    (((sortedEntries m).insertionSort EntryLe).map Prod.fst).Perm (m.map Prod.fst) := by
  have h := (sorted_entries_perm m).map Prod.fst
  rwa [List.map_map] at h

end

/-! ### The value that is encoded -/

instance : Std.Total EntryLe where
  total e f := Std.Total.total (r := KeyLe) (e.1.encoded, []) (f.1.encoded, [])

instance : IsTrans (CBORKey × CBOR) EntryLe where
  trans _ _ _ := IsTrans.trans (r := KeyLe) _ _ _

/-- **`encoded` writes the sorted value.** -/
theorem written_sorted (v : CBOR) : v.sorted.written = v.encoded := by
  induction v using CBOR.induct with
  | int | bytes | text | bool => rfl
  | array a ih =>
      have hitems : ∀ a : List CBOR, (∀ v ∈ a, v.sorted.written = v.encoded) →
          writtenItems (sortedItems a) = encodedItems a := by
        intro a ih
        induction a with
        | nil => rfl
        | cons v a ih' =>
            rw [sortedItems, writtenItems, encodedItems, ih v List.mem_cons_self,
              ih' fun w hw => ih w (List.mem_cons_of_mem _ hw)]
      rw [CBOR.sorted, CBOR.written, CBOR.encoded, hitems a ih, sortedItems_eq, List.length_map]
  | map m ih =>
      have hpairs : (sortedEntries m).map (fun e => (e.1.encoded, e.2.written)) = encodedPairs m := by
        rw [sortedEntries_eq, encodedPairs_eq, List.map_map]
        exact List.map_congr_left fun e he => Prod.ext rfl (ih e he)
      have hsort : ((sortedEntries m).insertionSort EntryLe).map
          (fun e => (e.1.encoded, e.2.written)) = (encodedPairs m).insertionSort KeyLe := by
        rw [← hpairs]
        exact List.map_insertionSort EntryLe KeyLe _ _ fun _ _ _ _ => Iff.rfl
      rw [CBOR.sorted, CBOR.written, CBOR.encoded, writtenEntries_eq, hsort,
        List.length_insertionSort, sortedEntries_eq, List.length_map]

/-- Sorting keeps the keys distinct. -/
theorem distinct_sorted {v : CBOR} (h : v.Distinct) : v.sorted.Distinct := by
  induction v using CBOR.induct with
  | int | bytes | text | bool => trivial
  | array a ih =>
      rw [CBOR.sorted, CBOR.Distinct, distinctItems_iff, sortedItems_eq]
      intro w hw
      obtain ⟨v, hv, rfl⟩ := List.mem_map.mp hw
      exact ih v hv (distinctItems_iff.mp h v hv)
  | map m ih =>
      refine ⟨(keys_sorted_entries m).nodup_iff.mpr h.1, distinctValues_iff.mpr fun e he => ?_⟩
      obtain ⟨f, hf, rfl⟩ := mem_sorted_entries.mp he
      exact ih f hf (distinctValues_iff.mp h.2 f hf)

/-- The sorted value is equal to the value. -/
theorem same_sorted {v : CBOR} (h : v.Distinct) : v.Same v.sorted := by
  induction v using CBOR.induct with
  | int | bytes | text | bool => exact rfl
  | array a ih =>
      have hitems : ∀ a : List CBOR, (∀ v ∈ a, v.Same v.sorted) → SameItems a (sortedItems a) := by
        intro a ih
        induction a with
        | nil => trivial
        | cons v a ih' =>
            exact ⟨ih v List.mem_cons_self, ih' fun w hw => ih w (List.mem_cons_of_mem _ hw)⟩
      exact hitems a fun v hv => ih v hv (distinctItems_iff.mp h v hv)
  | map m ih =>
      have hd := (distinct_sorted h).1
      refine ⟨?_, sameEntries_iff.mpr fun e he => ⟨e.2.sorted, ?_, ?_⟩⟩
      · rw [List.length_insertionSort, sortedEntries_eq, List.length_map]
      · exact (lookup_eq_some_iff_mem hd).mpr (mem_sorted_entries.mpr ⟨e, he, rfl⟩)
      · exact ih e he (distinctValues_iff.mp h.2 e he)

/-- Distinct keys in order are strictly in order. -/
theorem pairwise_keyLt {m : List (CBORKey × CBOR)} (hs : m.Pairwise EntryLe) (hd : DistinctKeys m) :
    (m.map fun e => e.1.encoded).Pairwise KeyLt := by
  rw [List.pairwise_map]
  refine (hs.and (List.pairwise_map.mp hd)).imp ?_
  rintro e f ⟨hle, hne⟩
  rcases keyLe_iff.mp hle with hlt | heq
  · exact hlt
  · exact absurd (CBORKey.encoded_inj heq) hne

/-- The sorted value is canonical. -/
theorem canonical_sorted {v : CBOR} (h : v.Distinct) : v.sorted.Canonical := by
  induction v using CBOR.induct with
  | int | bytes | text | bool => trivial
  | array a ih =>
      rw [CBOR.sorted, CBOR.Canonical, canonicalItems_iff, sortedItems_eq]
      intro w hw
      obtain ⟨v, hv, rfl⟩ := List.mem_map.mp hw
      exact ih v hv (distinctItems_iff.mp h v hv)
  | map m ih =>
      refine ⟨pairwise_keyLt (List.pairwise_insertionSort EntryLe _) (distinct_sorted h).1,
        canonicalValues_iff.mpr fun e he => ?_⟩
      obtain ⟨f, hf, rfl⟩ := mem_sorted_entries.mp he
      exact ih f hf (distinctValues_iff.mp h.2 f hf)

/-- Sorting keeps the depth. -/
theorem depth_sorted (v : CBOR) : v.sorted.depth = v.depth := by
  induction v using CBOR.induct with
  | int | bytes | text | bool => rfl
  | array a ih =>
      refine eq_of_forall_ge_iff fun n => ?_
      rw [CBOR.sorted, CBOR.depth, CBOR.depth, depthItems_le_iff, depthItems_le_iff, sortedItems_eq,
        List.forall_mem_map]
      exact forall₂_congr fun v hv => by rw [ih v hv]
  | map m ih =>
      refine eq_of_forall_ge_iff fun n => ?_
      rw [CBOR.sorted, CBOR.depth, CBOR.depth, depthEntries_le_iff, depthEntries_le_iff]
      constructor
      · intro h e he
        rw [← ih e he]
        exact h (e.1, e.2.sorted) (mem_sorted_entries.mpr ⟨e, he, rfl⟩)
      · intro h e he
        obtain ⟨f, hf, rfl⟩ := mem_sorted_entries.mp he
        rw [ih f hf]
        exact h f hf

/-- Sorting keeps the number of nodes. -/
theorem nodes_sorted (v : CBOR) : v.sorted.nodes = v.nodes := by
  induction v using CBOR.induct with
  | int | bytes | text | bool => rfl
  | array a ih =>
      rw [CBOR.sorted, CBOR.nodes, CBOR.nodes, nodesItems_eq, nodesItems_eq, sortedItems_eq,
        List.map_map]
      exact congrArg (1 + ·) (congrArg List.sum (List.map_congr_left ih))
  | map m ih =>
      rw [CBOR.sorted, CBOR.nodes, CBOR.nodes, nodesEntries_eq, nodesEntries_eq,
        ((sorted_entries_perm m).map _).sum_nat, List.map_map]
      exact congrArg (1 + ·) (congrArg List.sum
        (List.map_congr_left fun e he => congrArg (1 + ·) (ih e he)))

/-! ### Items and what is written -/

/-- The argument of a head has 64 bits. -/
theorem Head.lt {major : UInt8} {n : Nat} {b : Data} (h : Head major n b) : n < 2 ^ 64 := by
  cases h with
  | direct h => exact h.trans (by decide)
  | one h h' | two h h' | four h h' => exact h'.trans (by decide)
  | eight h h' => exact h'

/-- A head that is accepted is the shortest one. -/
theorem Head.eq_head {major : UInt8} {n : Nat} {b : Data} (h : Head major n b) :
    b = head major n :=
  (head_iff h.lt).mp h

/-- The bytes of an integer are its encoding. -/
theorem item_int_iff {b : Data} {n : Int64} : Item b (.int n) ↔ b = encodedInt n := by
  have hlt := n.toInt_lt
  have hge := n.le_toInt
  have hneg : (-1 - n.toInt).toNat = (-(n.toInt + 1)).toNat := by omega
  rw [encodedInt]
  constructor
  · intro h
    cases h with
    | unsigned hn hb => rw [if_pos hn, hb.eq_head]
    | negative hn hb => rw [if_neg (not_le.mpr hn), hb.eq_head, hneg]
  · rintro rfl
    by_cases hn : 0 ≤ n.toInt
    · rw [if_pos hn]
      exact .unsigned hn ((head_iff (by omega)).mpr rfl)
    · rw [if_neg hn, ← hneg]
      exact .negative (not_le.mp hn) ((head_iff (by omega)).mpr rfl)

/-- The bytes of a text are its encoding, if its length has 64 bits. -/
theorem item_text_iff {b : Data} {s : String} :
    Item b (.text s) ↔ b = encodedText s ∧ (utf8 s).length < 2 ^ 64 := by
  rw [encodedText]
  constructor
  · intro h
    cases h with
    | text hb => exact ⟨by rw [← hb.eq_head], hb.lt⟩
  · rintro ⟨rfl, hlt⟩
    exact .text ((head_iff hlt).mpr rfl)

/-- The item of a key. -/
theorem item_key_iff {b : Data} {k : CBORKey} :
    Item b k.value ↔ b = k.encoded ∧ ∀ s, k = .text s → (utf8 s).length < 2 ^ 64 := by
  cases k with
  | int n => simp [CBORKey.value, CBORKey.encoded, item_int_iff]
  | text s => simp [CBORKey.value, CBORKey.encoded, item_text_iff]

/-- The value of an item determines its bytes. -/
theorem Item.eq_written {b : Data} {v : CBOR} (h : Item b v) : b = v.written := by
  induction v using CBOR.induct generalizing b with
  | int n => exact item_int_iff.mp h
  | bytes d =>
      cases h with
      | bytes hb => rw [hb.eq_head, CBOR.written]
  | text s => exact (item_text_iff.mp h).1
  | bool b =>
      cases h with
      | false | true => rfl
  | array a ih =>
      have hitems : ∀ {a : List CBOR} {c : Data}, (∀ v ∈ a, ∀ {b}, Item b v → b = v.written) →
          Items c a → c = writtenItems a := by
        intro a c ih hc
        induction a generalizing c with
        | nil =>
            cases hc
            rfl
        | cons v a ih' =>
            cases hc with
            | cons hv ha =>
                rw [writtenItems, ih v List.mem_cons_self hv,
                  ih' (fun w hw => ih w (List.mem_cons_of_mem _ hw)) ha]
      cases h with
      | array hb ha => rw [hb.eq_head, CBOR.written, hitems ih ha]
  | map m ih =>
      have hentries : ∀ {m : List (CBORKey × CBOR)} {c : Data},
          (∀ e ∈ m, ∀ {b}, Item b e.2 → b = e.2.written) → Entries c m → c = writtenEntries m := by
        intro m c ih hc
        induction m generalizing c with
        | nil =>
            cases hc
            rfl
        | cons e m ih' =>
            cases hc with
            | cons hk hv hm =>
                rw [writtenEntries, (item_key_iff.mp hk).1, ih _ List.mem_cons_self hv,
                  ih' (fun w hw => ih w (List.mem_cons_of_mem _ hw)) hm]
      cases h with
      | map hb hm => rw [hb.eq_head, CBOR.written, hentries ih hm]

/-- A value that is decoded has distinct keys. -/
theorem Item.distinct {b : Data} {v : CBOR} (h : Item b v) : v.Distinct := by
  induction v using CBOR.induct generalizing b with
  | int | bytes | text | bool => trivial
  | array a ih =>
      have hitems : ∀ {a : List CBOR} {c : Data}, Items c a → ∀ v ∈ a, ∃ b, Item b v := by
        intro a c hc
        induction a generalizing c with
        | nil => exact List.forall_mem_nil _
        | cons v a ih' =>
            cases hc with
            | cons hv ha => exact List.forall_mem_cons.mpr ⟨⟨_, hv⟩, ih' ha⟩
      cases h with
      | array hb ha =>
          refine distinctItems_iff.mpr fun v hv => ?_
          obtain ⟨b, hb⟩ := hitems ha v hv
          exact ih v hv hb
  | map m ih =>
      have hentries : ∀ {m : List (CBORKey × CBOR)} {c : Data}, Entries c m →
          ∀ e ∈ m, ∃ b, Item b e.2 := by
        intro m c hc
        induction m generalizing c with
        | nil => exact List.forall_mem_nil _
        | cons e m ih' =>
            cases hc with
            | cons hk hv hm => exact List.forall_mem_cons.mpr ⟨⟨_, hv⟩, ih' hm⟩
      cases h with
      | map hb hm hd =>
          refine ⟨hd, distinctValues_iff.mpr fun e he => ?_⟩
          obtain ⟨b, hb⟩ := hentries hm e he
          exact ih e he hb

/-- What is written is an item. -/
theorem item_written {v : CBOR} (hd : v.Distinct) (hlen : v.written.length < 2 ^ 64) :
    Item v.written v := by
  induction v using CBOR.induct with
  | int n => exact item_int_iff.mpr rfl
  | bytes d =>
      rw [CBOR.written, List.length_append] at hlen
      exact .bytes ((head_iff (by omega)).mpr rfl)
  | text s =>
      rw [CBOR.written, encodedText, List.length_append] at hlen
      exact item_text_iff.mpr ⟨rfl, by omega⟩
  | bool b =>
      cases b with
      | false => exact .false
      | true => exact .true
  | array a ih =>
      have hitems : ∀ {a : List CBOR}, (∀ v ∈ a, v.written.length < 2 ^ 64 → Item v.written v) →
          (writtenItems a).length < 2 ^ 64 → Items (writtenItems a) a := by
        intro a ih hlen
        induction a with
        | nil => exact .nil
        | cons v a ih' =>
            rw [writtenItems, List.length_append] at hlen
            exact .cons (ih v List.mem_cons_self (by omega))
              (ih' (fun w hw => ih w (List.mem_cons_of_mem _ hw)) (by omega))
      rw [CBOR.written, List.length_append] at hlen
      have ha := hitems (fun v hv => ih v hv (distinctItems_iff.mp hd v hv)) (by omega)
      have := ha.length_le
      exact .array ((head_iff (by omega)).mpr rfl) ha
  | map m ih =>
      have hentries : ∀ {m : List (CBORKey × CBOR)},
          (∀ e ∈ m, e.2.written.length < 2 ^ 64 → Item e.2.written e.2) →
          (writtenEntries m).length < 2 ^ 64 → Entries (writtenEntries m) m := by
        intro m ih hlen
        induction m with
        | nil => exact .nil
        | cons e m ih' =>
            obtain ⟨k, v⟩ := e
            rw [writtenEntries, List.length_append, List.length_append] at hlen
            have hv : v.written.length < 2 ^ 64 := by omega
            refine .cons (item_key_iff.mpr ⟨rfl, ?_⟩) (ih _ List.mem_cons_self hv)
              (ih' (fun w hw => ih w (List.mem_cons_of_mem _ hw)) (by omega))
            rintro s rfl
            rw [CBORKey.encoded, encodedText, List.length_append] at hlen
            omega
      rw [CBOR.written, List.length_append] at hlen
      have hm := hentries (fun e he => ih e he (distinctValues_iff.mp hd.2 e he)) (by omega)
      have := hm.length_le
      exact .map ((head_iff (by omega)).mpr rfl) hm hd.1

/-! ### Canonical values -/

/-- Distinct keys make distinct pairs. -/
theorem nodup_encodedPairs {m : List (CBORKey × CBOR)} (h : DistinctKeys m) :
    (encodedPairs m).Nodup := by
  rw [encodedPairs_eq]
  refine List.Pairwise.map _ ?_ (List.pairwise_map.mp h)
  intro e f hne he
  exact hne (CBORKey.encoded_inj (congrArg Prod.fst he))

/-- The sorted entries do not depend on the order of the entries. -/
theorem insertionSort_eq_of_perm {l : List (Data × Data)} {m : List (CBORKey × CBOR)}
    (hp : l.Perm (encodedPairs m)) (h : DistinctKeys m) :
    l.insertionSort KeyLe = (encodedPairs m).insertionSort KeyLe := by
  have hperm := ((List.perm_insertionSort KeyLe l).trans hp).trans
    (List.perm_insertionSort KeyLe _).symm
  refine hperm.eq_of_pairwise ?_ (List.pairwise_insertionSort KeyLe _)
    (List.pairwise_insertionSort KeyLe _)
  intro p q hpm hqm hle hle'
  have hpm := hp.mem_iff.mp ((List.perm_insertionSort KeyLe l).mem_iff.mp hpm)
  have hqm := (List.perm_insertionSort KeyLe _).mem_iff.mp hqm
  rw [encodedPairs_eq] at hpm hqm
  obtain ⟨e, he, rfl⟩ := List.mem_map.mp hpm
  obtain ⟨f, hf, rfl⟩ := List.mem_map.mp hqm
  -- entries with the same encoded key have the same key, so they are the same entry
  rw [List.inj_on_of_nodup_map h he hf (CBORKey.encoded_inj (keyLe_antisymm hle hle'))]

/-- A canonical value is sorted already. -/
theorem sorted_eq_self {v : CBOR} (h : v.Canonical) : v.sorted = v := by
  induction v using CBOR.induct with
  | int | bytes | text | bool => rfl
  | array a ih =>
      rw [CBOR.sorted, sortedItems_eq]
      congr 1
      exact (List.map_congr_left fun v hv => ih v hv (canonicalItems_iff.mp h v hv)).trans
        (List.map_id _)
  | map m ih =>
      have hvalues : sortedEntries m = m := by
        rw [sortedEntries_eq]
        refine (List.map_congr_left (g := id) fun e he => ?_).trans (List.map_id _)
        exact Prod.ext rfl (ih e he (canonicalValues_iff.mp h.2 e he))
      have hsorted : m.Pairwise EntryLe :=
        (List.pairwise_map.mp h.1).imp fun hlt => keyLe_iff.mpr (.inl hlt)
      rw [CBOR.sorted, hvalues, hsorted.insertionSort_eq]

/-- **The encoding does not depend on the order of dictionaries.** -/
theorem encoded_eq_of_same {v w : CBOR} (h : v.Same w) (hv : v.Distinct) (hw : w.Distinct) :
    v.encoded = w.encoded := by
  induction v using CBOR.induct generalizing w with
  | int n | bytes n | text n | bool n =>
      cases w with
      | int n' | bytes n' | text n' | bool n' =>
          first
          | (obtain rfl : n = n' := h; rfl)
          | exact h.elim
      | array | map => exact h.elim
  | array a ih =>
      cases w with
      | array a' =>
          have hitems : ∀ {a a' : List CBOR}, (∀ v ∈ a, ∀ {w : CBOR}, v.Same w → v.Distinct →
              w.Distinct → v.encoded = w.encoded) → SameItems a a' → DistinctItems a →
              DistinctItems a' → encodedItems a = encodedItems a' ∧ a.length = a'.length := by
            intro a a' ih h hd hd'
            induction a generalizing a' with
            | nil =>
                cases a' with
                | nil => exact ⟨rfl, rfl⟩
                | cons => exact h.elim
            | cons v a ih' =>
                cases a' with
                | nil => exact h.elim
                | cons v' a' =>
                    obtain ⟨he, hl⟩ := ih' (fun w hw => ih w (List.mem_cons_of_mem _ hw)) h.2 hd.2
                      hd'.2
                    rw [encodedItems, encodedItems, ih v List.mem_cons_self h.1 hd.1 hd'.1, he,
                      List.length_cons, List.length_cons, hl]
                    exact ⟨rfl, rfl⟩
          obtain ⟨he, hl⟩ := hitems ih h hv hw
          rw [CBOR.encoded, CBOR.encoded, he, hl]
      | int | bytes | text | bool | map => exact h.elim
  | map m ih =>
      cases w with
      | map m' =>
          have hsub : ∀ p ∈ encodedPairs m, p ∈ encodedPairs m' := by
            rw [encodedPairs_eq, encodedPairs_eq]
            intro p hp
            obtain ⟨e, he, rfl⟩ := List.mem_map.mp hp
            obtain ⟨v', hl, hs⟩ := sameEntries_iff.mp h.2 e he
            have hm := mem_of_lookup hl
            rw [ih e he hs (distinctValues_iff.mp hv.2 e he) (distinctValues_iff.mp hw.2 _ hm)]
            exact List.mem_map.mpr ⟨_, hm, rfl⟩
          have hperm : (encodedPairs m).Perm (encodedPairs m') := by
            refine ((nodup_encodedPairs hv.1).subperm hsub).perm_of_length_le ?_
            rw [encodedPairs_eq, encodedPairs_eq, List.length_map, List.length_map, h.1]
          rw [CBOR.encoded, CBOR.encoded, h.1, insertionSort_eq_of_perm hperm hw.1]
      | int | bytes | text | bool | array => exact h.elim

/-- The encoding of a value is the item of its sorted form. -/
theorem item_encoded {v : CBOR} (hd : v.Distinct) (hlen : v.encoded.length < 2 ^ 64) :
    Item v.encoded v.sorted := by
  rw [← written_sorted] at hlen ⊢
  exact item_written (distinct_sorted hd) hlen

/-- **Decoding an encoded value** gives its sorted form. -/
theorem decode_encoded {v : CBOR} (hd : v.Distinct) (hdepth : v.depth < 10)
    (hnodes : v.nodes ≤ 1024) (hlen : v.encoded.length ≤ 7609) :
    CBOR.decode v.encoded = .ok v.sorted :=
  decode_eq_ok_iff.mpr ⟨hlen, item_encoded hd (hlen.trans_lt (by decide)),
    (depth_sorted v).trans_lt hdepth, (nodes_sorted v).trans_le hnodes⟩

/-- **Encoding a decoded value** gives the bytes back if they are in canonical order. -/
theorem encoded_decode_iff {b : Data} {v : CBOR} (h : CBOR.decode b = .ok v) :
    v.encoded = b ↔ v.Canonical := by
  obtain ⟨hlen, hitem, hdepth, hnodes⟩ := decode_eq_ok_iff.mp h
  constructor
  · intro he
    have hsorted := decode_encoded hitem.distinct hdepth hnodes (he ▸ hlen)
    rw [he, h] at hsorted
    rw [Except.ok.inj hsorted]
    exact canonical_sorted hitem.distinct
  · intro hc
    rw [← written_sorted, sorted_eq_self hc, ← hitem.eq_written]

end Ashacky.Fido
