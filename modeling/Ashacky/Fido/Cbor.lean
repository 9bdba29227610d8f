import Ashacky.Support.Bytes
import Ashacky.Support.Dictionary
import Ashacky.Support.Effect
import Mathlib.Data.List.Sort

/-!
# Fido — CBOR

`host/auth/CBOR.swift`: the definite-length subset of CBOR that CTAP2 uses.  A dictionary is the
list of its entries, in some order; a key occurs once in the dictionaries that `decode` builds.
Strings are compared scalar by scalar.  Swift compares them by canonical equivalence, so every result
about messages assumes of them that two text keys of one dictionary which are canonically equivalent
are equal; the source takes such a pair for a duplicate.  The keys and values the authenticator asks
for are in ASCII, and no other text is canonically equivalent to one of them.

`encoded` writes the entries of a dictionary sorted by their encoded keys, shorter keys first, so
it does not depend on that order.  `decode` reads one item and rejects trailing bytes; the item
reader works on the bytes that are left (`Reader.rest`) and counts the items it has begun.  The
bound `depth < 10` makes it a recursion on the levels that remain.
-/

namespace Ashacky.Fido
open Ashacky.Support

/-- What a throwing function throws: `FIDOError.status(code)`, or an error of another type. -/
inductive Thrown where
  | status (code : UInt8)
  | other
  deriving DecidableEq, Repr

/-- `CBORKey`. -/
inductive CBORKey where
  | int (n : Int64)
  | text (s : String)
  deriving DecidableEq, Repr

/-- `CBOR`. -/
inductive CBOR where
  | int (n : Int64)
  | bytes (d : Data)
  | text (s : String)
  | bool (b : Bool)
  | array (a : List CBOR)
  | map (m : List (CBORKey × CBOR))
  deriving Repr

/-- `CBORKey.value`. -/
def CBORKey.value : CBORKey → CBOR
  | .int n => .int n
  | .text s => .text s

/-- `Data(s.utf8)`. -/
def utf8 (s : String) : Data := s.toUTF8.data.toList

/-- `String(data: d, encoding: .utf8)`. -/
def utf8String (d : Data) : Option String := String.fromUTF8? ⟨d.toArray⟩

namespace CBOR

/-! ### Accessors -/

def integer : CBOR → Option Int64
  | .int n => some n
  | _ => none

def data : CBOR → Option Data
  | .bytes d => some d
  | _ => none

def string : CBOR → Option String
  | .text s => some s
  | _ => none

def boolean : CBOR → Option Bool
  | .bool b => some b
  | _ => none

def values : CBOR → Option (List CBOR)
  | .array a => some a
  | _ => none

def fields : CBOR → Option (List (CBORKey × CBOR))
  | .map m => some m
  | _ => none

/-- `fields?[key]`. -/
def field (v : CBOR) (key : CBORKey) : Option CBOR := v.fields.bind (·.lookup key)

/-- `subscript(_ key: Int64)`. -/
def index (v : CBOR) (key : Int64) : Option CBOR := v.field (.int key)

/-- `subscript(_ key: String)`. -/
def get (v : CBOR) (key : String) : Option CBOR := v.field (.text key)

end CBOR

/-! ### Encoding -/

/-- `head(major, n)`. -/
def head (major : UInt8) (n : Nat) : Data :=
  if n < 24 then [major <<< 5 ||| UInt8.ofNat n]
  else
    let size := if n ≤ 0xff then 1 else if n ≤ 0xffff then 2 else if n ≤ 0xffffffff then 4 else 8
    let ai : UInt8 := if size = 1 then 24 else if size = 2 then 25 else if size = 4 then 26 else 27
    (major <<< 5 ||| ai) :: beBytes size n

/-- `encoded` at `.int(n)`. -/
def encodedInt (n : Int64) : Data :=
  if 0 ≤ n.toInt then head 0 n.toInt.toNat else head 1 (-(n.toInt + 1)).toNat

/-- `encoded` at `.text(s)`. -/
def encodedText (s : String) : Data := head 3 (utf8 s).length ++ utf8 s

/-- `key.value.encoded()`. -/
def CBORKey.encoded : CBORKey → Data
  | .int n => encodedInt n
  | .text s => encodedText s

/-- The order of two encoded entries: by the length of the key, then lexicographically. -/
def KeyLe (p q : Data × Data) : Prop :=
  if p.1.length = q.1.length then p.1 ≤ q.1 else p.1.length < q.1.length

instance : DecidableRel KeyLe := fun p q => by unfold KeyLe; infer_instance

mutual

/-- `CBOR.encoded`. -/
def CBOR.encoded : CBOR → Data
  | .int n => encodedInt n
  | .bytes d => head 2 d.length ++ d
  | .text s => encodedText s
  | .bool b => [if b then 0xf5 else 0xf4]
  | .array a => head 4 a.length ++ encodedItems a
  | .map m =>
      head 5 m.length ++ ((encodedPairs m).insertionSort KeyLe).flatMap fun p => p.1 ++ p.2

/-- The items of an array. -/
def encodedItems : List CBOR → Data
  | [] => []
  | v :: vs => v.encoded ++ encodedItems vs

/-- The entries of a dictionary, key and value encoded. -/
def encodedPairs : List (CBORKey × CBOR) → List (Data × Data)
  | [] => []
  | (k, v) :: m => (k.encoded, v.encoded) :: encodedPairs m

end

/-- The entries are encoded one by one. -/
theorem encodedPairs_eq (m : List (CBORKey × CBOR)) :
    encodedPairs m = m.map fun e => (e.1.encoded, e.2.encoded) := by
  induction m with
  | nil => rfl
  | cons e m ih => rw [encodedPairs, ih, List.map_cons]

/-! ### Decoding -/

/-- The state of `decode`: the bytes from `offset` on, and the number of items begun. -/
structure Reader where
  rest : Data
  nodes : Nat
  deriving DecidableEq, Repr

/-- `take(count)`. -/
def take (count : Nat) (r : Reader) : Except Thrown (Data × Reader) :=
  if count ≤ r.rest.length then .ok (r.rest.take count, { r with rest := r.rest.drop count })
  else .error (.status 0x12)

/-- The argument of a head whose first byte has the low bits `ai`. -/
def readArgument (ai : UInt8) (r : Reader) : Except Thrown (Nat × Reader) :=
  if ai < 24 then .ok (ai.toNat, r)
  else do
    let count := 1 <<< (ai - 24).toNat
    let (raw, r) ← take count r
    let minimum := if count = 1 then 24 else if count = 2 then 256 else
      if count = 4 then 65536 else 4294967296
    if beNat raw ≥ minimum then .ok (beNat raw, r) else .error (.status 0x12)

/-- The key that an item is. -/
def keyOf : CBOR → Except Thrown CBORKey
  | .int i => .ok (.int i)
  | .text t => .ok (.text t)
  | _ => .error (.status 0x12)

section
variable (read : Reader → Except Thrown (CBOR × Reader))

/-- `count` items, one after the other. -/
def readItems : Nat → Reader → Except Thrown (List CBOR × Reader)
  | 0, r => .ok ([], r)
  | count + 1, r => do
      let (v, r) ← read r
      let (vs, r) ← readItems count r
      return (v :: vs, r)

/-- `count` entries, added to those in `result`. -/
def readEntries :
    Nat → List (CBORKey × CBOR) → Reader → Except Thrown (List (CBORKey × CBOR) × Reader)
  | 0, result, r => .ok (result, r)
  | count + 1, result, r => do
      let (k, r) ← read r
      let key ← keyOf k
      if (result.lookup key).isSome then .error (.status 0x12)
      else
        let (v, r) ← read r
        readEntries count (result ++ [(key, v)]) r

/-- The item with the major type `major` and the argument `n`, after its head. -/
def readContents (major : UInt8) (n : Nat) (r : Reader) : Except Thrown (CBOR × Reader) :=
  if n > Int64.maxValue.toInt.toNat then .error (.status 0x12)
  else if major = 0 then .ok (.int (Int64.ofInt n), r)
  else if major = 1 then .ok (.int (Int64.ofInt (-1 - n)), r)
  else if n > 7609 then .error (.status 0x12)
  else if major = 2 then do
    let (d, r) ← take n r
    return (.bytes d, r)
  else if major = 3 then do
    let (d, r) ← take n r
    match utf8String d with
    | some text => return (.text text, r)
    | none => .error (.status 0x12)
  else if major = 4 then do
    let (a, r) ← readItems read n r
    return (.array a, r)
  else do
    let (m, r) ← readEntries read n [] r
    return (.map m, r)

end

/-- `read(depth)`, by the levels that remain below the limit of 10. -/
def read : Nat → Reader → Except Thrown (CBOR × Reader)
  | 0, _ => .error (.status 0x12)
  | _ + 1, ⟨[], _⟩ => .error (.status 0x12)
  | levels + 1, ⟨first :: rest, nodes⟩ =>
      if nodes + 1 > 1024 then .error (.status 0x12)
      else if first = 0xf4 then .ok (.bool false, ⟨rest, nodes + 1⟩)
      else if first = 0xf5 then .ok (.bool true, ⟨rest, nodes + 1⟩)
      else if first >>> 5 > 5 ∨ first &&& 31 > 27 then .error (.status 0x12)
      else do
        let (n, r) ← readArgument (first &&& 31) ⟨rest, nodes + 1⟩
        readContents (read levels) (first >>> 5) n r

/-- `CBOR.decode`. -/
def CBOR.decode (d : Data) : Except Thrown CBOR :=
  if d.length > 7609 then .error (.status 0x15)
  else do
    let (v, r) ← read 10 ⟨d, 0⟩
    if r.rest = [] then .ok v else .error (.status 0x12)

/-! ### Decoded dictionaries have distinct keys -/

mutual

/-- In every dictionary of the value, the keys are distinct. -/
def CBOR.Distinct : CBOR → Prop
  | .array a => DistinctItems a
  | .map m => DistinctKeys m ∧ DistinctValues m
  | _ => True

def DistinctItems : List CBOR → Prop
  | [] => True
  | v :: vs => v.Distinct ∧ DistinctItems vs

def DistinctValues : List (CBORKey × CBOR) → Prop
  | [] => True
  | (_, v) :: m => v.Distinct ∧ DistinctValues m

end

theorem distinctValues_append {m m' : List (CBORKey × CBOR)} :
    DistinctValues (m ++ m') ↔ DistinctValues m ∧ DistinctValues m' := by
  induction m with
  | nil => simp [DistinctValues]
  | cons e m ih => simp only [List.cons_append, DistinctValues, ih, and_assoc]

/-- Each value of a dictionary has distinct keys. -/
theorem DistinctValues.mem {m : List (CBORKey × CBOR)} (h : DistinctValues m)
    {k : CBORKey} {v : CBOR} (hv : (k, v) ∈ m) : v.Distinct := by
  induction m with
  | nil => cases hv
  | cons e m ih =>
      rcases List.mem_cons.mp hv with rfl | hv
      · exact h.1
      · exact ih h.2 hv

section
variable {rd : Reader → Except Thrown (CBOR × Reader)}
  (hrd : ∀ r v r', rd r = .ok (v, r') → v.Distinct)
include hrd

/-- What is read as an array has distinct keys. -/
theorem readItems_distinct {count : Nat} {r r' : Reader} {vs : List CBOR}
    (h : readItems rd count r = .ok (vs, r')) : DistinctItems vs := by
  induction count generalizing r vs with
  | zero =>
      cases h
      trivial
  | succ count ih =>
      obtain ⟨⟨v, r₁⟩, hv, h⟩ := except_bind_eq_ok.mp h
      obtain ⟨⟨vs', r₂⟩, hvs, h⟩ := except_bind_eq_ok.mp h
      cases h
      exact ⟨hrd _ _ _ hv, ih hvs⟩

/-- What is read as a dictionary has distinct keys, its own among them. -/
theorem readEntries_distinct {count : Nat} {result m : List (CBORKey × CBOR)} {r r' : Reader}
    (h : readEntries rd count result r = .ok (m, r')) (hk : DistinctKeys result)
    (hv : DistinctValues result) : DistinctKeys m ∧ DistinctValues m := by
  induction count generalizing r result with
  | zero =>
      cases h
      exact ⟨hk, hv⟩
  | succ count ih =>
      obtain ⟨⟨k, r₁⟩, -, h⟩ := except_bind_eq_ok.mp h
      obtain ⟨key, -, h⟩ := except_bind_eq_ok.mp h
      split at h
      · cases h
      · rename_i hnew
        obtain ⟨⟨v, r₂⟩, hvr, h⟩ := except_bind_eq_ok.mp h
        refine ih h ?_ ?_
        · have hne : ∀ v, (key, v) ∉ result := by
            simpa [List.lookup_eq_none_iff] using hnew
          simp only [DistinctKeys, List.map_append, List.map_cons, List.map_nil]
          refine List.nodup_append.mpr ⟨hk, List.nodup_singleton _, fun a ha b hb => ?_⟩
          obtain ⟨e, he, rfl⟩ := List.mem_map.mp ha
          obtain rfl := List.mem_singleton.mp hb
          rintro rfl
          exact hne e.2 he
        · exact distinctValues_append.mpr ⟨hv, hrd _ _ _ hvr, trivial⟩

theorem readContents_distinct {major : UInt8} {n : Nat} {r r' : Reader} {v : CBOR}
    (h : readContents rd major n r = .ok (v, r')) : v.Distinct := by
  simp only [readContents] at h
  split at h
  · cases h
  split at h
  · cases h
    trivial
  split at h
  · cases h
    trivial
  split at h
  · cases h
  split at h
  · obtain ⟨⟨d, r₁⟩, -, h⟩ := except_bind_eq_ok.mp h
    cases h
    trivial
  split at h
  · obtain ⟨⟨d, r₁⟩, -, h⟩ := except_bind_eq_ok.mp h
    dsimp only at h
    split at h
    · cases h
      trivial
    · cases h
  split at h
  · obtain ⟨⟨a, r₁⟩, ha, h⟩ := except_bind_eq_ok.mp h
    cases h
    exact readItems_distinct hrd ha
  · obtain ⟨⟨m, r₁⟩, hm, h⟩ := except_bind_eq_ok.mp h
    cases h
    exact readEntries_distinct hrd hm List.nodup_nil trivial

end

/-- Whatever is read has distinct keys. -/
theorem read_distinct {levels : Nat} {r r' : Reader} {v : CBOR} (h : read levels r = .ok (v, r')) :
    v.Distinct := by
  induction levels generalizing r r' v with
  | zero => cases h
  | succ levels ih =>
      obtain ⟨rest, nodes⟩ := r
      cases rest with
      | nil => cases h
      | cons first rest =>
          simp only [read] at h
          split at h
          · cases h
          split at h
          · cases h
            trivial
          split at h
          · cases h
            trivial
          split at h
          · cases h
          obtain ⟨⟨n, r₁⟩, -, h⟩ := except_bind_eq_ok.mp h
          exact readContents_distinct (fun _ _ _ => ih) h

/-- **Decoded dictionaries have distinct keys**, at every level. -/
theorem decode_distinct {d : Data} {v : CBOR} (h : CBOR.decode d = .ok v) : v.Distinct := by
  rw [CBOR.decode] at h
  split at h
  · cases h
  · obtain ⟨⟨v', r⟩, hr, h⟩ := except_bind_eq_ok.mp h
    dsimp only at h
    split at h
    · cases h
      exact read_distinct hr
    · cases h

-- `{1: "ab", "id": h'07', 3: [true, -1]}`, and the same entries in another order
example :
    (CBOR.map [(.int 3, .array [.bool true, .int (-1)]), (.text "id", .bytes [7]),
      (.int 1, .text "ab")]).encoded =
      [0xa3, 1, 0x62, 0x61, 0x62, 3, 0x82, 0xf5, 0x20, 0x62, 0x69, 0x64, 0x41, 7] := by
  decide +kernel

end Ashacky.Fido
