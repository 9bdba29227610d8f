import Ashacky.Fido.Canonical

/-!
# Fido — CBOR without traps

`host/auth/CBOR.swift` once more, with what can stop the process written out: `decode` at the level
of its offset into the array, where an index or a range outside the array traps, and the arithmetic
of `encoded`, where an overflow does.

* `decodeAt_eq`: `decode` never reads outside the array; it returns or throws as `CBOR.decode` does.
* `encodedIntChecked_eq`: no operation of `encoded` overflows on an integer.
* `decode_grammar`: what `decode` accepts, and when encoding gives the bytes back.
* `encoded_round_trip`: what `encoded` writes, and that `decode` reads it back.
-/

namespace Ashacky.Fido
open Ashacky.Support

/-! ### The offset of `decode` -/

/-- How an expression can end early: it throws, or the process traps. -/
inductive Fault where
  | thrown (t : Thrown)
  | trap

/-- `offset` and `nodes`. -/
structure Cursor where
  offset : Nat
  nodes : Nat

section

variable (bytes : Data)

/-- `bytes[i]`. -/
def byteAt (i : Nat) : Except Fault UInt8 :=
  match bytes[i]? with
  | some b => .ok b
  | none => .error .trap

/-- `bytes[i..<j]`. -/
def rangeAt (i j : Nat) : Except Fault Data :=
  if i ≤ j ∧ j ≤ bytes.length then .ok ((bytes.drop i).take (j - i)) else .error .trap

/-- `take(count)`. -/
def takeAt (count : Nat) (c : Cursor) : Except Fault (Data × Cursor) :=
  if (count : Int) ≤ bytes.length - c.offset then do
    let d ← rangeAt bytes c.offset (c.offset + count)
    return (d, { c with offset := c.offset + count })
  else .error (.thrown (.status 0x12))

/-- The argument of a head whose first byte has the low bits `ai`. -/
def readArgumentAt (ai : UInt8) (c : Cursor) : Except Fault (Nat × Cursor) :=
  if ai < 24 then .ok (ai.toNat, c)
  else do
    let count := 1 <<< (ai - 24).toNat
    let (raw, c) ← takeAt bytes count c
    let minimum := if count = 1 then 24 else if count = 2 then 256 else
      if count = 4 then 65536 else 4294967296
    if beNat raw ≥ minimum then .ok (beNat raw, c) else .error (.thrown (.status 0x12))

section
variable (read : Cursor → Except Fault (CBOR × Cursor))

/-- `count` items, one after the other. -/
def readItemsAt : Nat → Cursor → Except Fault (List CBOR × Cursor)
  | 0, c => .ok ([], c)
  | count + 1, c => do
      let (v, c) ← read c
      let (vs, c) ← readItemsAt count c
      return (v :: vs, c)

/-- `count` entries, added to those in `result`. -/
def readEntriesAt :
    Nat → List (CBORKey × CBOR) → Cursor → Except Fault (List (CBORKey × CBOR) × Cursor)
  | 0, result, c => .ok (result, c)
  | count + 1, result, c => do
      let (k, c) ← read c
      match keyOf k with
      | .error t => .error (.thrown t)
      | .ok key =>
          if (result.lookup key).isSome then .error (.thrown (.status 0x12))
          else
            let (v, c) ← read c
            readEntriesAt count (result ++ [(key, v)]) c

/-- The item with the major type `major` and the argument `n`, after its head. -/
def readContentsAt (major : UInt8) (n : Nat) (c : Cursor) : Except Fault (CBOR × Cursor) :=
  if n > Int64.maxValue.toInt.toNat then .error (.thrown (.status 0x12))
  else if major = 0 then .ok (.int (Int64.ofInt n), c)
  else if major = 1 then .ok (.int (Int64.ofInt (-1 - n)), c)
  else if n > 7609 then .error (.thrown (.status 0x12))
  else if major = 2 then do
    let (d, c) ← takeAt bytes n c
    return (.bytes d, c)
  else if major = 3 then do
    let (d, c) ← takeAt bytes n c
    match utf8String d with
    | some text => return (.text text, c)
    | none => .error (.thrown (.status 0x12))
  else if major = 4 then do
    let (a, c) ← readItemsAt read n c
    return (.array a, c)
  else do
    let (m, c) ← readEntriesAt read n [] c
    return (.map m, c)

end

/-- `read(depth)`, by the levels that remain below the limit of 10. -/
def readAt : Nat → Cursor → Except Fault (CBOR × Cursor)
  | 0, _ => .error (.thrown (.status 0x12))
  | levels + 1, c =>
      if c.nodes + 1 > 1024 ∨ c.offset ≥ bytes.length then .error (.thrown (.status 0x12))
      else do
        let first ← byteAt bytes c.offset
        let c : Cursor := ⟨c.offset + 1, c.nodes + 1⟩
        if first = 0xf4 then .ok (.bool false, c)
        else if first = 0xf5 then .ok (.bool true, c)
        else if first >>> 5 > 5 ∨ first &&& 31 > 27 then .error (.thrown (.status 0x12))
        else do
          let (n, c) ← readArgumentAt bytes (first &&& 31) c
          readContentsAt bytes (readAt levels) (first >>> 5) n c

/-- `CBOR.decode`, with its traps. -/
def decodeAt : Except Fault CBOR :=
  if bytes.length > 7609 then .error (.thrown (.status 0x15))
  else do
    let (v, c) ← readAt bytes 10 ⟨0, 0⟩
    if c.offset = bytes.length then .ok v else .error (.thrown (.status 0x12))

end

/-! ### No read outside the array -/

section

variable {bytes : Data} {α β : Type}

/-- The cursor is inside the array, where the reader is. -/
def At (bytes : Data) (c : Cursor) (r : Reader) : Prop :=
  c.offset ≤ bytes.length ∧ r = ⟨bytes.drop c.offset, c.nodes⟩

/-- The two ends are the same, and none is a trap. -/
inductive Alike (bytes : Data) : Except Fault (α × Cursor) → Except Thrown (α × Reader) → Prop where
  | ok {a : α} {c : Cursor} {r : Reader} (h : At bytes c r) : Alike bytes (.ok (a, c)) (.ok (a, r))
  | error (t : Thrown) : Alike bytes (.error (.thrown t)) (.error t)

theorem Alike.bind {x : Except Fault (α × Cursor)} {y : Except Thrown (α × Reader)}
    {f : α × Cursor → Except Fault (β × Cursor)} {g : α × Reader → Except Thrown (β × Reader)}
    (h : Alike bytes x y) (hf : ∀ a c r, At bytes c r → Alike bytes (f (a, c)) (g (a, r))) :
    Alike bytes (x >>= f) (y >>= g) := by
  cases h with
  | ok h => exact hf _ _ _ h
  | error t => exact .error t

theorem Alike.ite {p : Prop} [Decidable p] {x x' : Except Fault (α × Cursor)}
    {y y' : Except Thrown (α × Reader)} (h : Alike bytes x y) (h' : Alike bytes x' y') :
    Alike bytes (if p then x else x') (if p then y else y') := by
  by_cases hp : p
  · rw [if_pos hp, if_pos hp]
    exact h
  · rw [if_neg hp, if_neg hp]
    exact h'

theorem takeAt_alike (count : Nat) {c : Cursor} {r : Reader} (h : At bytes c r) :
    Alike bytes (takeAt bytes count c) (take count r) := by
  obtain ⟨hle, rfl⟩ := h
  rw [takeAt, take, List.length_drop]
  by_cases hc : (count : Int) ≤ bytes.length - c.offset
  · rw [if_pos hc, if_pos (by omega), rangeAt, if_pos (by omega), Nat.add_sub_cancel_left]
    refine .ok ⟨by dsimp only; omega, ?_⟩
    dsimp only
    rw [List.drop_drop]
  · rw [if_neg hc, if_neg (by omega)]
    exact .error _

theorem readArgumentAt_alike (ai : UInt8) {c : Cursor} {r : Reader} (h : At bytes c r) :
    Alike bytes (readArgumentAt bytes ai c) (readArgument ai r) := by
  rw [readArgumentAt, readArgument]
  split
  · exact .ok h
  · exact (takeAt_alike _ h).bind fun raw c r h => .ite (.ok h) (.error _)

section

variable {rd : Cursor → Except Fault (CBOR × Cursor)} {rd' : Reader → Except Thrown (CBOR × Reader)}
  (hrd : ∀ {c r}, At bytes c r → Alike bytes (rd c) (rd' r))
include hrd

theorem readItemsAt_alike (count : Nat) {c : Cursor} {r : Reader} (h : At bytes c r) :
    Alike bytes (readItemsAt rd count c) (readItems rd' count r) := by
  induction count generalizing c r with
  | zero => exact .ok h
  | succ count ih =>
      refine (hrd h).bind fun v c r h => ?_
      exact (ih h).bind fun vs c r h => .ok h

theorem readEntriesAt_alike (count : Nat) (result : List (CBORKey × CBOR)) {c : Cursor} {r : Reader}
    (h : At bytes c r) :
    Alike bytes (readEntriesAt rd count result c) (readEntries rd' count result r) := by
  induction count generalizing c r result with
  | zero => exact .ok h
  | succ count ih =>
      refine (hrd h).bind fun k c r h => ?_
      dsimp only
      cases keyOf k with
      | error t => exact .error t
      | ok key => exact .ite (.error _) ((hrd h).bind fun v c r h => ih _ h)

theorem readContentsAt_alike (major : UInt8) (n : Nat) {c : Cursor} {r : Reader}
    (h : At bytes c r) :
    Alike bytes (readContentsAt bytes rd major n c) (readContents rd' major n r) := by
  rw [readContentsAt, readContents]
  split
  · exact .error _
  split
  · exact .ok h
  split
  · exact .ok h
  split
  · exact .error _
  split
  · exact (takeAt_alike n h).bind fun d c r h => .ok h
  split
  · refine (takeAt_alike n h).bind fun d c r h => ?_
    dsimp only
    cases utf8String d with
    | some text => exact .ok h
    | none => exact .error _
  split
  · exact (readItemsAt_alike hrd n h).bind fun a c r h => .ok h
  · exact (readEntriesAt_alike hrd n [] h).bind fun m c r h => .ok h

end

theorem readAt_alike (levels : Nat) {c : Cursor} {r : Reader} (h : At bytes c r) :
    Alike bytes (readAt bytes levels c) (read levels r) := by
  induction levels generalizing c r with
  | zero => exact .error _
  | succ levels ih =>
      obtain ⟨hle, rfl⟩ := h
      rw [readAt]
      by_cases hoff : c.offset ≥ bytes.length
      · rw [if_pos (.inr hoff), List.drop_eq_nil_of_le hoff, read]
        exact .error _
      have hlt := not_le.mp hoff
      rw [List.drop_eq_getElem_cons hlt, read]
      by_cases hn : c.nodes + 1 > 1024
      · rw [if_pos (.inl hn), if_pos hn]
        exact .error _
      have hfirst : byteAt bytes c.offset = .ok bytes[c.offset] := by
        rw [byteAt, List.getElem?_eq_getElem hlt]
      rw [if_neg (not_or.mpr ⟨hn, hoff⟩), if_neg hn, hfirst]
      have hnext : At bytes ⟨c.offset + 1, c.nodes + 1⟩
          ⟨bytes.drop (c.offset + 1), c.nodes + 1⟩ := ⟨hlt, rfl⟩
      change Alike bytes (if _ then _ else _) _
      split
      · exact .ok hnext
      split
      · exact .ok hnext
      split
      · exact .error _
      exact (readArgumentAt_alike _ hnext).bind fun n c r h => readContentsAt_alike ih _ n h

/-- What a throwing function comes to, among what can trap. -/
def untrapped : Except Thrown α → Except Fault α
  | .ok a => .ok a
  | .error t => .error (.thrown t)

/-- **`decode` reads inside the array.**  With its traps written out it ends as without them. -/
theorem decodeAt_eq (bytes : Data) : decodeAt bytes = untrapped (CBOR.decode bytes) := by
  rw [decodeAt, CBOR.decode]
  split
  · rfl
  have hstart : At bytes ⟨0, 0⟩ ⟨bytes, 0⟩ := ⟨Nat.zero_le _, rfl⟩
  have h := readAt_alike 10 hstart
  generalize readAt bytes 10 ⟨0, 0⟩ = x at h
  generalize read 10 ⟨bytes, 0⟩ = y at h
  cases h with
  | error t => rfl
  | ok h =>
      rename_i v c r
      obtain ⟨hle, rfl⟩ := h
      have hend : bytes.drop c.offset = [] ↔ c.offset = bytes.length := by
        rw [List.drop_eq_nil_iff]
        omega
      change (if c.offset = bytes.length then .ok v else .error (.thrown (.status 0x12))) =
        untrapped (if bytes.drop c.offset = [] then .ok v else .error (.status 0x12))
      by_cases hc : c.offset = bytes.length
      · rw [if_pos hc, if_pos (hend.mpr hc)]
        rfl
      · rw [if_neg hc, if_neg (mt hend.mp hc)]
        rfl

end

/-! ### The arithmetic of `encoded` -/

/-- `a + b`. -/
def addChecked (a b : Int64) : Option Int64 :=
  if Int64.minValue.toInt ≤ a.toInt + b.toInt ∧ a.toInt + b.toInt ≤ Int64.maxValue.toInt then
    some (a + b)
  else none

/-- `-a`. -/
def negChecked (a : Int64) : Option Int64 := if a = Int64.minValue then none else some (-a)

/-- `UInt64(a)`. -/
def uint64Checked (a : Int64) : Option UInt64 := if 0 ≤ a.toInt then some a.toUInt64 else none

/-- `UInt8(n)`. -/
def uint8Checked (n : UInt64) : Option UInt8 := if n ≤ 0xff then some n.toUInt8 else none

/-- `head(major, n)`, with its traps. -/
def headChecked (major : UInt8) (n : UInt64) : Option Data :=
  if n < 24 then (uint8Checked n).map fun b => [major <<< 5 ||| b]
  else
    let size := if n ≤ 0xff then 1 else if n ≤ 0xffff then 2 else if n ≤ 0xffffffff then 4 else 8
    let ai : UInt8 := if size = 1 then 24 else if size = 2 then 25 else if size = 4 then 26 else 27
    some ((major <<< 5 ||| ai) ::
      (List.range size).reverse.map fun i => (n >>> UInt64.ofNat (i * 8)).toUInt8)

/-- `encoded` at `.int(n)`, with its traps. -/
def encodedIntChecked (n : Int64) : Option Data :=
  if 0 ≤ n.toInt then (uint64Checked n).bind (headChecked 0)
  else do
    let m ← addChecked n 1
    let m ← negChecked m
    let u ← uint64Checked m
    headChecked 1 u

theorem beBytes_eq_map (k n : Nat) :
    beBytes k n = (List.range k).reverse.map fun i => UInt8.ofNat (n / 256 ^ i) := by
  induction k generalizing n with
  | zero => rfl
  | succ k ih =>
      rw [beBytes, ih, List.range_succ_eq_map, List.reverse_cons, List.map_append, ← List.map_reverse,
        List.map_map, List.map_singleton, pow_zero, Nat.div_one]
      congr 1
      refine List.map_congr_left fun i _ => ?_
      rw [Function.comp_apply, Nat.succ_eq_add_one, pow_succ', Nat.div_div_eq_div_mul]

/-- The bytes of an argument, shifted out one by one. -/
theorem shifted_bytes {size : Nat} (h : size ≤ 8) (n : UInt64) :
    ((List.range size).reverse.map fun i => (n >>> UInt64.ofNat (i * 8)).toUInt8) =
      beBytes size n.toNat := by
  rw [beBytes_eq_map]
  refine List.map_congr_left fun i hi => ?_
  have hi : i < size := by simpa using hi
  have hshift : (UInt64.ofNat (i * 8)).toNat % 64 = 8 * i := by
    rw [UInt64.toNat_ofNat']
    omega
  apply UInt8.toNat_inj.mp
  rw [UInt64.toNat_toUInt8, UInt64.toNat_shiftRight, hshift, Nat.shiftRight_eq_div_pow, pow_mul,
    UInt8.toNat_ofNat']
  rfl

theorem headChecked_eq (major : UInt8) (n : UInt64) :
    headChecked major n = some (head major n.toNat) := by
  rw [headChecked, head]
  simp only [UInt64.lt_iff_toNat_lt, UInt64.le_iff_toNat_le]
  change (if n.toNat < 24 then _ else _) = _
  by_cases h : n.toNat < 24
  · have hle : n ≤ 0xff := UInt64.le_iff_toNat_le.mpr (h.le.trans (by decide))
    rw [if_pos h, if_pos h, uint8Checked, if_pos hle, Option.map_some]
    rfl
  · have hsize : (if n.toNat ≤ 0xff then 1 else if n.toNat ≤ 0xffff then 2 else
        if n.toNat ≤ 0xffffffff then 4 else 8) ≤ 8 := by
      split
      · decide
      split
      · decide
      split
      · decide
      · decide
    rw [if_neg h, if_neg h]
    exact congrArg (fun t => some (_ :: t)) (shifted_bytes hsize n)

/-- A number that is not negative, converted and written. -/
theorem uint64Checked_bind {m : Int64} (h : 0 ≤ m.toInt) (major : UInt8) :
    (uint64Checked m).bind (headChecked major) = some (head major m.toInt.toNat) := by
  have hm : m.toUInt64.toNat = m.toInt.toNat :=
    Int64.toNat_toUInt64_of_le (Int64.le_iff_toInt_le.mpr h)
  rw [uint64Checked, if_pos h, Option.bind_some, headChecked_eq, hm]

/-- **No operation overflows on an integer.** -/
theorem encodedIntChecked_eq (n : Int64) : encodedIntChecked n = some (encodedInt n) := by
  have hlt := n.toInt_lt
  have hge := n.le_toInt
  rw [encodedIntChecked, encodedInt]
  by_cases h : 0 ≤ n.toInt
  · rw [if_pos h, if_pos h, uint64Checked_bind h]
  · have hmin : Int64.minValue.toInt = -2 ^ 63 := by decide
    have hmax : Int64.maxValue.toInt = 2 ^ 63 - 1 := by decide
    have hone : (1 : Int64).toInt = 1 := by decide
    have hadd : (n + 1).toInt = n.toInt + 1 := by
      rw [Int64.toInt_add, hone]
      exact Int.bmod_eq_of_le (by omega) (by omega)
    have hneg : (-(n + 1)).toInt = -(n.toInt + 1) := by
      rw [Int64.toInt_neg, hadd]
      exact Int.bmod_eq_of_le (by omega) (by omega)
    have hne : n + 1 ≠ Int64.minValue := by
      intro he
      rw [he, hmin] at hadd
      omega
    rw [if_neg h, if_neg h, addChecked, if_pos (by omega), Option.bind_eq_bind, Option.bind_some,
      negChecked, if_neg hne, Option.bind_eq_bind, Option.bind_some,
      uint64Checked_bind (by omega), hneg]

/-! ### Results -/

/-- **`CBOR.decode` accepts exactly its grammar.**  It ends without reading outside the bytes, and
succeeds on one item of at most 7609 bytes, nested less than 10 levels deep, with at most 1024 items,
with the value of that item.  Encoding that value, in whatever order Swift keeps its dictionaries,
gives the bytes back if and only if the keys of every dictionary strictly increase. -/
theorem decode_grammar (b : Data) :
    decodeAt b = untrapped (CBOR.decode b) ∧
      (∀ v, CBOR.decode b = .ok v ↔
        b.length ≤ 7609 ∧ Item b v ∧ v.depth < 10 ∧ v.nodes ≤ 1024) ∧
      ∀ v w, CBOR.decode b = .ok v → v.Same w → w.Distinct → (w.encoded = b ↔ v.Canonical) := by
  refine ⟨decodeAt_eq b, fun v => decode_eq_ok_iff, fun v w h hs hw => ?_⟩
  rw [← encoded_eq_of_same hs (decode_distinct h) hw]
  exact encoded_decode_iff h

/-- A dictionary whose keys 2 and 1 are not in order. -/
theorem decode_grammar_unsorted :
    CBOR.decode [0xa2, 2, 0xf5, 1, 0xf4] =
        .ok (.map [(.int 2, .bool true), (.int 1, .bool false)]) ∧
      (CBOR.map [(.int 2, .bool true), (.int 1, .bool false)]).encoded ≠
        [0xa2, 2, 0xf5, 1, 0xf4] := by
  have hd : CBOR.decode [0xa2, 2, 0xf5, 1, 0xf4] =
      .ok (.map [(.int 2, .bool true), (.int 1, .bool false)]) := by rfl
  refine ⟨hd, fun he => ?_⟩
  have hsame : (CBOR.map [(.int 2, .bool true), (.int 1, .bool false)]).Same
      (.map [(.int 2, .bool true), (.int 1, .bool false)]) :=
    ⟨rfl, ⟨_, rfl, rfl⟩, ⟨_, rfl, rfl⟩, trivial⟩
  have hc := ((decode_grammar _).2.2 _ _ hd hsame (decode_distinct hd)).mp he
  have hlt : KeyLt (CBORKey.int 2).encoded (CBORKey.int 1).encoded :=
    List.rel_of_pairwise_cons hc.1 List.mem_cons_self
  exact absurd hlt (by rw [KeyLt]; decide)

/-- **The round trip of `encoded`.**  It does not depend on the order of dictionaries; it writes every
dictionary with strictly increasing keys; it never overflows on an integer; and `decode` reads a value
within its limits back. -/
theorem encoded_round_trip (v : CBOR) (hd : v.Distinct) :
    (v.depth < 10 → v.nodes ≤ 1024 → v.encoded.length ≤ 7609 →
        ∃ v', CBOR.decode v.encoded = .ok v' ∧ v.Same v') ∧
      (∀ w, v.Same w → w.Distinct → w.encoded = v.encoded) ∧
      (∃ v', v.Same v' ∧ v'.Canonical ∧ v.encoded = v'.written) ∧
      ∀ n : Int64, encodedIntChecked n = some (CBOR.int n).encoded :=
  ⟨fun hdepth hnodes hlen => ⟨v.sorted, decode_encoded hd hdepth hnodes hlen, same_sorted hd⟩,
    fun _ hs hw => (encoded_eq_of_same hs hd hw).symm,
    ⟨v.sorted, same_sorted hd, canonical_sorted hd, (written_sorted v).symm⟩, encodedIntChecked_eq⟩

/-- A dictionary with the least integer. -/
theorem encoded_round_trip_min :
    ∃ v', CBOR.decode (CBOR.map [(.text "a", .int Int64.minValue), (.int 1, .array [])]).encoded =
        .ok v' ∧ (CBOR.map [(.text "a", .int Int64.minValue), (.int 1, .array [])]).Same v' := by
  have hd : (CBOR.map [(.text "a", .int Int64.minValue), (.int 1, .array [])]).Distinct :=
    ⟨by simp [DistinctKeys], trivial, trivial, trivial⟩
  exact (encoded_round_trip _ hd).1 (by decide) (by decide) (by decide +kernel)

end Ashacky.Fido
