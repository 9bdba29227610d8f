import Ashacky.Fido.Cbor

/-!
# Fido — the grammar of CBOR

What `CBOR.decode` accepts, said without a reader: an item is a head in its shortest form and what
the head announces.

* `Head`, `Item`: the grammar.  An item of a dictionary has distinct keys; the entries of the value
  are in the order of the bytes.
* `CBOR.depth`, `CBOR.nodes`: how deep the items of a value are nested, and how many there are, keys
  included.
* `read_sound`, `read_complete`: the reader takes an item off the front of its bytes, and reads every
  item that stays below its limits.
* `decode_eq_ok_iff`: `decode` accepts the items of at most 7609 bytes, nested less than 10 levels
  deep, with at most 1024 items.
-/

namespace Ashacky.Fido
open Ashacky.Support

/-! ### The grammar -/

/-- The head of an item: major type and argument, in the shortest of its five forms. -/
inductive Head (major : UInt8) : Nat → Data → Prop where
  | direct {n : Nat} (h : n < 24) : Head major n [major <<< 5 ||| UInt8.ofNat n]
  | one {n : Nat} (h : 24 ≤ n) (h' : n < 2 ^ 8) : Head major n ((major <<< 5 ||| 24) :: beBytes 1 n)
  | two {n : Nat} (h : 2 ^ 8 ≤ n) (h' : n < 2 ^ 16) :
      Head major n ((major <<< 5 ||| 25) :: beBytes 2 n)
  | four {n : Nat} (h : 2 ^ 16 ≤ n) (h' : n < 2 ^ 32) :
      Head major n ((major <<< 5 ||| 26) :: beBytes 4 n)
  | eight {n : Nat} (h : 2 ^ 32 ≤ n) (h' : n < 2 ^ 64) :
      Head major n ((major <<< 5 ||| 27) :: beBytes 8 n)

mutual

/-- The bytes are one item, with the given value. -/
inductive Item : Data → CBOR → Prop where
  | unsigned {n : Int64} {b : Data} (hn : 0 ≤ n.toInt) (hb : Head 0 n.toInt.toNat b) :
      Item b (.int n)
  | negative {n : Int64} {b : Data} (hn : n.toInt < 0) (hb : Head 1 (-1 - n.toInt).toNat b) :
      Item b (.int n)
  | bytes {b d : Data} (hb : Head 2 d.length b) : Item (b ++ d) (.bytes d)
  | text {b : Data} {s : String} (hb : Head 3 (utf8 s).length b) : Item (b ++ utf8 s) (.text s)
  | false : Item [0xf4] (.bool false)
  | true : Item [0xf5] (.bool true)
  | array {b c : Data} {a : List CBOR} (hb : Head 4 a.length b) (ha : Items c a) :
      Item (b ++ c) (.array a)
  | map {b c : Data} {m : List (CBORKey × CBOR)} (hb : Head 5 m.length b) (hm : Entries c m)
      (hd : DistinctKeys m) : Item (b ++ c) (.map m)

/-- The bytes are items, one after the other. -/
inductive Items : Data → List CBOR → Prop where
  | nil : Items [] []
  | cons {b c : Data} {v : CBOR} {a : List CBOR} (hv : Item b v) (ha : Items c a) :
      Items (b ++ c) (v :: a)

/-- The bytes are keys, each followed by its value. -/
inductive Entries : Data → List (CBORKey × CBOR) → Prop where
  | nil : Entries [] []
  | cons {b c d : Data} {k : CBORKey} {v : CBOR} {m : List (CBORKey × CBOR)}
      (hk : Item b k.value) (hv : Item c v) (hm : Entries d m) :
      Entries (b ++ (c ++ d)) ((k, v) :: m)

end

mutual

/-- The depth of the innermost item, the value itself at 0. -/
def CBOR.depth : CBOR → Nat
  | .array a => depthItems a
  | .map m => depthEntries m
  | _ => 0

def depthItems : List CBOR → Nat
  | [] => 0
  | v :: a => max (v.depth + 1) (depthItems a)

def depthEntries : List (CBORKey × CBOR) → Nat
  | [] => 0
  | (_, v) :: m => max (v.depth + 1) (depthEntries m)

end

mutual

/-- The number of items, with the keys of dictionaries. -/
def CBOR.nodes : CBOR → Nat
  | .array a => 1 + nodesItems a
  | .map m => 1 + nodesEntries m
  | _ => 1

def nodesItems : List CBOR → Nat
  | [] => 0
  | v :: a => v.nodes + nodesItems a

def nodesEntries : List (CBORKey × CBOR) → Nat
  | [] => 0
  | (_, v) :: m => 1 + v.nodes + nodesEntries m

end

@[simp] theorem CBORKey.depth_value (k : CBORKey) : k.value.depth = 0 := by
  cases k with
  | int => rfl
  | text => rfl

@[simp] theorem CBORKey.nodes_value (k : CBORKey) : k.value.nodes = 1 := by
  cases k with
  | int => rfl
  | text => rfl

/-! ### Heads -/

/-- The initial byte of a head has the major type in its upper three bits. -/
theorem initial_parts {major ai : UInt8} (hm : major ≤ 5) (ha : ai ≤ 27) :
    (major <<< 5 ||| ai) >>> 5 = major ∧ (major <<< 5 ||| ai) &&& 31 = ai := by
  have h : ∀ m < 6, ∀ a < 28, (UInt8.ofNat m <<< 5 ||| UInt8.ofNat a) >>> 5 = UInt8.ofNat m ∧
      (UInt8.ofNat m <<< 5 ||| UInt8.ofNat a) &&& 31 = UInt8.ofNat a := by
    decide +kernel
  have := h major.toNat (Nat.lt_succ_of_le hm) ai.toNat (Nat.lt_succ_of_le ha)
  rwa [UInt8.ofNat_toNat, UInt8.ofNat_toNat] at this

theorem initial_eq (first : UInt8) : (first >>> 5) <<< 5 ||| (first &&& 31) = first := by
  have h : ∀ n < 256, (UInt8.ofNat n >>> 5) <<< 5 ||| (UInt8.ofNat n &&& 31) = UInt8.ofNat n := by
    decide +kernel
  have := h first.toNat first.toNat_lt
  rwa [UInt8.ofNat_toNat] at this

/-- The initial bytes with a major type up to 5 are not `false` or `true`. -/
theorem initial_ne_bool {major ai : UInt8} (hm : major ≤ 5) (ha : ai ≤ 27) :
    major <<< 5 ||| ai ≠ 0xf4 ∧ major <<< 5 ||| ai ≠ 0xf5 := by
  have h := (initial_parts hm ha).1
  refine ⟨fun he => ?_, fun he => ?_⟩
  · rw [he] at h
    subst h
    exact absurd hm (by decide)
  · rw [he] at h
    subst h
    exact absurd hm (by decide)

/-- The shortest form is the one that `encoded` writes. -/
theorem head_iff {major : UInt8} {n : Nat} {b : Data} (hn : n < 2 ^ 64) :
    Head major n b ↔ b = head major n := by
  constructor
  · intro h
    cases h with
    | direct h => rw [head, if_pos h]
    | one h h' =>
        rw [head, if_neg (by omega)]
        simp only [if_pos (show n ≤ 0xff by omega)]
        rfl
    | two h h' =>
        rw [head, if_neg (by omega)]
        simp only [if_neg (show ¬ n ≤ 0xff by omega), if_pos (show n ≤ 0xffff by omega)]
        rfl
    | four h h' =>
        rw [head, if_neg (by omega)]
        simp only [if_neg (show ¬ n ≤ 0xff by omega), if_neg (show ¬ n ≤ 0xffff by omega),
          if_pos (show n ≤ 0xffffffff by omega)]
        rfl
    | eight h h' =>
        rw [head, if_neg (by omega)]
        simp only [if_neg (show ¬ n ≤ 0xff by omega), if_neg (show ¬ n ≤ 0xffff by omega),
          if_neg (show ¬ n ≤ 0xffffffff by omega)]
        rfl
  · rintro rfl
    rw [head]
    by_cases h0 : n < 24
    · rw [if_pos h0]
      exact .direct h0
    rw [if_neg h0]
    by_cases h1 : n ≤ 0xff
    · simp only [if_pos h1]
      exact .one (by omega) (by omega)
    simp only [if_neg h1]
    by_cases h2 : n ≤ 0xffff
    · simp only [if_pos h2]
      exact .two (by omega) (by omega)
    simp only [if_neg h2]
    by_cases h4 : n ≤ 0xffffffff
    · simp only [if_pos h4]
      exact .four (by omega) (by omega)
    simp only [if_neg h4]
    exact .eight (by omega) hn

theorem take_eq_ok_iff {count : Nat} {r r' : Reader} {d : Data} :
    take count r = .ok (d, r') ↔ d.length = count ∧ r = ⟨d ++ r'.rest, r'.nodes⟩ := by
  obtain ⟨rest, nodes⟩ := r
  constructor
  · intro h
    rw [take] at h
    split at h
    · rename_i hc
      cases h
      exact ⟨List.length_take_of_le hc, by rw [List.take_append_drop]⟩
    · cases h
  · rintro ⟨rfl, hr⟩
    obtain ⟨rfl, rfl⟩ := Reader.mk.inj hr
    rw [take, if_pos (by simp), List.take_left, List.drop_left]

/-- The heads with a given initial byte. -/
theorem head_cons_iff {major ai : UInt8} (hm : major ≤ 5) (ha : ai ≤ 27) {n : Nat} {t : Data} :
    Head major n ((major <<< 5 ||| ai) :: t) ↔
      (ai < 24 ∧ n = ai.toNat ∧ t = []) ∨ (ai = 24 ∧ t = beBytes 1 n ∧ 24 ≤ n ∧ n < 2 ^ 8) ∨
      (ai = 25 ∧ t = beBytes 2 n ∧ 2 ^ 8 ≤ n ∧ n < 2 ^ 16) ∨
      (ai = 26 ∧ t = beBytes 4 n ∧ 2 ^ 16 ≤ n ∧ n < 2 ^ 32) ∨
      (ai = 27 ∧ t = beBytes 8 n ∧ 2 ^ 32 ≤ n ∧ n < 2 ^ 64) := by
  have hlow : ∀ {x : UInt8}, x ≤ 27 → major <<< 5 ||| ai = major <<< 5 ||| x → ai = x := by
    intro x hx he
    rw [← (initial_parts hm ha).2, he, (initial_parts hm hx).2]
  constructor
  · intro h
    generalize hb : (major <<< 5 ||| ai) :: t = b at h
    cases h with
    | direct h =>
        obtain ⟨he, rfl⟩ := List.cons.inj hb
        have hn : (UInt8.ofNat n).toNat = n := UInt8.toNat_ofNat_of_lt' (h.trans (by decide))
        have hai : ai = UInt8.ofNat n := by
          refine hlow ?_ he
          rw [UInt8.le_iff_toNat_le, hn]
          exact h.le.trans (by decide)
        rw [hai, UInt8.lt_iff_toNat_lt, hn]
        exact .inl ⟨h, rfl, rfl⟩
    | one h h' =>
        obtain ⟨he, rfl⟩ := List.cons.inj hb
        exact .inr (.inl ⟨hlow (by decide) he, rfl, h, h'⟩)
    | two h h' =>
        obtain ⟨he, rfl⟩ := List.cons.inj hb
        exact .inr (.inr (.inl ⟨hlow (by decide) he, rfl, h, h'⟩))
    | four h h' =>
        obtain ⟨he, rfl⟩ := List.cons.inj hb
        exact .inr (.inr (.inr (.inl ⟨hlow (by decide) he, rfl, h, h'⟩)))
    | eight h h' =>
        obtain ⟨he, rfl⟩ := List.cons.inj hb
        exact .inr (.inr (.inr (.inr ⟨hlow (by decide) he, rfl, h, h'⟩)))
  · rintro (⟨h, rfl, rfl⟩ | ⟨rfl, rfl, h, h'⟩ | ⟨rfl, rfl, h, h'⟩ | ⟨rfl, rfl, h, h'⟩ |
      ⟨rfl, rfl, h, h'⟩)
    · have hd : Head major ai.toNat [major <<< 5 ||| UInt8.ofNat ai.toNat] := .direct h
      rwa [UInt8.ofNat_toNat] at hd
    · exact .one h h'
    · exact .two h h'
    · exact .four h h'
    · exact .eight h h'

theorem Head.exists_cons {major : UInt8} {n : Nat} {b : Data} (h : Head major n b) :
    ∃ ai t, ai ≤ 27 ∧ b = (major <<< 5 ||| ai) :: t := by
  cases h with
  | direct h =>
      refine ⟨UInt8.ofNat n, [], ?_, rfl⟩
      rw [UInt8.le_iff_toNat_le, UInt8.toNat_ofNat_of_lt' (h.trans (by decide))]
      exact h.le.trans (by decide)
  | one | two | four | eight => exact ⟨_, _, by decide, rfl⟩

/-- The argument that follows an initial byte, given how many bytes it takes and its least value. -/
theorem readArgument_long {ai : UInt8} (hai : ¬ ai < 24) (count minimum : Nat)
    (hcount : 1 <<< (ai - 24).toNat = count)
    (hmin : (if count = 1 then 24 else if count = 2 then 256 else
      if count = 4 then 65536 else 4294967296) = minimum) {r r' : Reader} {n : Nat} :
    readArgument ai r = .ok (n, r') ↔
      r = ⟨beBytes count n ++ r'.rest, r'.nodes⟩ ∧ minimum ≤ n ∧ n < 256 ^ count := by
  rw [readArgument, if_neg hai]
  simp only [hcount, hmin]
  constructor
  · intro h
    obtain ⟨⟨raw, r₁⟩, htake, h⟩ := except_bind_eq_ok.mp h
    obtain ⟨hlen, hr⟩ := take_eq_ok_iff.mp htake
    dsimp only at h
    split at h
    · rename_i hn
      cases h
      rw [← hlen, beBytes_beNat]
      exact ⟨hr, hn, beNat_lt raw⟩
    · cases h
  · rintro ⟨rfl, hle, hlt⟩
    refine except_bind_eq_ok.mpr ⟨(beBytes count n, r'), take_eq_ok_iff.mpr ⟨by simp, rfl⟩, ?_⟩
    dsimp only
    rw [beNat_beBytes hlt, if_pos hle]

/-- **The argument of a head**: what `readArgument` takes off the bytes is the rest of a head in its
shortest form. -/
theorem readArgument_eq_ok_iff {major ai : UInt8} (hm : major ≤ 5) (ha : ai ≤ 27) {r r' : Reader}
    {n : Nat} : readArgument ai r = .ok (n, r') ↔
      ∃ t, r = ⟨t ++ r'.rest, r'.nodes⟩ ∧ Head major n ((major <<< 5 ||| ai) :: t) := by
  simp only [head_cons_iff hm ha]
  by_cases h0 : ai < 24
  · have hne : ai ≠ 24 ∧ ai ≠ 25 ∧ ai ≠ 26 ∧ ai ≠ 27 := by
      refine ⟨?_, ?_, ?_, ?_⟩ <;> rintro rfl <;> exact absurd h0 (by decide)
    rw [readArgument, if_pos h0]
    simp only [h0, hne, true_and, false_and, or_false]
    constructor
    · intro h
      cases h
      exact ⟨[], rfl, rfl, rfl⟩
    · rintro ⟨t, rfl, rfl, rfl⟩
      rfl
  · have h1 : 24 ≤ ai.toNat := Nat.le_of_not_lt h0
    have h2 : ai.toNat ≤ 27 := ha
    have hcases : ai = 24 ∨ ai = 25 ∨ ai = 26 ∨ ai = 27 := by
      simp only [← UInt8.toNat_inj]
      change ai.toNat = 24 ∨ ai.toNat = 25 ∨ ai.toNat = 26 ∨ ai.toNat = 27
      omega
    rcases hcases with rfl | rfl | rfl | rfl
    · rw [readArgument_long h0 1 24 rfl rfl]
      simp
    · rw [readArgument_long h0 2 256 rfl rfl]
      simp
    · rw [readArgument_long h0 4 65536 rfl rfl]
      simp
    · rw [readArgument_long h0 8 4294967296 rfl rfl]
      simp

/-! ### Text and integers -/

theorem utf8String_eq_some_iff {d : Data} {s : String} : utf8String d = some s ↔ d = utf8 s := by
  rw [utf8String, String.fromUTF8?]
  constructor
  · intro h
    split at h
    · rw [← Option.some.inj h]
      rfl
    · cases h
  · rintro rfl
    have hbytes : (⟨(utf8 s).toArray⟩ : ByteArray) = s.toByteArray := rfl
    rw [dif_pos (hbytes ▸ s.isValidUTF8)]
    rfl

theorem toInt_ofInt_natCast {n : Nat} (h : n ≤ Int64.maxValue.toInt.toNat) :
    (Int64.ofInt n).toInt = n := by
  have hmax : Int64.maxValue.toInt.toNat = 2 ^ 63 - 1 := by decide
  exact Int64.toInt_ofInt_of_le (by omega) (by omega)

theorem toInt_ofInt_neg {n : Nat} (h : n ≤ Int64.maxValue.toInt.toNat) :
    (Int64.ofInt (-1 - n)).toInt = -1 - n := by
  have hmax : Int64.maxValue.toInt.toNat = 2 ^ 63 - 1 := by decide
  exact Int64.toInt_ofInt_of_le (by omega) (by omega)

/-! ### One item -/

/-- **One item of the reader**: a truth value, or a head and its contents. -/
theorem read_succ_eq_ok_iff {levels : Nat} {r r' : Reader} {v : CBOR} :
    read (levels + 1) r = .ok (v, r') ↔ r.nodes + 1 ≤ 1024 ∧
      ((v = .bool false ∧ r = ⟨0xf4 :: r'.rest, r.nodes⟩ ∧ r'.nodes = r.nodes + 1) ∨
        (v = .bool true ∧ r = ⟨0xf5 :: r'.rest, r.nodes⟩ ∧ r'.nodes = r.nodes + 1) ∨
        ∃ major n b rest, major ≤ 5 ∧ Head major n b ∧ r = ⟨b ++ rest, r.nodes⟩ ∧
          readContents (read levels) major n ⟨rest, r.nodes + 1⟩ = .ok (v, r')) := by
  obtain ⟨d, nodes⟩ := r
  constructor
  · intro h
    cases d with
    | nil => cases h
    | cons first rest =>
        simp only [read] at h
        split at h
        · cases h
        rename_i hnodes
        refine ⟨not_lt.mp hnodes, ?_⟩
        split at h
        · rename_i hf
          cases h
          exact .inl ⟨rfl, by rw [hf], rfl⟩
        split at h
        · rename_i hf
          cases h
          exact .inr (.inl ⟨rfl, by rw [hf], rfl⟩)
        split at h
        · cases h
        rename_i hinit
        obtain ⟨hm, ha⟩ := not_or.mp hinit
        have hm : first >>> 5 ≤ 5 := UInt8.not_lt.mp hm
        have ha : first &&& 31 ≤ 27 := UInt8.not_lt.mp ha
        obtain ⟨⟨n, r₁⟩, harg, hc⟩ := except_bind_eq_ok.mp h
        obtain ⟨t, hr, hhead⟩ := (readArgument_eq_ok_iff hm ha).mp harg
        obtain ⟨rest₁, nodes₁⟩ := r₁
        obtain ⟨rfl, rfl⟩ := Reader.mk.inj hr
        -- The initial byte is put together again from its two parts.
        rw [initial_eq] at hhead
        exact .inr (.inr ⟨first >>> 5, n, first :: t, rest₁, hm, hhead, rfl, hc⟩)
  · rintro ⟨hnodes, h⟩
    have hle : ¬ nodes + 1 > 1024 := not_lt.mpr hnodes
    obtain ⟨rest', nodes'⟩ := r'
    rcases h with ⟨rfl, hr, hn⟩ | ⟨rfl, hr, hn⟩ | ⟨major, n, b, rest, hm, hhead, hr, hc⟩
    · obtain ⟨rfl, -⟩ := Reader.mk.inj hr
      obtain rfl : nodes' = nodes + 1 := hn
      simp only [read, if_neg hle, if_true]
    · obtain ⟨rfl, -⟩ := Reader.mk.inj hr
      obtain rfl : nodes' = nodes + 1 := hn
      simp only [read, if_neg hle, if_true]
      rw [if_neg (by decide)]
    · obtain ⟨ai, t, ha, rfl⟩ := hhead.exists_cons
      obtain ⟨rfl, -⟩ := Reader.mk.inj hr
      -- No head of these major types begins like a truth value.
      obtain ⟨hf, ht⟩ := initial_ne_bool hm ha
      obtain ⟨hmajor, hai⟩ := initial_parts hm ha
      have hinit : ¬ (major > 5 ∨ ai > 27) := not_or.mpr ⟨UInt8.not_lt.mpr hm, UInt8.not_lt.mpr ha⟩
      simp only [List.cons_append, read, if_neg hle, if_neg hf, if_neg ht, hmajor, hai, if_neg hinit]
      exact except_bind_eq_ok.mpr
        ⟨(n, ⟨rest, nodes + 1⟩), (readArgument_eq_ok_iff hm ha).mpr ⟨t, rfl, hhead⟩, hc⟩

section
variable {rd : Reader → Except Thrown (CBOR × Reader)}

/-- A reader whose value is wrapped. -/
theorem wrap_eq_ok_iff {α : Type} {x : Except Thrown (α × Reader)} {f : α → CBOR} {v : CBOR}
    {r' : Reader} :
    (x >>= fun p => pure (f p.1, p.2)) = .ok (v, r') ↔ ∃ a, v = f a ∧ x = .ok (a, r') := by
  rw [except_bind_eq_ok]
  constructor
  · rintro ⟨⟨a, r⟩, hx, h⟩
    cases h
    exact ⟨a, rfl, hx⟩
  · rintro ⟨a, rfl, hx⟩
    exact ⟨(a, r'), hx, rfl⟩

/-- Bytes that must be UTF-8. -/
theorem text_eq_ok_iff {x : Except Thrown (Data × Reader)} {v : CBOR} {r' : Reader} :
    (do
      let (d, r) ← x
      match utf8String d with
      | some text => return (CBOR.text text, r)
      | none => .error (.status 0x12)) = .ok (v, r') ↔
      ∃ s, v = .text s ∧ x = .ok (utf8 s, r') := by
  rw [except_bind_eq_ok]
  constructor
  · rintro ⟨⟨d, r⟩, hx, h⟩
    dsimp only at h
    split at h
    · rename_i s hs
      cases h
      rw [utf8String_eq_some_iff.mp hs] at hx
      exact ⟨s, rfl, hx⟩
    · cases h
  · rintro ⟨s, rfl, hx⟩
    refine ⟨_, hx, ?_⟩
    dsimp only
    rw [utf8String_eq_some_iff.mpr rfl]
    rfl

/-- **The contents of an item**, by its major type. -/
theorem readContents_eq_ok_iff {major : UInt8} (hm : major ≤ 5) {n : Nat} {r r' : Reader}
    {v : CBOR} : readContents rd major n r = .ok (v, r') ↔ n ≤ Int64.maxValue.toInt.toNat ∧
      ((major = 0 ∧ v = .int (Int64.ofInt n) ∧ r = r') ∨
        (major = 1 ∧ v = .int (Int64.ofInt (-1 - n)) ∧ r = r') ∨
        (major = 2 ∧ n ≤ 7609 ∧ ∃ d, v = .bytes d ∧ take n r = .ok (d, r')) ∨
        (major = 3 ∧ n ≤ 7609 ∧ ∃ s, v = .text s ∧ take n r = .ok (utf8 s, r')) ∨
        (major = 4 ∧ n ≤ 7609 ∧ ∃ a, v = .array a ∧ readItems rd n r = .ok (a, r')) ∨
        (major = 5 ∧ n ≤ 7609 ∧ ∃ m, v = .map m ∧ readEntries rd n [] r = .ok (m, r'))) := by
  have hmajor : ∀ k < 6, k = 0 ∨ k = 1 ∨ k = 2 ∨ k = 3 ∨ k = 4 ∨ k = 5 := by omega
  rw [readContents]
  by_cases hn : n > Int64.maxValue.toInt.toNat
  · rw [if_pos hn]
    exact ⟨by rintro ⟨⟩, fun h => absurd h.1 (not_le.mpr hn)⟩
  rw [if_neg hn, and_iff_right (not_lt.mp hn)]
  have hint : ∀ w : CBOR, (Except.ok (w, r) : Except Thrown (CBOR × Reader)) = .ok (v, r') ↔
      v = w ∧ r = r' := by
    intro w
    rw [Except.ok.injEq, Prod.mk.injEq, eq_comm]
  have hlong : ∀ x : Except Thrown (CBOR × Reader),
      (if n > 7609 then .error (.status 0x12) else x) = .ok (v, r') ↔
        n ≤ 7609 ∧ x = .ok (v, r') := by
    intro x
    by_cases h : n > 7609
    · rw [if_pos h]
      exact ⟨by rintro ⟨⟩, fun he => absurd he.1 (not_le.mpr h)⟩
    · rw [if_neg h, and_iff_right (not_lt.mp h)]
  have hle : major.toNat < 6 := Nat.lt_succ_of_le hm
  -- One case for each major type, in the order of the source.
  rcases hmajor major.toNat hle with h | h | h | h | h | h
  · obtain rfl : major = 0 := UInt8.toNat_inj.mp h
    rw [if_pos rfl, hint]
    simp
  · obtain rfl : major = 1 := UInt8.toNat_inj.mp h
    rw [if_neg (by decide), if_pos rfl, hint]
    simp
  · obtain rfl : major = 2 := UInt8.toNat_inj.mp h
    rw [if_neg (by decide), if_neg (by decide), hlong, if_pos rfl, wrap_eq_ok_iff]
    simp
  · obtain rfl : major = 3 := UInt8.toNat_inj.mp h
    rw [if_neg (by decide), if_neg (by decide), hlong, if_neg (by decide), if_pos rfl]
    refine (and_congr_right fun _ => text_eq_ok_iff).trans ?_
    simp
  · obtain rfl : major = 4 := UInt8.toNat_inj.mp h
    rw [if_neg (by decide), if_neg (by decide), hlong, if_neg (by decide), if_neg (by decide),
      if_pos rfl, wrap_eq_ok_iff]
    simp
  · obtain rfl : major = 5 := UInt8.toNat_inj.mp h
    rw [if_neg (by decide), if_neg (by decide), hlong, if_neg (by decide), if_neg (by decide),
      if_neg (by decide), wrap_eq_ok_iff]
    simp

/-! ### Items and entries -/

/-- The reader takes an item off the front of its bytes. -/
def Takes (levels : Nat) (r r' : Reader) (v : CBOR) : Prop :=
  ∃ b, r.rest = b ++ r'.rest ∧ Item b v ∧ v.depth < levels ∧ r'.nodes = r.nodes + v.nodes ∧
    r'.nodes ≤ 1024

theorem readItems_sound {levels : Nat} (hrd : ∀ {r r' v}, rd r = .ok (v, r') → Takes levels r r' v)
    {count : Nat} {r r' : Reader} {a : List CBOR} (h : readItems rd count r = .ok (a, r'))
    (hr : r.nodes ≤ 1024) :
    ∃ b, r.rest = b ++ r'.rest ∧ Items b a ∧ a.length = count ∧ depthItems a ≤ levels ∧
      r'.nodes = r.nodes + nodesItems a ∧ r'.nodes ≤ 1024 := by
  induction count generalizing r a with
  | zero =>
      cases h
      exact ⟨[], rfl, .nil, rfl, Nat.zero_le _, rfl, hr⟩
  | succ count ih =>
      obtain ⟨⟨v, r₁⟩, hv, h⟩ := except_bind_eq_ok.mp h
      obtain ⟨⟨a', r₂⟩, ha, h⟩ := except_bind_eq_ok.mp h
      cases h
      obtain ⟨b, hb, hitem, hdepth, hnodes, hle⟩ := hrd hv
      obtain ⟨c, hc, hitems, hlen, hdepth', hnodes', hle'⟩ := ih ha hle
      refine ⟨b ++ c, ?_, .cons hitem hitems, by rw [List.length_cons, hlen],
        max_le hdepth hdepth', ?_, hle'⟩
      · rw [hb, hc, List.append_assoc]
      · rw [hnodes', hnodes, nodesItems]
        omega

theorem keyOf_eq_ok_iff {v : CBOR} {k : CBORKey} : keyOf v = .ok k ↔ v = k.value := by
  constructor
  · intro h
    cases v with
    | int n | text s =>
        cases h
        rfl
    | bytes | bool | array | map => cases h
  · rintro rfl
    cases k with
    | int | text => rfl

theorem readEntries_sound {levels : Nat}
    (hrd : ∀ {r r' v}, rd r = .ok (v, r') → Takes levels r r' v) {count : Nat}
    {result m : List (CBORKey × CBOR)} {r r' : Reader}
    (h : readEntries rd count result r = .ok (m, r')) (hr : r.nodes ≤ 1024) :
    ∃ b m', m = result ++ m' ∧ r.rest = b ++ r'.rest ∧ Entries b m' ∧ m'.length = count ∧
      depthEntries m' ≤ levels ∧ r'.nodes = r.nodes + nodesEntries m' ∧ r'.nodes ≤ 1024 := by
  induction count generalizing r result with
  | zero =>
      cases h
      exact ⟨[], [], (List.append_nil _).symm, rfl, .nil, rfl, Nat.zero_le _, rfl, hr⟩
  | succ count ih =>
      obtain ⟨⟨k, r₁⟩, hk, h₁⟩ := except_bind_eq_ok.mp h
      obtain ⟨key, hkey, h₂⟩ := except_bind_eq_ok.mp h₁
      split at h₂
      · cases h₂
      obtain ⟨⟨v, r₂⟩, hv, h₃⟩ := except_bind_eq_ok.mp h₂
      obtain rfl := keyOf_eq_ok_iff.mp hkey
      obtain ⟨b, hb, hkitem, -, hnk, -⟩ := hrd hk
      obtain ⟨c, hc, hvitem, hdepth, hnv, hle⟩ := hrd hv
      obtain ⟨d, m', rfl, hd, hentries, hlen, hdepth', hnodes, hle'⟩ := ih h₃ hle
      refine ⟨b ++ (c ++ d), (key, v) :: m', by simp, ?_, .cons hkitem hvitem hentries,
        by rw [List.length_cons, hlen], max_le hdepth hdepth', ?_, hle'⟩
      · rw [hb, hc, hd, List.append_assoc, List.append_assoc]
      · rw [hnodes, hnv, hnk, nodesEntries, CBORKey.nodes_value]
        omega

end

/-- **Soundness of the reader.** -/
theorem read_sound {levels : Nat} {r r' : Reader} {v : CBOR} (h : read levels r = .ok (v, r')) :
    Takes levels r r' v := by
  induction levels generalizing r r' v with
  | zero => cases h
  | succ levels ih =>
      have hdist := read_distinct h
      obtain ⟨hle, ⟨rfl, hr, hn⟩ | ⟨rfl, hr, hn⟩ | ⟨major, n, b, rest, hm, hhead, hr, hcontents⟩⟩ :=
        read_succ_eq_ok_iff.mp h
      · exact ⟨[0xf4], congrArg Reader.rest hr, .false, Nat.succ_pos _, hn, hn ▸ hle⟩
      · exact ⟨[0xf5], congrArg Reader.rest hr, .true, Nat.succ_pos _, hn, hn ▸ hle⟩
      have hrest : r.rest = b ++ rest := congrArg Reader.rest hr
      obtain ⟨hmax, hcases⟩ := (readContents_eq_ok_iff hm).mp hcontents
      rcases hcases with ⟨rfl, rfl, rfl⟩ | ⟨rfl, rfl, rfl⟩ | ⟨rfl, hn, d, rfl, hd⟩ |
        ⟨rfl, hn, s, rfl, hd⟩ | ⟨rfl, hn, a, rfl, ha⟩ | ⟨rfl, hn, m, rfl, hmap⟩
      · have hi := toInt_ofInt_natCast hmax
        exact ⟨b, hrest, .unsigned (by omega) (by rwa [hi, Int.toNat_natCast]), Nat.succ_pos _, rfl,
          hle⟩
      · have hi := toInt_ofInt_neg hmax
        refine ⟨b, hrest, .negative (by omega) ?_, Nat.succ_pos _, rfl, hle⟩
        rwa [hi, sub_sub_cancel, Int.toNat_natCast]
      · obtain ⟨rfl, hr'⟩ := take_eq_ok_iff.mp hd
        obtain ⟨rfl, hnodes⟩ := Reader.mk.inj hr'
        refine ⟨b ++ d, ?_, .bytes hhead, Nat.succ_pos _, hnodes.symm, hnodes ▸ hle⟩
        rw [hrest, List.append_assoc]
      · obtain ⟨rfl, hr'⟩ := take_eq_ok_iff.mp hd
        obtain ⟨rfl, hnodes⟩ := Reader.mk.inj hr'
        refine ⟨b ++ utf8 s, ?_, .text hhead, Nat.succ_pos _, hnodes.symm, hnodes ▸ hle⟩
        rw [hrest, List.append_assoc]
      · obtain ⟨c, hc, hitems, rfl, hdepth, hnodes, hle'⟩ := readItems_sound ih ha hle
        refine ⟨b ++ c, ?_, .array hhead hitems, Nat.lt_succ_of_le hdepth, ?_, hle'⟩
        · rw [hrest, List.append_assoc, ← hc]
        · rw [hnodes, CBOR.nodes, Nat.add_assoc]
      · obtain ⟨c, m', rfl, hc, hentries, rfl, hdepth, hnodes, hle'⟩ := readEntries_sound ih hmap hle
        refine ⟨b ++ c, ?_, .map hhead hentries hdist.1, Nat.lt_succ_of_le hdepth, ?_, hle'⟩
        · rw [hrest, List.append_assoc, ← hc]
        · rw [hnodes, CBOR.nodes, Nat.add_assoc]

/-! ### Completeness -/

theorem Head.length_pos {major : UInt8} {n : Nat} {b : Data} (h : Head major n b) :
    0 < b.length := by
  obtain ⟨ai, t, -, rfl⟩ := h.exists_cons
  exact Nat.succ_pos _

theorem Item.length_pos {b : Data} {v : CBOR} (h : Item b v) : 0 < b.length := by
  cases h with
  | unsigned hn hb | negative hn hb => exact hb.length_pos
  | false | true => exact Nat.one_pos
  | bytes hb | text hb | array hb | map hb =>
      rw [List.length_append]
      exact Nat.add_pos_left hb.length_pos _

/-- Every item takes at least a byte. -/
theorem Items.length_le {c : Data} {a : List CBOR} (h : Items c a) : a.length ≤ c.length := by
  induction a generalizing c with
  | nil => exact Nat.zero_le _
  | cons v a ih =>
      cases h with
      | cons hv ha =>
          have h1 := hv.length_pos
          have h2 := ih ha
          rw [List.length_append, List.length_cons]
          omega

theorem Entries.length_le {c : Data} {m : List (CBORKey × CBOR)} (h : Entries c m) :
    m.length ≤ c.length := by
  induction m generalizing c with
  | nil => exact Nat.zero_le _
  | cons e m ih =>
      cases h with
      | cons hk hv hm =>
          have h1 := hk.length_pos
          have h2 := ih hm
          rw [List.length_append, List.length_append, List.length_cons]
          omega

/-- The reader reads every item within its limits, whatever follows it. -/
def Reads (levels : Nat) (rd : Reader → Except Thrown (CBOR × Reader)) : Prop :=
  ∀ {b v rest nodes}, Item b v → b.length ≤ 7609 → v.depth < levels → nodes + v.nodes ≤ 1024 →
    rd ⟨b ++ rest, nodes⟩ = .ok (v, ⟨rest, nodes + v.nodes⟩)

section
variable {rd : Reader → Except Thrown (CBOR × Reader)} {levels : Nat} (hrd : Reads levels rd)
include hrd

theorem readItems_complete {a : List CBOR} {c : Data} (rest : Data) {nodes : Nat} (h : Items c a)
    (hlen : c.length ≤ 7609) (hdepth : depthItems a ≤ levels) (hnodes : nodes + nodesItems a ≤ 1024) :
    readItems rd a.length ⟨c ++ rest, nodes⟩ = .ok (a, ⟨rest, nodes + nodesItems a⟩) := by
  induction a generalizing c nodes with
  | nil =>
      cases h
      rfl
  | cons v a ih =>
      cases h with
      | cons hv ha =>
          rename_i b c
          rw [List.length_append] at hlen
          rw [depthItems, max_le_iff] at hdepth
          rw [nodesItems, ← Nat.add_assoc] at hnodes
          rw [List.append_assoc]
          refine except_bind_eq_ok.mpr ⟨_, hrd hv (by omega) hdepth.1 (by omega), ?_⟩
          refine except_bind_eq_ok.mpr ⟨_, ih ha (by omega) hdepth.2 hnodes, ?_⟩
          rw [nodesItems, ← Nat.add_assoc]
          rfl

theorem readEntries_complete {result m : List (CBORKey × CBOR)} {c : Data} (rest : Data)
    {nodes : Nat} (h : Entries c m) (hd : DistinctKeys (result ++ m)) (hlen : c.length ≤ 7609)
    (hdepth : depthEntries m ≤ levels) (hnodes : nodes + nodesEntries m ≤ 1024) :
    readEntries rd m.length result ⟨c ++ rest, nodes⟩ =
      .ok (result ++ m, ⟨rest, nodes + nodesEntries m⟩) := by
  induction m generalizing c nodes result with
  | nil =>
      cases h
      rw [List.append_nil]
      rfl
  | cons e m ih =>
      cases h with
      | cons hk hv hm =>
          rename_i b c d k v
          rw [List.length_append, List.length_append] at hlen
          rw [depthEntries, max_le_iff] at hdepth
          rw [nodesEntries, ← Nat.add_assoc, ← Nat.add_assoc] at hnodes
          have hnew : ¬ (result.lookup k).isSome := by
            intro hs
            obtain ⟨w, hw⟩ := Option.isSome_iff_exists.mp hs
            simp only [DistinctKeys, List.map_append, List.map_cons] at hd
            exact (List.nodup_append.mp hd).2.2 k (List.mem_map_of_mem (mem_of_lookup hw)) k
              List.mem_cons_self rfl
          have hd' : DistinctKeys ((result ++ [(k, v)]) ++ m) := by
            rwa [List.append_assoc]
          have hkey : rd ⟨b ++ (c ++ d) ++ rest, nodes⟩ =
              .ok (k.value, ⟨c ++ (d ++ rest), nodes + 1⟩) := by
            rw [List.append_assoc, List.append_assoc]
            have hlevels : k.value.depth < levels := by
              rw [CBORKey.depth_value]
              omega
            have hcount : nodes + k.value.nodes ≤ 1024 := by
              rw [CBORKey.nodes_value]
              omega
            rw [hrd hk (by omega) hlevels hcount, CBORKey.nodes_value]
          refine except_bind_eq_ok.mpr ⟨_, hkey, ?_⟩
          refine except_bind_eq_ok.mpr ⟨k, keyOf_eq_ok_iff.mpr rfl, ?_⟩
          rw [if_neg hnew]
          refine except_bind_eq_ok.mpr ⟨_, hrd hv (by omega) hdepth.1 (by omega), ?_⟩
          have := ih hm hd' (by omega) hdepth.2 hnodes
          rw [nodesEntries, ← Nat.add_assoc, ← Nat.add_assoc]
          rw [List.append_assoc] at this
          exact this

end

/-- **Completeness of the reader.** -/
theorem read_complete (levels : Nat) : Reads levels (read levels) := by
  -- The levels bound the depth: what an item contains is read with one level less.
  induction levels with
  | zero =>
      intro b v rest nodes _ _ hdepth
      exact absurd hdepth (Nat.not_lt_zero _)
  | succ levels ih =>
      intro b v rest nodes h hlen hdepth hnodes
      have hmax : Int64.maxValue.toInt.toNat = 2 ^ 63 - 1 := by decide
      cases h with
      | unsigned hn hb =>
          rename_i n
          have hlt := n.toInt_lt
          refine read_succ_eq_ok_iff.mpr ⟨hnodes, .inr (.inr ⟨0, _, b, rest, by decide, hb, rfl, ?_⟩)⟩
          refine (readContents_eq_ok_iff (by decide)).mpr ⟨by omega, .inl ⟨rfl, ?_, rfl⟩⟩
          rw [Int.toNat_of_nonneg hn, Int64.ofInt_toInt]
      | negative hn hb =>
          rename_i n
          have hge := n.le_toInt
          refine read_succ_eq_ok_iff.mpr ⟨hnodes, .inr (.inr ⟨1, _, b, rest, by decide, hb, rfl, ?_⟩)⟩
          refine (readContents_eq_ok_iff (by decide)).mpr ⟨by omega, .inr (.inl ⟨rfl, ?_, rfl⟩)⟩
          rw [Int.toNat_of_nonneg (by omega), sub_sub_cancel, Int64.ofInt_toInt]
      | bytes hb =>
          rename_i b d
          rw [List.length_append] at hlen
          refine read_succ_eq_ok_iff.mpr ⟨hnodes, .inr (.inr
            ⟨2, _, b, d ++ rest, by decide, hb, by rw [List.append_assoc], ?_⟩)⟩
          refine (readContents_eq_ok_iff (by decide)).mpr ⟨by omega, .inr (.inr (.inl
            ⟨rfl, by omega, d, rfl, take_eq_ok_iff.mpr ⟨rfl, rfl⟩⟩))⟩
      | text hb =>
          rename_i b s
          rw [List.length_append] at hlen
          refine read_succ_eq_ok_iff.mpr ⟨hnodes, .inr (.inr
            ⟨3, _, b, utf8 s ++ rest, by decide, hb, by rw [List.append_assoc], ?_⟩)⟩
          refine (readContents_eq_ok_iff (by decide)).mpr ⟨by omega, .inr (.inr (.inr (.inl
            ⟨rfl, by omega, s, rfl, take_eq_ok_iff.mpr ⟨rfl, rfl⟩⟩)))⟩
      | false => exact read_succ_eq_ok_iff.mpr ⟨hnodes, .inl ⟨rfl, rfl, rfl⟩⟩
      | true => exact read_succ_eq_ok_iff.mpr ⟨hnodes, .inr (.inl ⟨rfl, rfl, rfl⟩)⟩
      | array hb ha =>
          rename_i b c a
          rw [List.length_append] at hlen
          rw [CBOR.nodes, ← Nat.add_assoc] at hnodes
          -- Each value has a byte at least, so that the count is below that of the bytes.
          have hcount := ha.length_le
          have hitems := readItems_complete ih rest ha (by omega)
            (Nat.le_of_lt_succ hdepth) hnodes
          rw [CBOR.nodes, ← Nat.add_assoc]
          refine read_succ_eq_ok_iff.mpr ⟨by dsimp only; omega, .inr (.inr
            ⟨4, _, b, c ++ rest, by decide, hb, by rw [List.append_assoc], ?_⟩)⟩
          exact (readContents_eq_ok_iff (by decide)).mpr ⟨by omega, .inr (.inr (.inr (.inr (.inl
            ⟨rfl, by omega, a, rfl, hitems⟩))))⟩
      | map hb hm hd =>
          rename_i b c m
          rw [List.length_append] at hlen
          rw [CBOR.nodes, ← Nat.add_assoc] at hnodes
          -- So it is with the entries.
          have hcount := hm.length_le
          have hentries := readEntries_complete ih rest hm (List.nil_append m ▸ hd) (by omega)
            (Nat.le_of_lt_succ hdepth) hnodes
          rw [CBOR.nodes, ← Nat.add_assoc]
          refine read_succ_eq_ok_iff.mpr ⟨by dsimp only; omega, .inr (.inr
            ⟨5, _, b, c ++ rest, by decide, hb, by rw [List.append_assoc], ?_⟩)⟩
          exact (readContents_eq_ok_iff (by decide)).mpr ⟨by omega, .inr (.inr (.inr (.inr (.inr
            ⟨rfl, by omega, m, rfl, hentries⟩))))⟩

/-- **What `decode` accepts.** -/
theorem decode_eq_ok_iff {b : Data} {v : CBOR} : CBOR.decode b = .ok v ↔
    b.length ≤ 7609 ∧ Item b v ∧ v.depth < 10 ∧ v.nodes ≤ 1024 := by
  rw [CBOR.decode]
  constructor
  · intro h
    split at h
    · cases h
    rename_i hlen
    obtain ⟨⟨w, r⟩, hread, hend⟩ := except_bind_eq_ok.mp h
    dsimp only at hend
    split at hend
    · rename_i hrest
      cases hend
      obtain ⟨c, hc, hitem, hdepth, hnodes, hle⟩ := read_sound hread
      rw [hrest, List.append_nil] at hc
      obtain rfl : b = c := hc
      rw [hnodes, Nat.zero_add] at hle
      exact ⟨not_lt.mp hlen, hitem, hdepth, hle⟩
    · cases hend
  · rintro ⟨hlen, hitem, hdepth, hnodes⟩
    rw [if_neg (not_lt.mpr hlen)]
    have hread : read 10 ⟨b ++ [], 0⟩ = .ok (v, ⟨[], 0 + v.nodes⟩) :=
      read_complete 10 hitem hlen hdepth (by omega)
    rw [List.append_nil] at hread
    exact except_bind_eq_ok.mpr ⟨_, hread, rfl⟩

end Ashacky.Fido
