import Ashacky.Support.Bytes

/-!
# Support — UTF-8

A decoder of UTF-8 that is given its bytes in pieces.  Between two pieces it stands between two
characters, or within one, and then knows what may follow.

* `run_append`: it makes no difference where the bytes are cut.
* `run_encode`: the bytes of a text are decoded to the text.
* `run_front`: from the bytes so far come the characters that are complete among them.
-/

namespace Ashacky.Support.Utf8

/-- Where the decoder stands: between characters, or within one, with the number of bytes that
follow, the bounds on the next of them, and the bits so far. -/
inductive Decoder where
  | start
  | within (more : Nat) (low high : Nat) (bits : Nat)
deriving DecidableEq

/-- A byte: where it leads, and the character that it ends, if it does; or it is not UTF-8. -/
def Decoder.next : Decoder → UInt8 → Option (Option Char × Decoder)
  | .start, b =>
      let b := b.toNat
      if b < 0x80 then some (some (Char.ofNat b), .start)
      else if b < 0xc2 then none
      else if b < 0xe0 then some (none, .within 0 0x80 0xbf (b - 0xc0))
      else if b < 0xf0 then
        some (none, .within 1 (if b = 0xe0 then 0xa0 else 0x80) (if b = 0xed then 0x9f else 0xbf)
          (b - 0xe0))
      else if b < 0xf5 then
        some (none, .within 2 (if b = 0xf0 then 0x90 else 0x80) (if b = 0xf4 then 0x8f else 0xbf)
          (b - 0xf0))
      else none
  | .within more low high bits, b =>
      if b.toNat < low ∨ b.toNat > high then none
      else
        let bits := bits * 64 + b.toNat % 64
        match more with
        | 0 => some (some (Char.ofNat bits), .start)
        | more + 1 => some (none, .within more 0x80 0xbf bits)

/-- The characters that the bytes end, and where they lead. -/
def Decoder.run : Decoder → Data → Option (List Char × Decoder)
  | s, [] => some ([], s)
  | s, b :: d => (s.next b).bind fun x => (x.2.run d).map fun y => (x.1.toList ++ y.1, y.2)

/-- The text of the bytes, if they are its UTF-8. -/
def decode (d : Data) : Option (List Char) :=
  match Decoder.start.run d with
  | some (cs, .start) => some cs
  | _ => none

/-- The UTF-8 of a text. -/
def encode (text : List Char) : Data := text.flatMap String.utf8EncodeChar

@[simp] theorem encode_nil : encode [] = [] := rfl

@[simp] theorem encode_cons (c : Char) (text : List Char) :
    encode (c :: text) = String.utf8EncodeChar c ++ encode text := rfl

@[simp] theorem encode_append (t u : List Char) : encode (t ++ u) = encode t ++ encode u :=
  List.flatMap_append

namespace Decoder

variable {s s' : Decoder} {d d' : Data} {cs : List Char}

/-- Cutting the bytes changes nothing. -/
theorem run_append (s : Decoder) (d d' : Data) :
    s.run (d ++ d') = (s.run d).bind fun x => (x.2.run d').map fun y => (x.1 ++ y.1, y.2) := by
  induction d generalizing s with
  | nil => simp [run]
  | cons b d ih =>
      rw [List.cons_append, run, run]
      cases s.next b with
      | none => rfl
      | some r =>
          rw [Option.bind_some, Option.bind_some, ih]
          cases r.2.run d with
          | none => rfl
          | some x =>
              rw [Option.map_some, Option.bind_some, Option.bind_some, Option.map_map]
              simp only [Function.comp_def, List.append_assoc]

/-- The decoder is between characters after a byte only if the byte ends one. -/
theorem next_start {b : UInt8} {c : Option Char} (h : s.next b = some (c, .start)) : c ≠ none := by
  rintro rfl
  cases s with
  | start =>
      simp only [next] at h
      split_ifs at h
      all_goals cases h
  | within more low high bits =>
      cases more with
      | zero | succ =>
          simp only [next] at h
          split_ifs at h
          cases h

theorem run_start_ne_nil (h : s.run d = some (cs, .start)) (hd : d ≠ []) : cs ≠ [] := by
  induction d generalizing s cs with
  | nil => exact absurd rfl hd
  | cons b d ih =>
      obtain ⟨⟨c, m⟩, hnext, h⟩ := Option.bind_eq_some_iff.mp h
      obtain ⟨⟨cs', m'⟩, hrun, h⟩ := Option.map_eq_some_iff.mp h
      cases h
      cases d with
      | nil =>
          cases hrun
          cases c with
          | none => exact absurd rfl (next_start hnext)
          | some c => exact List.cons_ne_nil _ _
      | cons b' d => exact List.append_ne_nil_of_right_ne_nil _ (ih hrun (List.cons_ne_nil _ _))

/-- A first byte of more than one. -/
theorem next_first {n : Nat} (h : n < 256) (hlow : 0xc2 ≤ n) (hhigh : n < 0xf5) :
    start.next (UInt8.ofNat n) = some (none,
      if n < 0xe0 then .within 0 0x80 0xbf (n - 0xc0)
      else if n < 0xf0 then
        .within 1 (if n = 0xe0 then 0xa0 else 0x80) (if n = 0xed then 0x9f else 0xbf) (n - 0xe0)
      else .within 2 (if n = 0xf0 then 0x90 else 0x80) (if n = 0xf4 then 0x8f else 0xbf) (n - 0xf0)) := by
  have hbyte : (UInt8.ofNat n).toNat = n := by rw [UInt8.toNat_ofNat', Nat.mod_eq_of_lt h]
  simp only [next, hbyte]
  rw [if_neg (by omega), if_neg (by omega)]
  split_ifs <;> rfl

/-- A byte that follows. -/
theorem next_within {more low high bits n : Nat} (h : n < 64) (hlow : low ≤ n + 0x80)
    (hhigh : n + 0x80 ≤ high) :
    (within more low high bits).next (UInt8.ofNat (n + 0x80)) =
      match more with
      | 0 => some (some (Char.ofNat (bits * 64 + n)), .start)
      | more + 1 => some (none, .within more 0x80 0xbf (bits * 64 + n)) := by
  have hbyte : (UInt8.ofNat (n + 0x80)).toNat = n + 0x80 := by
    rw [UInt8.toNat_ofNat', Nat.mod_eq_of_lt (by omega)]
  have hbits : (n + 0x80) % 64 = n := by omega
  simp only [next, hbyte, hbits]
  rw [if_neg (by omega)]

theorem next_ascii {n : Nat} (h : n < 0x80) :
    start.next (UInt8.ofNat n) = some (some (Char.ofNat n), .start) := by
  have hbyte : (UInt8.ofNat n).toNat = n := by rw [UInt8.toNat_ofNat', Nat.mod_eq_of_lt (by omega)]
  simp only [next, hbyte]
  rw [if_pos h]

/-- A byte that ends no character. -/
theorem run_more {b : UInt8} {m : Decoder} (h : s.next b = some (none, m)) : s.run (b :: d) = m.run d := by
  rw [run, h, Option.bind_some]
  exact Option.map_id'

/-- A byte that ends the last character. -/
theorem run_last {b : UInt8} {c : Char} {m : Decoder} (h : s.next b = some (some c, m)) :
    s.run [b] = some ([c], m) := by
  rw [run, h]
  rfl

/-- **A character is decoded from its bytes.** -/
theorem run_encodeChar (c : Char) : start.run (String.utf8EncodeChar c) = some ([c], .start) := by
  have hvalid : c.val.toNat < 0xd800 ∨ 0xdfff < c.val.toNat ∧ c.val.toNat < 0x110000 := c.valid
  have hback : Char.ofNat c.val.toNat = c := Char.ofNat_toNat c
  rw [String.utf8EncodeChar]
  generalize c.val.toNat = v at *
  split_ifs with h₁ h₂ h₃
  · rw [run_last (next_ascii (by omega)), hback]
  · rw [run_more (next_first (by omega) (by omega) (by omega)), if_pos (by omega),
      run_last (next_within (by omega) (by omega) (by omega))]
    rw [← hback]
    congr 4
    omega
  · -- The bounds on the second byte leave out the shorter forms and the surrogates.
    have hlow : (if v / 4096 % 16 + 0xe0 = 0xe0 then 0xa0 else 0x80) ≤ v / 64 % 64 + 0x80 := by
      split <;> omega
    have hhigh : v / 64 % 64 + 0x80 ≤ if v / 4096 % 16 + 0xe0 = 0xed then 0x9f else 0xbf := by
      split <;> omega
    rw [run_more (next_first (by omega) (by omega) (by omega)), if_neg (by omega), if_pos (by omega),
      run_more (next_within (by omega) hlow hhigh), run_last (next_within (by omega) (by omega) (by omega))]
    rw [← hback]
    congr 4
    omega
  · have hlow : (if v / 262144 % 8 + 0xf0 = 0xf0 then 0x90 else 0x80) ≤ v / 4096 % 64 + 0x80 := by
      split <;> omega
    have hhigh : v / 4096 % 64 + 0x80 ≤ if v / 262144 % 8 + 0xf0 = 0xf4 then 0x8f else 0xbf := by
      split <;> omega
    rw [run_more (next_first (by omega) (by omega) (by omega)), if_neg (by omega), if_neg (by omega),
      run_more (next_within (by omega) hlow hhigh),
      run_more (next_within (by omega) (by omega) (by omega)),
      run_last (next_within (by omega) (by omega) (by omega))]
    rw [← hback]
    congr 4
    omega

theorem run_encode (text : List Char) : start.run (encode text) = some (text, .start) := by
  induction text with
  | nil => rfl
  | cons c text ih =>
      rw [encode_cons, run_append, run_encodeChar, Option.bind_some, ih]
      rfl

/-- Within a character there is none yet. -/
theorem run_cut {c : Char} {more : Data} (h : d ++ more = String.utf8EncodeChar c) (hmore : more ≠ []) :
    ∃ s, start.run d = some ([], s) := by
  have hrun := run_encodeChar c
  rw [← h, run_append] at hrun
  obtain ⟨⟨cs, s⟩, hd, hrun⟩ := Option.bind_eq_some_iff.mp hrun
  obtain ⟨⟨cs', s'⟩, hd', hrun⟩ := Option.map_eq_some_iff.mp hrun
  obtain ⟨htext, rfl⟩ := Prod.mk.inj hrun
  have hne : cs' ≠ [] := run_start_ne_nil hd' hmore
  obtain ⟨rfl, -⟩ | ⟨-, rfl⟩ := List.append_eq_singleton_iff.mp htext
  · exact ⟨s, hd⟩
  · exact absurd rfl hne

end Decoder

open Decoder

theorem decode_encode (text : List Char) : decode (encode text) = some text := by
  rw [decode, run_encode]

/-- Seven bits are a character each. -/
theorem decode_ascii {d : Data} (h : ∀ b ∈ d, b.toNat < 0x80) :
    decode d = some (d.map fun b => Char.ofNat b.toNat) := by
  have hrun : start.run d = some (d.map fun b => Char.ofNat b.toNat, .start) := by
    induction d with
    | nil => rfl
    | cons b d ih =>
        obtain ⟨hb, hd⟩ := List.forall_mem_cons.mp h
        have hnext : start.next b = some (some (Char.ofNat b.toNat), .start) := by
          simp only [next, if_pos hb]
        rw [run, hnext, Option.bind_some, ih hd]
        rfl
  rw [decode, hrun]

/-- What `run_front` says of the bytes so far. -/
def Complete (text : List Char) (d : Data) : Prop :=
  ∃ cs rest s, start.run d = some (cs, s) ∧ text = cs ++ rest ∧
    ∀ t u, text = t ++ u → (t.length ≤ cs.length ↔ (encode t).length ≤ d.length)

theorem complete_cut {c : Char} {text : List Char} {d more : Data}
    (h : d ++ more = String.utf8EncodeChar c) (hmore : more ≠ []) : Complete (c :: text) d := by
  obtain ⟨s, hs⟩ := run_cut h hmore
  refine ⟨[], c :: text, s, hs, rfl, fun t u htu => ?_⟩
  cases t with
  | nil => simp
  | cons x t =>
      obtain ⟨rfl, -⟩ := List.cons.inj htu
      have hlength := congrArg List.length h
      have hpos := List.length_pos_of_ne_nil hmore
      rw [List.length_append] at hlength
      rw [encode_cons, List.length_append, List.length_cons, List.length_nil]
      omega

theorem complete_cons {c : Char} {text : List Char} {d : Data} (h : Complete text d) :
    Complete (c :: text) (String.utf8EncodeChar c ++ d) := by
  obtain ⟨cs, rest, s, hrun, rfl, hcount⟩ := h
  refine ⟨c :: cs, rest, s, ?_, rfl, fun t u htu => ?_⟩
  · rw [run_append, run_encodeChar, Option.bind_some, hrun]
    rfl
  · cases t with
    | nil => simp
    | cons x t =>
        obtain ⟨rfl, hrest⟩ := List.cons.inj htu
        rw [encode_cons, List.length_append, List.length_append, List.length_cons, List.length_cons,
          Nat.add_le_add_iff_right, Nat.add_le_add_iff_left]
        exact hcount t u hrest

/-- **The bytes so far** are decoded to the characters that are complete among them. -/
theorem run_front {text : List Char} {d more : Data} (h : d ++ more = encode text) : Complete text d := by
  induction text generalizing d with
  | nil =>
      obtain ⟨rfl, rfl⟩ := List.append_eq_nil_iff.mp h
      refine ⟨[], [], .start, rfl, rfl, fun t u htu => ?_⟩
      obtain ⟨rfl, rfl⟩ := List.append_eq_nil_iff.mp htu.symm
      exact Iff.rfl
  | cons c text ih =>
      rw [encode_cons] at h
      obtain ⟨m, hd, hm⟩ | ⟨m, rfl, hm⟩ := List.append_eq_append_iff.mp h
      · by_cases hnil : m = []
        · subst hnil
          rw [List.append_nil] at hd
          have hrest := complete_cons (c := c) (ih (d := []) hm)
          rwa [List.append_nil, hd] at hrest
        · exact complete_cut hd.symm hnil
      · exact complete_cons (ih hm.symm)

end Ashacky.Support.Utf8
