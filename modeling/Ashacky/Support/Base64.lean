import Ashacky.Support.Bytes

/-!
# Support — Base64

The Base64 form of a byte string, with padding, and its strict reading: groups of four
characters of the alphabet, of which only the last may be padded, and nothing else.

* `decode_encode`: the form of a byte string is read as that byte string.
* `length_encode`, `encode_ascii`: four characters for every three bytes, all of them ASCII.
* `count_slash_encode`: a slash stands for six ones.
-/

namespace Ashacky.Support.Base64

/-- The character of a sextet. -/
def digit (n : Nat) : Char :=
  if n < 26 then Char.ofNat (n + 65)
  else if n < 52 then Char.ofNat (n + 71)
  else if n < 62 then Char.ofNat (n - 4)
  else if n = 62 then '+'
  else '/'

/-- The sextet of a character of the alphabet. -/
def sextet (c : Char) : Option Nat :=
  if 65 ≤ c.toNat ∧ c.toNat ≤ 90 then some (c.toNat - 65)
  else if 97 ≤ c.toNat ∧ c.toNat ≤ 122 then some (c.toNat - 71)
  else if 48 ≤ c.toNat ∧ c.toNat ≤ 57 then some (c.toNat + 4)
  else if c = '+' then some 62
  else if c = '/' then some 63
  else none

theorem sextet_digit : ∀ {n : Nat}, n < 64 → sextet (digit n) = some n := by decide

/-- The padding character is not one of the alphabet. -/
theorem digit_ne_pad : ∀ {n : Nat}, n < 64 → digit n ≠ '=' := by decide

/-- The Base64 form. -/
def encode : Data → List Char
  | [] => []
  | [a] => [digit (a.toNat / 4), digit (a.toNat % 4 * 16), '=', '=']
  | [a, b] =>
      [digit (a.toNat / 4), digit (a.toNat % 4 * 16 + b.toNat / 16), digit (b.toNat % 16 * 4), '=']
  | a :: b :: c :: rest =>
      digit (a.toNat / 4) :: digit (a.toNat % 4 * 16 + b.toNat / 16) ::
        digit (b.toNat % 16 * 4 + c.toNat / 64) :: digit (c.toNat % 64) :: encode rest

/-- The bytes of a padded last group, or of a full one. -/
def group : List Char → Option Data
  | [a, b, '=', '='] => do
      let a ← sextet a
      let b ← sextet b
      return [UInt8.ofNat (a * 4 + b / 16)]
  | [a, b, c, '='] => do
      let a ← sextet a
      let b ← sextet b
      let c ← sextet c
      return [UInt8.ofNat (a * 4 + b / 16), UInt8.ofNat (b * 16 + c / 4)]
  | [a, b, c, d] => do
      let a ← sextet a
      let b ← sextet b
      let c ← sextet c
      let d ← sextet d
      return [UInt8.ofNat (a * 4 + b / 16), UInt8.ofNat (b * 16 + c / 4), UInt8.ofNat (c * 64 + d)]
  | _ => none

/-- The strict reading.  A padded group stands only at the end. -/
def decode : List Char → Option Data
  | [] => some []
  | a :: b :: c :: d :: rest => do
      let head ← group [a, b, c, d]
      if d = '=' ∧ rest ≠ [] then none
      let tail ← decode rest
      return head ++ tail
  | _ => none

/-! ### Size -/

/-- **The size of the form**: four characters for every three bytes, the last ones padded. -/
theorem length_encode (d : Data) : (encode d).length = (d.length + 2) / 3 * 4 := by
  fun_induction encode d with
  | case1 => rfl
  | case2 a => simp
  | case3 a b => simp
  | case4 a b c rest ih =>
      simp only [List.length_cons, ih]
      omega

theorem digit_ascii (n : Nat) : (digit n).toNat < 128 := by
  by_cases h : n < 64
  · revert n
    decide
  · rw [digit, if_neg (by omega), if_neg (by omega), if_neg (by omega), if_neg (by omega)]
    decide

theorem encode_ascii (d : Data) : ∀ c ∈ encode d, c.toNat < 128 := by
  fun_induction encode d with
  | case1 => nofun
  | case2 a => simp [digit_ascii]
  | case3 a b => simp [digit_ascii]
  | case4 a b c rest ih => simpa [digit_ascii] using ih

/-- The form is of digits and padding. -/
theorem mem_encode (d : Data) : ∀ c ∈ encode d, c = '=' ∨ ∃ n, c = digit n := by
  have hdigit : ∀ n, digit n = '=' ∨ ∃ m, digit n = digit m := fun n => .inr ⟨n, rfl⟩
  fun_induction encode d with
  | case1 => nofun
  | case2 a => simp
  | case3 a b => simp
  | case4 a b c rest ih => simpa [hdigit] using ih

/-! ### Slashes -/

/-- A bit of a byte string, the highest one of each byte first; past the end they are zero. -/
def bit (d : Data) (k : Nat) : Bool := (d.getD (k / 8) 0).toNat.testBit (7 - k % 8)

/-- The six bits from `6 * i` on are ones. -/
def full (d : Data) (i : Nat) : Bool := (List.range 6).all fun j => bit d (6 * i + j)

/-- How many groups of six bits are ones. -/
def ones (d : Data) : Nat := (List.range ((8 * d.length + 5) / 6)).countP (full d)

theorem digit_eq_slash : ∀ {n : Nat}, n < 64 → (digit n = '/' ↔ n = 63) := by decide

theorem bit_drop (a b c : UInt8) (rest : Data) (k : Nat) :
    bit (a :: b :: c :: rest) (k + 24) = bit rest k := by
  have hbyte : (k + 24) / 8 = k / 8 + 3 := by omega
  have hplace : (k + 24) % 8 = k % 8 := by omega
  rw [bit, bit, hbyte, hplace]
  rfl

/-- Three bytes are four groups. -/
theorem full_drop (a b c : UInt8) (rest : Data) (i : Nat) :
    full (a :: b :: c :: rest) (i + 4) = full rest i := by
  have hplace : ∀ j, 6 * (i + 4) + j = (6 * i + j) + 24 := by
    intro j
    omega
  simp only [full, hplace, bit_drop]

/-- The ones among the bits of a byte, by its parts. -/
theorem bits_ones : ∀ n < 256,
    ((n.testBit 7 && n.testBit 6 && n.testBit 5 && n.testBit 4 && n.testBit 3 && n.testBit 2) =
        decide (n / 4 = 63)) ∧
      (n.testBit 1 && n.testBit 0) = decide (n % 4 = 3) ∧
      (n.testBit 7 && n.testBit 6 && n.testBit 5 && n.testBit 4) = decide (n / 16 = 15) ∧
      (n.testBit 3 && n.testBit 2 && n.testBit 1 && n.testBit 0) = decide (n % 16 = 15) ∧
      (n.testBit 7 && n.testBit 6) = decide (n / 64 = 3) ∧
      (n.testBit 5 && n.testBit 4 && n.testBit 3 && n.testBit 2 && n.testBit 1 && n.testBit 0) =
        decide (n % 64 = 63) := by
  decide +kernel

theorem full_first (a : UInt8) (rest : Data) : full (a :: rest) 0 = decide (a.toNat / 4 = 63) := by
  rw [← (bits_ones a.toNat a.toNat_lt).1]
  simp [full, bit, List.range_succ, Bool.and_assoc]

theorem full_second (a b : UInt8) (rest : Data) :
    full (a :: b :: rest) 1 = decide (a.toNat % 4 * 16 + b.toNat / 16 = 63) := by
  have hb : b.toNat < 256 := b.toNat_lt
  have hsplit : a.toNat % 4 * 16 + b.toNat / 16 = 63 ↔ a.toNat % 4 = 3 ∧ b.toNat / 16 = 15 := by omega
  rw [decide_eq_decide.mpr hsplit, Bool.decide_and, ← (bits_ones a.toNat a.toNat_lt).2.1,
    ← (bits_ones b.toNat hb).2.2.1]
  simp [full, bit, List.range_succ, Bool.and_assoc]

theorem full_third (a b c : UInt8) (rest : Data) :
    full (a :: b :: c :: rest) 2 = decide (b.toNat % 16 * 4 + c.toNat / 64 = 63) := by
  have hc : c.toNat < 256 := c.toNat_lt
  have hsplit : b.toNat % 16 * 4 + c.toNat / 64 = 63 ↔ b.toNat % 16 = 15 ∧ c.toNat / 64 = 3 := by omega
  rw [decide_eq_decide.mpr hsplit, Bool.decide_and, ← (bits_ones b.toNat b.toNat_lt).2.2.2.1,
    ← (bits_ones c.toNat hc).2.2.2.2.1]
  simp [full, bit, List.range_succ, Bool.and_assoc]

theorem full_fourth (a b c : UInt8) (rest : Data) :
    full (a :: b :: c :: rest) 3 = decide (c.toNat % 64 = 63) := by
  rw [← (bits_ones c.toNat c.toNat_lt).2.2.2.2.2]
  simp [full, bit, List.range_succ, Bool.and_assoc]

/-- The last group of one byte or of two has zeros. -/
theorem full_one (a : UInt8) : full [a] 1 = false := by
  simp [full, bit, List.range_succ]

theorem full_two (a b : UInt8) : full [a, b] 2 = false := by
  simp [full, bit, List.range_succ]

theorem ones_cons (a b c : UInt8) (rest : Data) : ones (a :: b :: c :: rest) =
    (List.range 4).countP (full (a :: b :: c :: rest)) + ones rest := by
  have hgroups : (8 * (a :: b :: c :: rest).length + 5) / 6 = 4 + (8 * rest.length + 5) / 6 := by
    simp only [List.length_cons]
    omega
  have hrest : full (a :: b :: c :: rest) ∘ (4 + ·) = full rest := by
    funext i
    rw [Function.comp_apply, Nat.add_comm, full_drop]
  rw [ones, hgroups, List.range_add, List.countP_append, List.countP_map, hrest, ones]

/-- **The slashes of the form** are the groups of six ones. -/
theorem count_slash_encode (d : Data) : (encode d).count '/' = ones d := by
  have hpad : ¬ '=' = '/' := by decide
  have hcount : ∀ (c : Char) (l : List Char),
      (c :: l).count '/' = l.count '/' + if c = '/' then 1 else 0 := by
    intro c l
    simp [List.count_cons]
  fun_induction encode d with
  | case1 => rfl
  | case2 a =>
      have ha : a.toNat < 256 := a.toNat_lt
      have hlast : ¬ a.toNat % 4 * 16 = 63 := by omega
      simp only [hcount, List.count_nil, hpad, if_false, digit_eq_slash (show a.toNat / 4 < 64 by omega),
        digit_eq_slash (show a.toNat % 4 * 16 < 64 by omega), hlast]
      simp [ones, List.range_succ, List.countP_cons, full_first, full_one]
  | case3 a b =>
      have ha : a.toNat < 256 := a.toNat_lt
      have hb : b.toNat < 256 := b.toNat_lt
      have hlast : ¬ b.toNat % 16 * 4 = 63 := by omega
      simp only [hcount, List.count_nil, hpad, if_false, digit_eq_slash (show a.toNat / 4 < 64 by omega),
        digit_eq_slash (show a.toNat % 4 * 16 + b.toNat / 16 < 64 by omega),
        digit_eq_slash (show b.toNat % 16 * 4 < 64 by omega), hlast]
      simp [ones, List.range_succ, full_first, full_second, full_two, List.countP_cons]
  | case4 a b c rest ih =>
      have ha : a.toNat < 256 := a.toNat_lt
      have hb : b.toNat < 256 := b.toNat_lt
      have hc : c.toNat < 256 := c.toNat_lt
      rw [ones_cons]
      simp only [hcount, ih, digit_eq_slash (show a.toNat / 4 < 64 by omega),
        digit_eq_slash (show a.toNat % 4 * 16 + b.toNat / 16 < 64 by omega),
        digit_eq_slash (show b.toNat % 16 * 4 + c.toNat / 64 < 64 by omega),
        digit_eq_slash (show c.toNat % 64 < 64 by omega)]
      simp [List.range_succ, List.countP_cons, full_first, full_second, full_third, full_fourth]
      omega

/-! ### Reading back -/

theorem group_one (a : UInt8) :
    group [digit (a.toNat / 4), digit (a.toNat % 4 * 16), '=', '='] = some [a] := by
  have ha : a.toNat < 256 := a.toNat_lt
  have hbyte : UInt8.ofNat (a.toNat / 4 * 4 + a.toNat % 4 * 16 / 16) = a := by
    apply UInt8.toNat_inj.mp
    rw [UInt8.toNat_ofNat']
    omega
  rw [group, sextet_digit (by omega), sextet_digit (by omega)]
  simp only [Option.bind_eq_bind, Option.bind_some, Option.pure_def, hbyte]

theorem group_two (a b : UInt8) :
    group [digit (a.toNat / 4), digit (a.toNat % 4 * 16 + b.toNat / 16),
      digit (b.toNat % 16 * 4), '='] = some [a, b] := by
  have ha : a.toNat < 256 := a.toNat_lt
  have hb : b.toNat < 256 := b.toNat_lt
  have hfirst : UInt8.ofNat (a.toNat / 4 * 4 + (a.toNat % 4 * 16 + b.toNat / 16) / 16) = a := by
    apply UInt8.toNat_inj.mp
    rw [UInt8.toNat_ofNat']
    omega
  have hsecond : UInt8.ofNat ((a.toNat % 4 * 16 + b.toNat / 16) * 16 + b.toNat % 16 * 4 / 4) = b := by
    apply UInt8.toNat_inj.mp
    rw [UInt8.toNat_ofNat']
    omega
  rw [group, sextet_digit (by omega), sextet_digit (by omega), sextet_digit (by omega)]
  · simp only [Option.bind_eq_bind, Option.bind_some, Option.pure_def, hfirst, hsecond]
  · exact digit_ne_pad (by omega)

theorem group_three (a b c : UInt8) :
    group [digit (a.toNat / 4), digit (a.toNat % 4 * 16 + b.toNat / 16),
      digit (b.toNat % 16 * 4 + c.toNat / 64), digit (c.toNat % 64)] = some [a, b, c] := by
  have ha : a.toNat < 256 := a.toNat_lt
  have hb : b.toNat < 256 := b.toNat_lt
  have hc : c.toNat < 256 := c.toNat_lt
  have hfirst : UInt8.ofNat (a.toNat / 4 * 4 + (a.toNat % 4 * 16 + b.toNat / 16) / 16) = a := by
    apply UInt8.toNat_inj.mp
    rw [UInt8.toNat_ofNat']
    omega
  have hsecond : UInt8.ofNat ((a.toNat % 4 * 16 + b.toNat / 16) * 16 +
      (b.toNat % 16 * 4 + c.toNat / 64) / 4) = b := by
    apply UInt8.toNat_inj.mp
    rw [UInt8.toNat_ofNat']
    omega
  have hthird : UInt8.ofNat ((b.toNat % 16 * 4 + c.toNat / 64) * 64 + c.toNat % 64) = c := by
    apply UInt8.toNat_inj.mp
    rw [UInt8.toNat_ofNat']
    omega
  rw [group, sextet_digit (by omega), sextet_digit (by omega), sextet_digit (by omega),
    sextet_digit (by omega)]
  · simp only [Option.bind_eq_bind, Option.bind_some, Option.pure_def, hfirst, hsecond, hthird]
  · intro _ h
    exact digit_ne_pad (by omega) h
  · exact digit_ne_pad (by omega)

/-- **Reading back.**  The Base64 form of a byte string is read as that byte string. -/
theorem decode_encode (d : Data) : decode (encode d) = some d := by
  fun_induction encode d with
  | case1 => rfl
  | case2 a =>
      rw [decode, group_one]
      rfl
  | case3 a b =>
      rw [decode, group_two]
      rfl
  | case4 a b c rest ih =>
      have hc : digit (c.toNat % 64) ≠ '=' := digit_ne_pad (by omega)
      rw [decode, group_three, ih]
      simp [hc]

end Ashacky.Support.Base64
