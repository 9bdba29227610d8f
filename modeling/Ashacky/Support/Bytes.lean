import Mathlib.Tactic.Ring
import Mathlib.Data.List.Basic
import Mathlib.Data.UInt

/-!
# Support — Bytes

Numerals over byte lists, in both byte orders, and the two list operations every fixed-size
report format is written with: a slice and zero padding on the right.

* `beNat_beBytes`, `beBytes_beNat`: a numeral of width `k` and its value determine each other
  below `256 ^ k`; `leNat_leBytes` is the same for the other byte order.
* `slice_append_left`, `slice_append_right`, `slice_padRight`: a slice of a concatenation that
  lies in one part is a slice of that part, and padding does not disturb what stands before it.
-/

namespace Ashacky.Support

/-- A byte string. -/
abbrev Data := List UInt8

/-! ### Big-endian numerals -/

/-- The number a byte string denotes, most significant byte first. -/
def beNat (d : Data) : Nat := d.foldl (fun n b => n * 256 + b.toNat) 0

/-- The `k` low bytes of `n`, most significant first. -/
def beBytes : Nat → Nat → Data
  | 0, _ => []
  | k + 1, n => beBytes k (n / 256) ++ [UInt8.ofNat n]

@[simp] theorem length_beBytes (k n : Nat) : (beBytes k n).length = k := by
  induction k generalizing n with
  | zero => rfl
  | succ k ih => simp [beBytes, ih]

@[simp] theorem beNat_nil : beNat [] = 0 := rfl

@[simp] theorem beNat_snoc (d : Data) (b : UInt8) : beNat (d ++ [b]) = beNat d * 256 + b.toNat := by
  simp [beNat]

/-- Reading back the `k` low bytes of `n` gives `n` modulo `256 ^ k`. -/
theorem beNat_beBytes_mod (k n : Nat) : beNat (beBytes k n) = n % 256 ^ k := by
  induction k generalizing n with
  | zero => simp [beBytes, Nat.mod_one]
  | succ k ih =>
      rw [beBytes, beNat_snoc, ih, UInt8.toNat_ofNat', pow_succ' 256 k, Nat.mod_mul]
      ring

/-- A number that fits is read back unchanged. -/
theorem beNat_beBytes {k n : Nat} (h : n < 256 ^ k) : beNat (beBytes k n) = n := by
  rw [beNat_beBytes_mod, Nat.mod_eq_of_lt h]

theorem beNat_lt (d : Data) : beNat d < 256 ^ d.length := by
  induction d using List.reverseRecOn with
  | nil => simp
  | append_singleton d b ih =>
      have hb : b.toNat < 256 := b.toNat_lt
      rw [beNat_snoc, List.length_append, List.length_singleton, pow_succ]
      omega

/-- A byte string is the numeral of its value at its own width. -/
theorem beBytes_beNat (d : Data) : beBytes d.length (beNat d) = d := by
  induction d using List.reverseRecOn with
  | nil => rfl
  | append_singleton d b ih =>
      have hb : b.toNat < 256 := b.toNat_lt
      have hdiv : (beNat d * 256 + b.toNat) / 256 = beNat d := by omega
      have hlow : UInt8.ofNat (beNat d * 256 + b.toNat) = b := by
        apply UInt8.toNat_inj.mp
        rw [UInt8.toNat_ofNat']
        omega
      rw [beNat_snoc, List.length_append, List.length_singleton, beBytes, hdiv, ih, hlow]

/-! ### Little-endian numerals -/

/-- The number a byte string denotes, least significant byte first. -/
def leNat (d : Data) : Nat := beNat d.reverse

/-- The `k` low bytes of `n`, least significant first. -/
def leBytes (k n : Nat) : Data := (beBytes k n).reverse

@[simp] theorem length_leBytes (k n : Nat) : (leBytes k n).length = k := by simp [leBytes]

theorem leNat_leBytes {k n : Nat} (h : n < 256 ^ k) : leNat (leBytes k n) = n := by
  rw [leNat, leBytes, List.reverse_reverse, beNat_beBytes h]

theorem leNat_leBytes_uint32 (n : UInt32) : UInt32.ofNat (leNat (leBytes 4 n.toNat)) = n := by
  rw [leNat_leBytes (by simpa using n.toNat_lt), UInt32.ofNat_toNat]

theorem leNat_leBytes_uint16 (n : UInt16) : UInt16.ofNat (leNat (leBytes 2 n.toNat)) = n := by
  rw [leNat_leBytes (by simpa using n.toNat_lt), UInt16.ofNat_toNat]

/-! ### Slices and padding -/

/-- `d[i:j]`, clipped to the string as in Python. -/
def slice (d : Data) (i j : Nat) : Data := (d.drop i).take (j - i)

/-- `d.ljust(n, b'\0')`. -/
def padRight (n : Nat) (d : Data) : Data := d ++ List.replicate (n - d.length) 0

@[simp] theorem length_slice (d : Data) (i j : Nat) :
    (slice d i j).length = min (j - i) (d.length - i) := by
  simp [slice]

theorem length_padRight {n : Nat} {d : Data} (h : d.length ≤ n) : (padRight n d).length = n := by
  simp [padRight]
  omega

/-- A slice that ends inside the left part is a slice of it. -/
theorem slice_append_left {a : Data} (b : Data) {i j : Nat} (h : j ≤ a.length) :
    slice (a ++ b) i j = slice a i j := by
  rcases Nat.le_total i j with hij | hij
  · rw [slice, slice, List.drop_append_of_le_length (hij.trans h), List.take_append_of_le_length]
    simp
    omega
  · simp [slice, Nat.sub_eq_zero_of_le hij]

/-- A slice that starts after the left part is a slice of the right part. -/
theorem slice_append_right {a : Data} (b : Data) {i j : Nat} (h : a.length ≤ i) :
    slice (a ++ b) i j = slice b (i - a.length) (j - a.length) := by
  rw [slice, slice, List.drop_append, List.drop_eq_nil_of_le h, List.nil_append,
    Nat.sub_sub_sub_cancel_right h]

/-- Padding leaves every slice before it alone. -/
theorem slice_padRight {n : Nat} {d : Data} {i j : Nat} (h : j ≤ d.length) :
    slice (padRight n d) i j = slice d i j :=
  slice_append_left _ h

/-- The slice `[0, |d|)`. -/
@[simp] theorem slice_self (d : Data) : slice d 0 d.length = d := by simp [slice]

end Ashacky.Support
