import Mathlib.Data.List.Sort
import Ashacky.Control.Json

/-!
# Control — Serialization

The text that `JSONSerialization` writes for a value, with its default escapes and with sorted keys:
a slash in a string is written with a backslash before it.

* `length_serialize_obj`, `length_serialize_arr`: the size of a text, part by part.
* `printable_obj`, `printable_arr`: it is one line.
-/

namespace Ashacky.Control
open Ashacky.Support

/-- The bytes of a text that is ASCII. -/
def asciiBytes (s : String) : Data := s.toList.map fun c => UInt8.ofNat c.toNat

/-- A character within a string. -/
def escaped (c : Char) : Data :=
  if c = '"' then [0x5c, 0x22]
  else if c = '\\' then [0x5c, 0x5c]
  else if c = '/' then [0x5c, 0x2f]
  else if c.toNat = 8 then [0x5c, 0x62]
  else if c.toNat = 9 then [0x5c, 0x74]
  else if c.toNat = 10 then [0x5c, 0x6e]
  else if c.toNat = 12 then [0x5c, 0x66]
  else if c.toNat = 13 then [0x5c, 0x72]
  else if c.toNat < 32 then
    [0x5c, 0x75, 0x30, 0x30] ++
      asciiBytes (String.ofList [Nat.digitChar (c.toNat / 16), Nat.digitChar (c.toNat % 16)])
  else String.utf8EncodeChar c

def quoted (s : String) : Data := 0x22 :: (s.toList.flatMap escaped ++ [0x22])

def decimal : Int → Data
  | .ofNat n => asciiBytes (String.ofList (Nat.toDigits 10 n))
  | .negSucc n => 0x2d :: asciiBytes (String.ofList (Nat.toDigits 10 (n + 1)))

/-- The members of an object, by their keys. -/
def sortedKeys (m : List (String × Data)) : List (String × Data) :=
  m.insertionSort fun a b => a.1 ≤ b.1

/-- The text of a member. -/
def member (e : String × Data) : Data := quoted e.1 ++ 0x3a :: e.2

mutual

/-- `JSONSerialization.data(withJSONObject:options: [.sortedKeys])`. -/
def serialize : Json → Data
  | .null => asciiBytes "null"
  | .bool b => asciiBytes (if b then "true" else "false")
  | .int n => decimal n
  | .float text => asciiBytes text
  | .str s => quoted s
  | .arr a => 0x5b :: ([0x2c].intercalate (serializeList a) ++ [0x5d])
  | .obj m => 0x7b :: ([0x2c].intercalate ((sortedKeys (serializeEntries m)).map member) ++ [0x7d])

def serializeList : List Json → List Data
  | [] => []
  | v :: rest => serialize v :: serializeList rest

def serializeEntries : List (String × Json) → List (String × Data)
  | [] => []
  | (key, v) :: rest => (key, serialize v) :: serializeEntries rest

end

/-- The elements of an array are serialized one by one. -/
theorem serializeList_eq_map (a : List Json) : serializeList a = a.map serialize := by
  induction a with
  | nil => rfl
  | cons v rest ih => rw [serializeList, ih, List.map_cons]

/-- The values of an object are serialized one by one, under their keys. -/
theorem serializeEntries_eq_map (m : List (String × Json)) :
    serializeEntries m = m.map fun e => (e.1, serialize e.2) := by
  induction m with
  | nil => rfl
  | cons e rest ih => rw [serializeEntries, ih, List.map_cons]

/-! ### Size -/

/-- Parts joined with commas have the length of the parts, with one byte for each but the last. -/
theorem length_intercalate_comma {parts : List Data} (h : parts ≠ []) :
    ([0x2c].intercalate parts).length + 1 = (parts.map fun p => p.length + 1).sum := by
  induction parts with
  | nil => exact absurd rfl h
  | cons p rest ih =>
      cases rest with
      | nil => simp
      | cons q rest =>
          have hrest := ih (List.cons_ne_nil q rest)
          rw [List.intercalate_cons_cons]
          simp only [List.length_append, List.map_cons, List.sum_cons, List.length_singleton] at hrest ⊢
          omega

/-- The size of a text in a list or an object, with its comma. -/
theorem length_serialize_arr {a : List Json} (h : a ≠ []) :
    (serialize (.arr a)).length = (a.map fun v => (serialize v).length + 1).sum + 1 := by
  have hparts : serializeList a ≠ [] := by
    rwa [serializeList_eq_map, Ne, List.map_eq_nil_iff]
  have hcomma := length_intercalate_comma hparts
  rw [serializeList_eq_map, List.map_map] at hcomma
  rw [serialize, List.length_cons, List.length_append, List.length_singleton, serializeList_eq_map,
    hcomma]
  rfl

/-- The size of a member, with its colon and its comma. -/
def memberSize (e : String × Json) : Nat := (quoted e.1).length + (serialize e.2).length + 2

/-- The size of an object does not depend on the order of its members. -/
theorem length_serialize_obj {m : List (String × Json)} (h : m ≠ []) :
    (serialize (.obj m)).length = (m.map memberSize).sum + 1 := by
  have hperm : (sortedKeys (serializeEntries m)).Perm (serializeEntries m) :=
    List.perm_insertionSort _ _
  have hparts : (sortedKeys (serializeEntries m)).map member ≠ [] := by
    rw [Ne, List.map_eq_nil_iff]
    intro hnil
    rw [hnil] at hperm
    have hentries := hperm.nil_eq.symm
    rw [serializeEntries_eq_map, List.map_eq_nil_iff] at hentries
    exact h hentries
  have hcomma := length_intercalate_comma hparts
  have hsum : ((sortedKeys (serializeEntries m)).map fun e => (member e).length + 1).sum =
      (m.map memberSize).sum := by
    rw [(hperm.map _).sum_nat, serializeEntries_eq_map, List.map_map]
    refine congrArg List.sum (List.map_congr_left fun e _ => ?_)
    simp only [Function.comp_apply, member, memberSize, List.length_append, List.length_cons]
    omega
  rw [List.map_map] at hcomma
  rw [serialize, List.length_cons, List.length_append, List.length_singleton, hcomma]
  exact congrArg (· + 1) hsum

/-! ### One line -/

/-- No control character, in particular no newline. -/
def Printable (d : Data) : Prop := ∀ b ∈ d, (32 : UInt8) ≤ b

/-- Printable bytes hold no line feed. -/
theorem Printable.newline {d : Data} (h : Printable d) : 10 ∉ d := fun hmem => absurd (h 10 hmem) (by decide)

/-- No bytes are printable bytes. -/
theorem Printable.nil : Printable [] := nofun

/-- Printability can be checked byte by byte. -/
theorem Printable.of_all {d : Data} (h : (d.all fun b => decide (32 ≤ b)) = true) : Printable d :=
  fun b hb => of_decide_eq_true (List.all_eq_true.mp h b hb)

/-- Printable texts can be joined. -/
theorem Printable.append {a b : Data} (ha : Printable a) (hb : Printable b) : Printable (a ++ b) := by
  intro x hx
  rcases List.mem_append.mp hx with hx | hx
  · exact ha x hx
  · exact hb x hx

/-- A printable byte can be put before a printable text. -/
theorem Printable.cons {x : UInt8} {d : Data} (hx : 32 ≤ x) (hd : Printable d) : Printable (x :: d) := by
  intro y hy
  rcases List.mem_cons.mp hy with rfl | hy
  · exact hx
  · exact hd y hy

/-- A number from 32 to 255 keeps its bound as a byte. -/
theorem le_ofNat {n : Nat} (h : 32 ≤ n) (h' : n < 256) : (32 : UInt8) ≤ UInt8.ofNat n := by
  rw [UInt8.le_iff_toNat_le, UInt8.toNat_ofNat', Nat.mod_eq_of_lt h']
  exact h

/-- The UTF-8 form of a character from U+0020 on has no control byte. -/
theorem printable_utf8 {c : Char} (h : 32 ≤ c.toNat) : Printable (String.utf8EncodeChar c) := by
  have hvalue : c.val.toNat = c.toNat := rfl
  intro b hb
  simp only [String.utf8EncodeChar, hvalue] at hb
  split at hb
  · obtain rfl := List.mem_singleton.mp hb
    exact le_ofNat h (by omega)
  · split at hb
    · simp only [List.mem_cons, List.not_mem_nil, or_false] at hb
      rcases hb with rfl | rfl <;> exact le_ofNat (by omega) (by omega)
    · split at hb
      · simp only [List.mem_cons, List.not_mem_nil, or_false] at hb
        rcases hb with rfl | rfl | rfl <;> exact le_ofNat (by omega) (by omega)
      · simp only [List.mem_cons, List.not_mem_nil, or_false] at hb
        rcases hb with rfl | rfl | rfl | rfl <;> exact le_ofNat (by omega) (by omega)

/-- The escape of a control character is printable. -/
theorem printable_control : ∀ n < 32, Printable ([0x5c, 0x75, 0x30, 0x30] ++
    asciiBytes (String.ofList [Nat.digitChar (n / 16), Nat.digitChar (n % 16)])) := by
  have hall : ∀ n < 32, (([0x5c, 0x75, 0x30, 0x30] ++
      asciiBytes (String.ofList [Nat.digitChar (n / 16), Nat.digitChar (n % 16)])).all
        fun b => decide (32 ≤ b)) = true := by
    decide
  exact fun n hn => .of_all (hall n hn)

/-- A choice between two texts is printable when each is, where it is taken. -/
theorem Printable.ite {p : Prop} [Decidable p] {d d' : Data} (hd : p → Printable d)
    (hd' : ¬ p → Printable d') : Printable (if p then d else d') := by
  by_cases hp : p
  · rw [if_pos hp]
    exact hd hp
  · rw [if_neg hp]
    exact hd' hp

/-- Every character is printable once it is escaped. -/
theorem printable_escaped (c : Char) : Printable (escaped c) := by
  rw [escaped]
  -- the escapes of one character, then a control character and any other one
  iterate 8 refine .ite (fun _ => .of_all rfl) fun _ => ?_
  exact .ite (printable_control _) fun h => printable_utf8 (Nat.le_of_not_lt h)

/-- A quoted string is printable, whatever the string holds. -/
theorem printable_quoted (s : String) : Printable (quoted s) := by
  refine .cons (by decide) (.append (fun b hb => ?_) (.cons (by decide) .nil))
  obtain ⟨c, -, hc⟩ := List.mem_flatMap.mp hb
  exact printable_escaped c b hc

/-- Decimal digits are printable. -/
theorem printable_digits (n : Nat) : Printable (asciiBytes (String.ofList (Nat.toDigits 10 n))) := by
  intro b hb
  obtain ⟨c, hc, rfl⟩ := List.mem_map.mp hb
  rw [String.toList_ofList] at hc
  have hdigit := Nat.isDigit_of_mem_toDigits (by decide) (by decide) hc
  have hrange : 48 ≤ c.toNat ∧ c.toNat ≤ 57 := Char.isDigit_iff_toNat.mp hdigit
  exact le_ofNat (by omega) (by omega)

/-- A decimal number is printable, its sign included. -/
theorem printable_decimal (n : Int) : Printable (decimal n) := by
  cases n with
  | ofNat n => exact printable_digits n
  | negSucc n => exact .cons (by decide) (printable_digits (n + 1))

/-- Printable parts joined with commas are printable. -/
theorem printable_intercalate {parts : List Data} (h : ∀ p ∈ parts, Printable p) :
    Printable ([0x2c].intercalate parts) := by
  induction parts with
  | nil =>
      intro b hb
      cases hb
  | cons p rest ih =>
      have hp := h p List.mem_cons_self
      cases rest with
      | nil => simpa using hp
      | cons q rest =>
          rw [List.intercalate_cons_cons]
          exact (hp.append (.cons (by decide) .nil)).append
            (ih fun r hr => h r (List.mem_cons_of_mem p hr))

/-- An array is printable when its elements are. -/
theorem printable_arr {a : List Json} (h : ∀ v ∈ a, Printable (serialize v)) :
    Printable (serialize (.arr a)) := by
  rw [serialize, serializeList_eq_map]
  refine .cons (by decide) (.append (printable_intercalate fun p hp => ?_) (.cons (by decide) .nil))
  obtain ⟨v, hv, rfl⟩ := List.mem_map.mp hp
  exact h v hv

/-- An object is printable when its values are: the keys are quoted. -/
theorem printable_obj {m : List (String × Json)} (h : ∀ e ∈ m, Printable (serialize e.2)) :
    Printable (serialize (.obj m)) := by
  rw [serialize, serializeEntries_eq_map]
  refine .cons (by decide) (.append (printable_intercalate fun p hp => ?_) (.cons (by decide) .nil))
  obtain ⟨e, he, rfl⟩ := List.mem_map.mp hp
  obtain ⟨e', he', rfl⟩ := List.mem_map.mp ((List.perm_insertionSort _ _).mem_iff.mp he)
  exact (printable_quoted _).append (.cons (by decide) (h e' he'))

end Ashacky.Control
