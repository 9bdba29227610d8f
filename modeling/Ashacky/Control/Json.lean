import Ashacky.Support.Lines

/-!
# Control — JSON

The values of the control channel, and what the two ends take from their libraries: `json` and
`uuid` on the guest, `JSONSerialization` and `UUID` on the host.  An object is the list of its
entries, in some order; a string is one of Unicode scalars.

A number is `int` when the side that reads it reads an integer (Python's `int`, an `NSNumber` of an
integer type) and `float` otherwise.  `Exchange` says what is assumed of a writer on one side and
the reader on the other: texts of objects without a newline or a NUL, no object read from a text
that is not one, and the entries that were written, up to how numbers are read.
-/

namespace Ashacky.Control
open Ashacky.Support

inductive Json where
  | null
  | bool (b : Bool)
  | int (n : Int)
  | float (text : String)
  | str (s : String)
  | arr (a : List Json)
  | obj (m : List (String × Json))

mutual

/-- The values are equal. -/
def Json.beq : Json → Json → Bool
  | .null, .null => true
  | .bool a, .bool b => a = b
  | .int a, .int b => a = b
  | .float a, .float b => a = b
  | .str a, .str b => a = b
  | .arr a, .arr b => Json.beqList a b
  | .obj m, .obj n => Json.beqEntries m n
  | _, _ => false

def Json.beqList : List Json → List Json → Bool
  | [], [] => true
  | a :: as, b :: bs => a.beq b && Json.beqList as bs
  | _, _ => false

def Json.beqEntries : List (String × Json) → List (String × Json) → Bool
  | [], [] => true
  | (k, a) :: m, (l, b) :: n => k = l && a.beq b && Json.beqEntries m n
  | _, _ => false

end

mutual

/-- The comparison of values is equality. -/
theorem Json.beq_iff : ∀ a b : Json, a.beq b = true ↔ a = b
  | .null, b | .bool _, b | .int _, b | .float _, b | .str _, b => by
      cases b <;> simp [Json.beq]
  | .arr a, b => by
      cases b <;> simp [Json.beq, Json.beqList_iff a]
  | .obj m, b => by
      cases b <;> simp [Json.beq, Json.beqEntries_iff m]

theorem Json.beqList_iff : ∀ a b : List Json, Json.beqList a b = true ↔ a = b
  | [], b => by cases b <;> simp [Json.beqList]
  | a :: as, b => by
      cases b <;> simp [Json.beqList, Json.beq_iff a, Json.beqList_iff as]

theorem Json.beqEntries_iff : ∀ m n : List (String × Json), Json.beqEntries m n = true ↔ m = n
  | [], n => by cases n <;> simp [Json.beqEntries]
  | (k, a) :: m, n => by
      cases n <;> simp [Json.beqEntries, Json.beq_iff a, Json.beqEntries_iff m, Prod.ext_iff]

end

instance : DecidableEq Json := fun a b => decidable_of_iff _ (Json.beq_iff a b)

abbrev Object := List (String × Json)

/-- The string, if the value is one. -/
def Json.string : Json → Option String
  | .str s => some s
  | _ => none

/-- The object, if the value is one. -/
def Json.object : Json → Option Object
  | .obj m => some m
  | _ => none

namespace Object

/-- The string at a key, if there is one. -/
def text (value : Object) (key : String) : Option String := (value.lookup key).bind Json.string

/-- The object at a key, if there is one. -/
def object (value : Object) (key : String) : Option Object := (value.lookup key).bind Json.object

/-- `dict(value, key=item)`: the item takes the place of an earlier one at its key. -/
def set (value : Object) (key : String) (item : Json) : Object :=
  match value.lookup key with
  | none => value ++ [(key, item)]
  | some _ => value.map fun e => if e.1 = key then (key, item) else e

/-- A key that is set has its item. -/
theorem lookup_set (value : Object) (key : String) (item : Json) :
    (set value key item).lookup key = some item := by
  rw [set]
  split
  · rename_i h
    rw [List.lookup_append, h]
    simp
  · rename_i old h
    induction value with
    | nil => cases h
    | cons e value ih =>
        rw [List.map_cons, List.lookup_cons]
        by_cases he : e.1 = key
        · rw [if_pos he, beq_self_eq_true]
        · have hne : (key == e.1) = false := by simpa using fun h => he h.symm
          rw [List.lookup_cons, hne] at h
          rw [if_neg he, hne]
          exact ih h

end Object

/-! ### What one side writes and the other reads -/

/-- The two ends of one direction of the channel. -/
structure Exchange where
  /-- The text is one that is written for the object. -/
  writes : Object → Data → Prop
  read : Data → Option Object
  /-- How a written value is read. -/
  cross : Json → Json
  isObject : ∀ {m x}, writes m x → IsObject x
  plain : ∀ {m x}, writes m x → ∀ c ∈ x, Plain c
  accepted : ∀ {s v}, (∀ c ∈ s, Plain c) → read s = some v → Accepted s
  behind : ∀ {m x b v}, writes m x → (∀ c ∈ b, blank c) → read (b ++ x) = some v →
    ∀ key, v.lookup key = (m.lookup key).map cross
  cross_str : ∀ s, cross (.str s) = .str s
  cross_int : ∀ n n', cross (.int n) = .int n' → n' = n

namespace Exchange

variable (X : Exchange)

/-- The wire of frames with the given entries. -/
def wire {α : Type} (entries : α → Object) : Wire α Object where
  writes a := X.writes (entries a)
  read := X.read
  value a v := ∀ key, v.lookup key = ((entries a).lookup key).map X.cross
  isObject := X.isObject
  plain := X.plain
  accepted := X.accepted
  behind := X.behind

/-- The second object is the first, as it is read. -/
def Reads (m v : Object) : Prop := ∀ key, v.lookup key = (m.lookup key).map X.cross

variable {X} {m v : Object}

/-- A string crosses the wire as it was. -/
theorem text_eq (h : ∀ key, v.lookup key = (m.lookup key).map X.cross) (key : String) {s : String}
    (hm : m.lookup key = some (.str s)) : Object.text v key = some s := by
  rw [Object.text, h, hm, Option.map_some, X.cross_str]
  rfl

/-- A key that is missing is missing behind the wire. -/
theorem text_eq_none (h : ∀ key, v.lookup key = (m.lookup key).map X.cross) (key : String)
    (hm : m.lookup key = none) : Object.text v key = none := by
  rw [Object.text, h, hm]
  rfl

end Exchange

/-! ### Finitely many texts -/

/-- Finitely many objects, each with a text of its own. -/
structure Texts where
  table : List (Object × Data)
  wellFormed : (table.all fun e => IsObject e.2 && e.2.all fun c => c ≠ 0 && c ≠ 10) = true
  nodup : (table.map Prod.snd).Nodup

namespace Texts

variable (T : Texts)

def write (m : Object) : Option Data := (T.table.find? (·.1 = m)).map Prod.snd

def read (l : Data) : Option Object := (T.table.find? (·.2 = l)).map Prod.fst

variable {T} {m : Object} {x : Data}

/-- What is written stands in the table. -/
theorem mem_of_write (h : T.write m = some x) : (m, x) ∈ T.table := by
  obtain ⟨e, he, rfl⟩ := Option.map_eq_some_iff.mp h
  obtain rfl : e.1 = m := by simpa using List.find?_some he
  exact List.mem_of_find?_eq_some he

/-- What is read stands in the table. -/
theorem mem_of_read (h : T.read x = some m) : (m, x) ∈ T.table := by
  obtain ⟨e, he, rfl⟩ := Option.map_eq_some_iff.mp h
  obtain rfl : e.2 = x := by simpa using List.find?_some he
  exact List.mem_of_find?_eq_some he

/-- Every text of the table is an object. -/
theorem isObject_of_mem (h : (m, x) ∈ T.table) : IsObject x := by
  have := List.all_eq_true.mp T.wellFormed _ h
  simp only [Bool.and_eq_true, decide_eq_true_eq] at this
  exact this.1

/-- No text of the table has a control character. -/
theorem plain_of_mem (h : (m, x) ∈ T.table) : ∀ c ∈ x, Plain c := by
  have := List.all_eq_true.mp T.wellFormed _ h
  simp only [Bool.and_eq_true, List.all_eq_true, decide_eq_true_eq] at this
  exact this.2

variable (T)

/-- The exchange of these texts. -/
def exchange : Exchange where
  writes m x := (m, x) ∈ T.table
  read := T.read
  cross := id
  isObject := isObject_of_mem
  plain := plain_of_mem
  accepted _ h := (isObject_of_mem (mem_of_read h)).accepted
  behind := by
    intro m x b v hm hb hv key
    have hv := mem_of_read hv
    -- an object starts with a brace, so no blank stands before it
    obtain rfl : b = [] := by
      cases b with
      | nil => rfl
      | cons c b =>
          obtain ⟨body, hbody, -⟩ := isObject_of_mem hv
          obtain rfl := (List.cons.inj hbody).1
          exact absurd (hb _ List.mem_cons_self) (by decide)
    obtain rfl : m = v := congrArg Prod.fst (List.inj_on_of_nodup_map T.nodup hm hv rfl)
    simp
  cross_str _ := rfl
  cross_int _ _ h := (Json.int.inj h).symm

end Texts

/-! ### The libraries -/

/-- What a Python function raises: a `ValueError` or an `OSError`, or something else. -/
inductive Raised where
  | caught
  | uncaught
  deriving DecidableEq

/-- What the broker takes from Python's library. -/
structure Python where
  /-- `json.dumps(value, allow_nan=False).encode()`, with compact separators or not. -/
  dumps (compact : Bool) : Json → Except Raised Data
  /-- `json.loads`. -/
  loads : Data → Except Raised Json
  /-- `uuid.UUID` accepts the string. -/
  isUUID : String → Bool
  /-- `str`. -/
  str : Json → String
  /-- `str(uuid.uuid4())`, as drawn by the n-th broker. -/
  uuid4 : Nat → String
  uuid4_inj : ∀ {i j}, uuid4 i = uuid4 j → i = j

/-- What the channel takes from Foundation. -/
structure Foundation where
  /-- `JSONSerialization.jsonObject(with:)`. -/
  jsonObject : Data → Option Json
  /-- `JSONSerialization.data(withJSONObject:)`. -/
  data : Object → Option Data
  /-- `UUID(uuidString:)` is not nil. -/
  isUUID : String → Bool
  /-- `UUID().uuidString`, as drawn the n-th time for a session. -/
  uuidString : Nat → String
  uuidString_inj : ∀ {i j}, uuidString i = uuidString j → i = j

/-- The line that `controlFailed` writes: `{"version":1,"type":"reset"}`. -/
def resetText : Data :=
  [0x7b, 0x22, 0x76, 0x65, 0x72, 0x73, 0x69, 0x6f, 0x6e, 0x22, 0x3a, 0x31, 0x2c, 0x22, 0x74, 0x79,
    0x70, 0x65, 0x22, 0x3a, 0x22, 0x72, 0x65, 0x73, 0x65, 0x74, 0x22, 0x7d]

/-- The object of that line. -/
def resetObject : Object := [("version", .int 1), ("type", .str "reset")]

/-- The two ends, with their common token and what each reads of what the other writes. -/
structure Setting where
  python : Python
  foundation : Foundation
  token : String
  toHost : Exchange
  toGuest : Exchange
  toHost_writes : ∀ {m x}, python.dumps true (.obj m) = .ok x → toHost.writes m x
  toHost_read : ∀ l, toHost.read l = (foundation.jsonObject l).bind Json.object
  toGuest_writes : ∀ {m x}, foundation.data m = some x → toGuest.writes m x
  toGuest_reset : toGuest.writes resetObject resetText
  toGuest_read : ∀ l, toGuest.read l = (python.loads (l ++ [10])).toOption.bind Json.object

end Ashacky.Control
