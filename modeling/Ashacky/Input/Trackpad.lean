import Mathlib.Data.Rat.Floor
import Ashacky.Support.Dictionary
import Ashacky.Support.Machine
import Ashacky.Support.Multitouch

/-!
# Input — Trackpad

`guest/input/trackpad.py`: the host's touch frames become the events of a type-B multitouch
touchpad.  `validate` takes a frame from what `json.loads` gave; `Pad.frame` gives each contact a
slot, which it keeps while it is held, and writes what changed.

A float is its exact value, or none if it is not finite; products and their rounding are exact.  Of
two entries of an object under one key there is only the last.  What raises gives nothing.
-/

namespace Ashacky.Input
open Ashacky.Support Multitouch

/-! ### `validate` -/

/-- What `json.loads` gives. -/
inductive Value where
  | null
  | bool (b : Bool)
  | int (n : Int)
  | float (x : Option ℚ)
  | str (s : String)
  | list (items : List Value)
  | dict (entries : List (String × Value))

structure Point where
  ident : Nat
  x : ℚ
  y : ℚ
deriving DecidableEq

structure Frame where
  points : List Point
  buttons : Nat
deriving DecidableEq

/-- The number, if `type(n) in (int,float) and 0<=n<=1`. -/
def coordinate : Value → Option ℚ
  | .int n => if 0 ≤ n ∧ n ≤ 1 then some n else none
  | .float (some x) => if 0 ≤ x ∧ x ≤ 1 then some x else none
  | _ => none

/-- The identity, unless `type(i)!=int or not 0<=i<65536 or i in seen`. -/
def identity (seen : List Nat) : Value → Option Nat
  | .int n => if 0 ≤ n ∧ n < 65536 ∧ n.toNat ∉ seen then some n.toNat else none
  | _ => none

/-- A turn of the loop over the points. -/
def validatePoint (seen : List Nat) : Value → Except String Point
  | .list [i, x, y] =>
      match identity seen i with
      | none => .error "identity"
      | some ident =>
          match coordinate x, coordinate y with
          | some x, some y => .ok ⟨ident, x, y⟩
          | _, _ => .error "coordinate"
  | _ => .error "point"

/-- The loop over the points. -/
def validatePoints (seen : List Nat) : List Value → Except String (List Point)
  | [] => .ok []
  | p :: rest => do
      let point ← validatePoint seen p
      let points ← validatePoints (point.ident :: seen) rest
      return point :: points

/-- The buttons of a frame. -/
def validateButtons : Value → Except String Nat
  | .int n => if 0 ≤ n ∧ n ≤ 7 then .ok n.toNat else .error "buttons"
  | _ => .error "buttons"

/-- `validate`. -/
def validate : Value → Except String Frame
  | .dict v =>
      match v.lookup "touches" with
      | some (.list touches) =>
          if touches.length > 10 then .error "touch count"
          else do
            let points ← validatePoints [] touches
            let buttons ← validateButtons ((v.lookup "buttons").getD (.int 0))
            return ⟨points, buttons⟩
      | _ => .error "touch count"
  | _ => .error "frame"

/-! ### `Pad` -/

/-- `round`: to the nearest integer, and to the even one of two. -/
def roundEven (x : ℚ) : Int :=
  if x - ⌊x⌋ < 1 / 2 then ⌊x⌋
  else if 1 / 2 < x - ⌊x⌋ then ⌊x⌋ + 1
  else if ⌊x⌋ % 2 = 0 then ⌊x⌋ else ⌊x⌋ + 1

def Point.column (p : Point) : Int := roundEven (p.x * 13000)

def Point.row (p : Point) : Int := roundEven (p.y * 8000)

/-- The keys of the touchpad. -/
inductive Key where
  | btnTouch
  | btnToolFinger | btnToolDoubletap | btnToolTripletap | btnToolQuadtap | btnToolQuinttap
  | btnLeft | btnRight | btnMiddle
deriving DecidableEq

abbrev Writes := List (Write Key)

/-- `self.slots`: the slots of the contacts, by their identities. -/
abbrev Slots := List (Nat × Nat)

structure Pad where
  slots : Slots
  buttons : Nat
deriving DecidableEq

namespace Pad

def new : Pad := ⟨[], 0⟩

/-- The loop over `list(self.slots)`: what is no longer touched is released. -/
def release (ids : List Nat) : List Nat → Slots → Option (Writes × Slots)
  | [], slots => some ([], slots)
  | ident :: idents, slots =>
      if ident ∈ ids then release ids idents slots
      else do
        let slot ← slots.lookup ident
        let (writes, slots) ← release ids idents (slots.filter (·.1 ≠ ident))
        return (.abs .slot slot :: .abs .trackingId (-1) :: writes, slots)

/-- `next(n for n in range(10) if n not in self.slots.values())`. -/
def freeSlot (slots : Slots) : Option Nat :=
  (List.range 10).find? (· ∉ slots.map Prod.snd)

/-- The slots once a point has one. -/
def assign (p : Point) (slots : Slots) : Option Slots :=
  if (slots.lookup p.ident).isNone then (freeSlot slots).map (put slots p.ident) else some slots

/-- The loop over the points. -/
def place : List Point → Slots → Option (Writes × Slots)
  | [], slots => some ([], slots)
  | p :: points, slots => do
      let new := if (slots.lookup p.ident).isNone then some (p.ident : Int) else none
      let slots ← assign p slots
      let slot ← slots.lookup p.ident
      let (writes, slots) ← place points slots
      return (Device.touch slot new p.column p.row ++ writes, slots)

/-- `ABS_X` and `ABS_Y`, of the first point. -/
def pointer : List Point → Writes
  | [] => []
  | p :: _ => [.abs .x p.column, .abs .y p.row]

/-- The keys of a frame. -/
def keys (f : Frame) : List (Key × Int) :=
  (.btnTouch, if f.points = [] then 0 else 1) ::
    ([(1, Key.btnToolFinger), (2, .btnToolDoubletap), (3, .btnToolTripletap), (4, .btnToolQuadtap),
        (5, .btnToolQuinttap)].map fun (count, code) =>
      (code, if min 5 f.points.length = count then (1 : Int) else 0)) ++
    [(0, Key.btnLeft), (1, .btnRight), (2, .btnMiddle)].map fun (bit, code) =>
      (code, if f.buttons &&& (1 <<< bit) ≠ 0 then (1 : Int) else 0)

/-- `frame`. -/
def frame (pad : Pad) (f : Frame) : Option (Writes × Pad) := do
  let (released, slots) ← release (f.points.map Point.ident) (pad.slots.map Prod.fst) pad.slots
  let (placed, slots) ← place f.points slots
  return (released ++ placed ++ pointer f.points ++ ((keys f).map fun e => .key e.1 e.2) ++ [.syn],
    ⟨slots, f.buttons⟩)

/-- A run of frames, with what is written for each. -/
abbrev Run : Pad → List (Frame × Writes) → Pad → Prop :=
  Steps fun pad f writes pad' => pad.frame f = some (writes, pad')

end Pad

end Ashacky.Input
