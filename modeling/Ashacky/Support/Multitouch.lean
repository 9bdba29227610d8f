import Mathlib.Data.List.Basic
import Mathlib.Logic.Function.Basic

/-!
# Support — Multitouch

The type-B multitouch protocol: a device reports its contacts slot by slot.  `ABS_MT_SLOT` selects a
slot; what follows is about this slot.  A tracking identity starts a contact there, or ends it if it
is negative.  The device has keys of any kind beside.

* `replay_release`: what a slot and an end of its contact leave.
* `replay_touch`: what a slot, perhaps a new identity, and a position leave.
* `replay_key`, `slots_replay_keys`: the keys do not matter to the slots, and are set one by one.
-/

namespace Ashacky.Support.Multitouch

/-- The axes. -/
inductive Axis where
  | slot | trackingId | positionX | positionY | x | y
deriving DecidableEq

/-- What is written to the device. -/
inductive Write (κ : Type) where
  | abs (axis : Axis) (value : Int)
  | key (code : κ) (value : Int)
  | syn
deriving DecidableEq

structure Slot where
  trackingId : Int
  x : Int
  y : Int
deriving DecidableEq

/-- What is known of the device. -/
structure Device (κ : Type) where
  selected : Int
  slots : Int → Slot
  keys : κ → Int
  x : Int
  y : Int

variable {κ : Type}

namespace Device

/-- No contact, and no key pressed. -/
def new : Device κ := ⟨0, fun _ => ⟨-1, 0, 0⟩, fun _ => 0, 0, 0⟩

/-- The selected slot is changed. -/
def onSelected (d : Device κ) (f : Slot → Slot) : Device κ :=
  { d with slots := Function.update d.slots d.selected (f (d.slots d.selected)) }

/-- The meaning of a write. -/
def apply [DecidableEq κ] (d : Device κ) : Write κ → Device κ
  | .abs .slot value => { d with selected := value }
  | .abs .trackingId value => d.onSelected fun s => { s with trackingId := value }
  | .abs .positionX value => d.onSelected fun s => { s with x := value }
  | .abs .positionY value => d.onSelected fun s => { s with y := value }
  | .abs .x value => { d with x := value }
  | .abs .y value => { d with y := value }
  | .key code value => { d with keys := Function.update d.keys code value }
  | .syn => d

def replay [DecidableEq κ] (d : Device κ) (writes : List (Write κ)) : Device κ :=
  writes.foldl apply d

/-- The contact in a slot: its identity and position. -/
def contact (d : Device κ) (slot : Int) : Option (Int × Int × Int) :=
  if 0 ≤ (d.slots slot).trackingId then
    some ((d.slots slot).trackingId, (d.slots slot).x, (d.slots slot).y)
  else none

section Replay
variable [DecidableEq κ] (d : Device κ)

theorem replay_append (writes writes' : List (Write κ)) :
    d.replay (writes ++ writes') = (d.replay writes).replay writes' :=
  List.foldl_append

theorem replay_syn (writes : List (Write κ)) : d.replay (writes ++ [.syn]) = d.replay writes := by
  rw [replay_append]
  rfl

/-- **The contact of a slot ends.** -/
theorem replay_release (slot : Int) :
    (d.replay [.abs .slot slot, .abs .trackingId (-1)]).slots =
      Function.update d.slots slot { d.slots slot with trackingId := -1 } := rfl

/-- What is written for a contact: its slot, its identity if it is new, and its position. -/
def touch (slot : Int) (identity : Option Int) (x y : Int) : List (Write κ) :=
  .abs .slot slot :: (identity.toList.map (.abs .trackingId) ++
    [.abs .positionX x, .abs .positionY y])

/-- **A contact is reported.** -/
theorem replay_touch (slot : Int) (identity : Option Int) (x y : Int) :
    (d.replay (touch slot identity x y)).slots =
      Function.update d.slots slot ⟨identity.getD (d.slots slot).trackingId, x, y⟩ := by
  cases identity <;> simp [replay, touch, apply, onSelected]

omit [DecidableEq κ] in
theorem syn_not_mem_touch (slot : Int) (identity : Option Int) (x y : Int) :
    Write.syn ∉ (touch slot identity x y : List (Write κ)) := by
  cases identity <;> simp [touch]

theorem replay_pointer (x y : Int) :
    (d.replay [.abs .x x, .abs .y y]).slots = d.slots := rfl

theorem slots_replay_keys (keys : List (κ × Int)) :
    (d.replay (keys.map fun e => .key e.1 e.2)).slots = d.slots := by
  induction keys generalizing d with
  | nil => rfl
  | cons e keys ih => exact ih _

theorem replay_key_of_not_mem {keys : List (κ × Int)} {code : κ}
    (h : code ∉ keys.map Prod.fst) :
    (d.replay (keys.map fun e => .key e.1 e.2)).keys code = d.keys code := by
  induction keys generalizing d with
  | nil => rfl
  | cons e keys ih =>
      rw [List.map_cons, List.mem_cons, not_or] at h
      obtain ⟨hne, h⟩ := h
      exact (ih _ h).trans (Function.update_of_ne hne _ _)

/-- **A key that is written once has the value that is written.** -/
theorem replay_key {keys : List (κ × Int)} (hkeys : (keys.map Prod.fst).Nodup) {code : κ}
    {value : Int} (h : (code, value) ∈ keys) :
    (d.replay (keys.map fun e => .key e.1 e.2)).keys code = value := by
  induction keys generalizing d with
  | nil => cases h
  | cons e keys ih =>
      obtain ⟨hnot, hkeys⟩ := List.nodup_cons.mp hkeys
      rcases List.mem_cons.mp h with rfl | h
      · exact (replay_key_of_not_mem _ hnot).trans (Function.update_self _ _ _)
      · exact ih _ hkeys h

end Replay

end Device

end Ashacky.Support.Multitouch
