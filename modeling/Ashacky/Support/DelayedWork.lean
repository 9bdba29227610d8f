import Mathlib.Data.UInt

/-!
# Support — Delayed work

Work that a timer hands to a worker, on a counter of ticks that wraps.  Time is the number of ticks,
`Nat`; the counter shows its low 64 bits.

* `before_iff`: the comparison of two counter values is that of the times, if these are less than half
  the counter's range apart.
* `expiry_le`: a timer that is set from the counter goes off at its deadline, later only by the ticks
  that pass while it is set.
* `DelayedWork.Covers`: the work is on its way to a worker, or its timer goes off by a given time.
-/

namespace Ashacky.Support

/-! ### The counter -/

/-- `a` is before `b`, by the sign of their difference. -/
def before (a b : UInt64) : Bool := 2 ^ 63 ≤ (a - b).toNat

theorem toNat_ofNat_sub (a b : Nat) :
    (UInt64.ofNat a - UInt64.ofNat b).toNat = (2 ^ 64 - b % 2 ^ 64 + a % 2 ^ 64) % 2 ^ 64 := by
  rw [UInt64.toNat_sub, UInt64.toNat_ofNat', UInt64.toNat_ofNat']

theorem before_iff {a b : Nat} (hab : a < b + 2 ^ 63) (hba : b < a + 2 ^ 63) :
    before (.ofNat a) (.ofNat b) = true ↔ a < b := by
  rw [before, decide_eq_true_iff, toNat_ofNat_sub]
  omega

/-- The time at which a timer goes off that is set to go off after `delay`.  A delay of half the range
or more is one that has passed. -/
def expiry (now : Nat) (delay : UInt64) : Nat := if delay.toNat < 2 ^ 63 then now + delay.toNat else now

/-- A timer that is set from the counter to go off at `deadline`. -/
theorem expiry_le {deadline now set : Nat} (hlate : now < deadline + 2 ^ 63)
    (hearly : deadline < now + 2 ^ 63) (hset : now ≤ set) :
    expiry set (.ofNat deadline - .ofNat now) ≤ max deadline now + (set - now) := by
  unfold expiry
  rw [toNat_ofNat_sub]
  split <;> omega

/-! ### The work -/

/-- When the timer goes off, whether the work is queued, and whether a worker has taken it. -/
structure DelayedWork where
  timer : Option Nat
  queued : Bool
  running : Bool
deriving DecidableEq

namespace DelayedWork

def idle : DelayedWork := ⟨none, false, false⟩

/-- The timer is set, or set again; work that is queued is taken back. -/
def modify (w : DelayedWork) (now : Nat) (delay : UInt64) : DelayedWork :=
  { w with timer := some (expiry now delay), queued := false }

/-- The timer goes off. -/
def expire (w : DelayedWork) (now : Nat) : Option DelayedWork :=
  if w.timer.any (· ≤ now) then some { w with timer := none, queued := true } else none

/-- A worker takes the work, unless one has it. -/
def take (w : DelayedWork) : Option DelayedWork :=
  if w.queued && !w.running then some { w with queued := false, running := true } else none

/-- The worker is done. -/
def finish (w : DelayedWork) : DelayedWork := { w with running := false }

/-- The work is taken back; this waits for the worker. -/
def cancel (w : DelayedWork) : Option DelayedWork := if w.running then none else some idle

/-- The work is on its way to a worker, or its timer goes off by then. -/
def Covers (w : DelayedWork) (time : Nat) : Prop :=
  w.queued = true ∨ w.running = true ∨ ∃ x, w.timer = some x ∧ x ≤ time

variable {w w' : DelayedWork} {time now : Nat}

theorem modify_covers {delay : UInt64} (h : expiry now delay ≤ time) : (w.modify now delay).Covers time :=
  .inr (.inr ⟨_, rfl, h⟩)

/-- A timer that is set goes off by then also when the worker that sets it is done. -/
theorem modify_finish_covers {delay : UInt64} (h : expiry now delay ≤ time) :
    (w.modify now delay).finish.Covers time :=
  .inr (.inr ⟨_, rfl, h⟩)

theorem expire_covers (h : w.expire now = some w') : w'.Covers time := by
  obtain ⟨-, h⟩ := Option.ite_none_right_eq_some.mp h
  cases h
  exact .inl rfl

theorem take_covers (h : w.take = some w') : w'.Covers time := by
  obtain ⟨-, h⟩ := Option.ite_none_right_eq_some.mp h
  cases h
  exact .inr (.inl rfl)

end DelayedWork

end Ashacky.Support
