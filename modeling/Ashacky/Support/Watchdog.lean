import Ashacky.Support.DelayedWork
import Ashacky.Support.Machine

/-!
# Support — Watchdog

A value that is fed from outside, and work that comes again and again and withdraws it when it was not
fed for too long.  Time is a number of ticks; the work compares counters that wrap.

* `expired_iff`: the comparison is that of the times, as long as the work is not too late.
* `Watched.Timely.next`: in a run in which the work is never later than `slack` it stays timely, also
  within a larger system.
* `Watched.Timely.fresh`: a value that is there was fed at most `limit + period + slack` ago.
* `LastFed`: the last feed of a trace, and how long ago it was; there is one at most
  (`LastFed.unique`).
-/

namespace Ashacky.Support

/-- When the value was fed, when the work comes next, and whether the value is there. -/
structure Watched where
  now : Nat
  updated : Nat
  due : Nat
  live : Bool

namespace Watched

inductive Event where
  | feed (live : Bool)
  | passes (time : Nat)
  /-- The work. -/
  | expire

/-- `time_after(jiffies, updated + limit)`, of a value that is there. -/
def expired (limit : Nat) (w : Watched) : Bool :=
  w.live && before (.ofNat w.updated + .ofNat limit) (.ofNat w.now)

def start (period : Nat) : Watched := ⟨0, 0, period, false⟩

/-- A step, if it can happen. -/
def step (limit period : Nat) (w : Watched) : Event → Option Watched
  | .feed live => some { w with updated := w.now, live := live }
  | .passes time => some { w with now := w.now + time }
  | .expire =>
      if w.now < w.due then none
      else some { w with live := w.live && !w.expired limit, due := w.now + period }

/-- A step after which the work is not too late. -/
def Step (limit period slack : Nat) (w : Watched) (e : Event) (_ : Unit) (w' : Watched) : Prop :=
  w.step limit period e = some w' ∧ w'.now ≤ w'.due + slack

/-- The work is due within a period, and in time for the value. -/
structure Timely (limit period slack : Nat) (w : Watched) : Prop where
  past : w.updated ≤ w.now
  soon : w.due ≤ w.now + period
  prompt : w.now ≤ w.due + slack
  fed : w.live = true → w.due ≤ w.updated + limit + period

section Timely
variable {limit period slack : Nat} {w w' : Watched} {e : Event}

theorem Timely.fresh (T : Timely limit period slack w) (hlive : w.live = true) :
    w.now ≤ w.updated + limit + period + slack :=
  T.prompt.trans (Nat.add_le_add_right (T.fed hlive) slack)

theorem expired_iff (T : Timely limit period slack w) (hlimit : limit < 2 ^ 63)
    (hslack : period + slack < 2 ^ 63) :
    w.expired limit = true ↔ w.live = true ∧ w.updated + limit < w.now := by
  rw [expired, Bool.and_eq_true]
  refine and_congr_right fun hlive => ?_
  have hfresh := T.fresh hlive
  have hpast := T.past
  rw [← UInt64.ofNat_add]
  exact before_iff (by omega) (by omega)

theorem timely_start : Timely limit period slack (start period) where
  past := Nat.le_refl _
  soon := Nat.le_add_left _ _
  prompt := Nat.zero_le _
  fed := by rintro ⟨⟩

theorem timely_step (hlimit : limit < 2 ^ 63) (hslack : period + slack < 2 ^ 63)
    (T : Timely limit period slack w) (hstep : Step limit period slack w e () w') :
    Timely limit period slack w' := by
  obtain ⟨hstep, hprompt⟩ := hstep
  have hpast := T.past
  have hsoon := T.soon
  have hfed := T.fed
  cases e with
  | feed live =>
      cases hstep
      exact ⟨Nat.le_refl _, hsoon, hprompt, fun _ => by dsimp only; omega⟩
  | passes time =>
      cases hstep
      exact ⟨by dsimp only; omega, by dsimp only; omega, hprompt, hfed⟩
  | expire =>
      obtain ⟨-, hstep⟩ := Option.ite_none_left_eq_some.mp hstep
      cases hstep
      refine ⟨hpast, Nat.le_refl _, hprompt, fun hlive => ?_⟩
      obtain ⟨hlive, hkept⟩ := Bool.and_eq_true_iff.mp hlive
      have hnot := mt (expired_iff T hlimit hslack).mpr (by simpa using hkept)
      simp only [hlive, true_and, not_lt] at hnot
      exact Nat.add_le_add_right hnot period

/-- A step of a system that is one of the watchdog, or leaves it as it is. -/
theorem Timely.next {report : Option (Event × Unit)} (hlimit : limit < 2 ^ 63)
    (hslack : period + slack < 2 ^ 63) (T : Timely limit period slack w)
    (hstep : report.elim (w' = w) fun x => Step limit period slack w x.1 x.2 w') :
    Timely limit period slack w' := by
  cases report with
  | none => exact (show w' = w from hstep) ▸ T
  | some x => exact timely_step hlimit hslack T hstep

end Timely

end Watched

/-! ### The last feed -/

/-- The last feed of a trace was `x`, so long ago. -/
def LastFed {β α : Type*} (feed : β → Option α) (time : β → Nat) (x : α) (ago : Nat) (t : List β) : Prop :=
  ∃ u y w, t = u ++ y :: w ∧ feed y = some x ∧ (∀ z ∈ w, feed z = none) ∧ ago = (w.map time).sum

section LastFed
variable {β α : Type*} {feed : β → Option α} {time : β → Nat} {x x' : α} {ago ago' : Nat} {t : List β}
  {y : β}

/-- Nothing was fed, and nothing is. -/
theorem unfed_snoc (ht : ∀ z ∈ t, feed z = none) (hy : feed y = none) :
    ∀ z ∈ t ++ [y], feed z = none := by
  intro z hz
  obtain hz | hz := List.mem_append.mp hz
  · exact ht z hz
  · rw [List.mem_singleton.mp hz]
    exact hy

theorem LastFed.now (hy : feed y = some x) (t : List β) : LastFed feed time x 0 (t ++ [y]) :=
  ⟨t, y, [], rfl, hy, by simp, rfl⟩

theorem LastFed.later (h : LastFed feed time x ago t) (hy : feed y = none) :
    LastFed feed time x (ago + time y) (t ++ [y]) := by
  obtain ⟨u, y₀, w, rfl, hx, hw, rfl⟩ := h
  exact ⟨u, y₀, w ++ [y], by simp, hx, unfed_snoc hw hy, by simp⟩

/-- The last feed is one. -/
theorem LastFed.fed (h : LastFed feed time x ago t) : ∃ z ∈ t, feed z = some x := by
  obtain ⟨u, y, w, rfl, hy, -⟩ := h
  exact ⟨y, by simp, hy⟩

theorem LastFed.not_unfed (h : LastFed feed time x ago t) : ¬ ∀ z ∈ t, feed z = none := by
  intro hnone
  obtain ⟨z, hz, hx⟩ := h.fed
  rw [hnone z hz] at hx
  cases hx

/-- There is one last feed. -/
theorem LastFed.unique (h : LastFed feed time x ago t) (h' : LastFed feed time x' ago' t) :
    x = x' ∧ ago = ago' := by
  obtain ⟨u, y, w, rfl, hx, hw, rfl⟩ := h
  obtain ⟨u', y', w', heq, hx', hw', rfl⟩ := h'
  obtain ⟨v, hl, hr⟩ | ⟨v, hl, hr⟩ := List.append_eq_append_iff.mp heq
  · cases v with
    | nil =>
        obtain ⟨rfl, rfl⟩ := List.cons.inj hr
        exact ⟨Option.some.inj (hx.symm.trans hx'), rfl⟩
    | cons z v =>
        obtain ⟨-, rfl⟩ := List.cons.inj hr
        have hnone := hw y' (by simp)
        rw [hx'] at hnone
        cases hnone
  · cases v with
    | nil =>
        obtain ⟨rfl, rfl⟩ := List.cons.inj hr
        exact ⟨Option.some.inj (hx.symm.trans hx'), rfl⟩
    | cons z v =>
        obtain ⟨-, rfl⟩ := List.cons.inj hr
        have hnone := hw' y (by simp)
        rw [hx] at hnone
        cases hnone

end LastFed

end Ashacky.Support
