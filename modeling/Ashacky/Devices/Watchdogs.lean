import Ashacky.Support.Watchdog

/-!
# Devices — the watched drivers

Two drivers of the guest's kernel show what the host reports: the battery
(`guest/drivers/battery/linuxhost_battery.c`) and the switch of the Bluetooth radio
(`guest/drivers/bluetooth/linuxhost_bt_rfkill.c`).  Each has a work item that withdraws the report when
it is old.  Their entry points hold a mutex, so each is one step; only `set_block` reads its two flags
without it, here at once.

Time is in ticks since a driver started, `hz` to a second, and a worker may be late.  What `sscanf`
converts, when it converts four numbers and nothing follows, comes with the write; so do the privilege
of a caller and what is copied from it.  Of the kernel's switch there is what the driver told it last.
Left out is what registers and removes the drivers.

* `Battery.run_kept`, `Radio.run_kept`: the state against the last report and its age.
* `battery_shown`, `radio_shown`: what is shown is the last report, whole, and not too old.
-/

namespace Ashacky.Devices.Watchdogs
open Ashacky.Support

/-! ### The battery -/

/-- What a write to `state` says. -/
structure Telemetry where
  present : Int
  online : Int
  capacity : Int
  charging : Int
deriving DecidableEq

/-- The checks of `state_store`. -/
def Telemetry.valid (x : Telemetry) : Bool :=
  0 ≤ x.present && x.present ≤ 1 && 0 ≤ x.online && x.online ≤ 1 && 0 ≤ x.capacity &&
    x.capacity ≤ 100 && 0 ≤ x.charging && x.charging ≤ 1

inductive Property where
  | status
  | present
  | capacity
  | online
  | technology
  | scope
  | modelName
  | other
deriving DecidableEq

inductive Status where
  | unknown
  | charging
  | discharging
  | full
  | notCharging
deriving DecidableEq

/-- What `get` gives: a value, `-ENODATA` or `-EINVAL`. -/
inductive Value where
  | status (status : Status)
  | number (n : Int)
  | text (text : String)
  | lion
  | system
  | noData
  | invalid
deriving DecidableEq

/-- The static variables, and the time. -/
structure Battery where
  shown : Telemetry
  updated : Nat
  now : Nat
  due : Nat

/-- `get`. -/
def Telemetry.get (x : Telemetry) : Property → Value
  | .status =>
      .status
        (if x.present = 0 then .unknown
        else if x.charging ≠ 0 then .charging
        else if x.online = 0 then .discharging
        else if x.capacity = 100 then .full
        else .notCharging)
  | .present => .number x.present
  | .capacity => if x.present = 0 then .noData else .number x.capacity
  | .online => .number x.online
  | .technology => .lion
  | .scope => .system
  | .modelName => .text "MacBook Air Battery"
  | .other => .invalid

namespace Battery

/-- After `init`. -/
def initial (hz : Nat) : Battery := ⟨⟨0, 0, 0, 0⟩, 0, 0, 5 * hz⟩

inductive Event where
  /-- `state_store`: what `sscanf` converts, if there are four numbers and nothing follows. -/
  | store (fields : Option Telemetry)
  | get (property : Property)
  | passes (time : Nat)
  /-- The work item. -/
  | expire

inductive Output where
  /-- `-EINVAL`. -/
  | refused
  /-- `power_supply_changed`, of the battery, and then of the mains. -/
  | batteryChanged
  | mainsChanged
  | value (value : Value)
deriving DecidableEq

/-- The battery was not reported for 30 seconds. -/
def expired (hz : Nat) (b : Battery) : Bool :=
  b.shown.present ≠ 0 && before (.ofNat b.updated + .ofNat (30 * hz)) (.ofNat b.now)

/-- A step, if it can happen. -/
def step (hz : Nat) (b : Battery) : Event → Option (List Output × Battery)
  | .store none => some ([.refused], b)
  | .store (some x) =>
      if x.valid then
        some (if x = b.shown then [] else [.batteryChanged, .mainsChanged],
          { b with shown := x, updated := b.now })
      else some ([.refused], b)
  | .get property => some ([.value (b.shown.get property)], b)
  | .passes time => some ([], { b with now := b.now + time })
  | .expire =>
      if b.now < b.due then none
      else
        some (if b.expired hz then [.batteryChanged] else [],
          { b with
            shown := { b.shown with present := if b.expired hz then 0 else b.shown.present }
            due := b.now + 5 * hz })

/-- A step after which the work item is not later than `slack`. -/
def Step (hz slack : Nat) (b : Battery) (e : Event) (o : List Output) (b' : Battery) : Prop :=
  b.step hz e = some (o, b') ∧ b'.now ≤ b'.due + slack

/-- What is watched. -/
def watched (b : Battery) : Watched := ⟨b.now, b.updated, b.due, b.shown.present ≠ 0⟩

/-- The telemetry of a write that is accepted. -/
def feed (x : Event × List Output) : Option Telemetry :=
  match x.1 with
  | .store fields => fields.filter Telemetry.valid
  | _ => none

/-- The time that passes. -/
def time (x : Event × List Output) : Nat :=
  match x.1 with
  | .passes time => time
  | _ => 0

/-- What the watchdog is told. -/
def report (e : Event) (_ : List Output) : Option (Watched.Event × Unit) :=
  match e with
  | .store fields => (fields.filter Telemetry.valid).map fun x => (.feed (x.present ≠ 0), ())
  | .get _ => none
  | .passes time => some (.passes time, ())
  | .expire => some (.expire, ())

section Battery
variable {hz slack : Nat} {b b' : Battery} {e : Event} {o : List Output}
  {t : List (Event × List Output)}

/-- A step is one of the watchdog, or leaves it as it is. -/
theorem step_watched (h : b.Step hz slack e o b') :
    (report e o).elim (b'.watched = b.watched) fun x =>
      Watched.Step (30 * hz) (5 * hz) slack b.watched x.1 x.2 b'.watched := by
  obtain ⟨hstep, hprompt⟩ := h
  cases e with
  | store fields =>
      cases fields with
      | none =>
          cases hstep
          rfl
      | some x =>
          rw [step] at hstep
          split at hstep
          · rename_i hvalid
            cases hstep
            simp only [report, Option.filter_some, hvalid, if_true, Option.map_some, Option.elim_some]
            exact ⟨rfl, hprompt⟩
          · rename_i hvalid
            cases hstep
            simp [report, Option.filter_some, hvalid]
  | get property =>
      cases hstep
      rfl
  | passes time =>
      cases hstep
      exact ⟨rfl, hprompt⟩
  | expire =>
      rw [step] at hstep
      split at hstep
      · cases hstep
      rename_i hdue
      cases hstep
      refine ⟨?_, hprompt⟩
      have hexpired : b.watched.expired (30 * hz) = b.expired hz := rfl
      rw [Watched.step, hexpired]
      refine (if_neg hdue).trans ?_
      cases hx : b.expired hz <;> simp [watched]

/-- The battery against the last write that was accepted, so long ago: it is shown as it was written, or
the battery is gone. -/
def Kept (hz : Nat) (b : Battery) (t : List (Event × List Output)) : Prop :=
  (b.shown.present = 0 ∧ ∀ z ∈ t, feed z = none) ∨
    ∃ x ago, LastFed feed time x ago t ∧ b.now = b.updated + ago ∧
      (b.shown = x ∨ b.shown = { x with present := 0 } ∧ 30 * hz < ago)

/-- Nothing is written, and what is shown stays or is withdrawn when it is old. -/
theorem Kept.later (K : Kept hz b t) {y : Event × List Output} (hy : feed y = none)
    (hnow : b'.now = b.now + time y) (hupdated : b'.updated = b.updated)
    (hshown : b'.shown = b.shown ∨
      b'.shown = { b.shown with present := 0 } ∧ b.updated + 30 * hz < b.now) :
    Kept hz b' (t ++ [y]) := by
  obtain ⟨hp, hnone⟩ | ⟨x, ago, hlast, hage, hkept⟩ := K
  · refine .inl ⟨?_, unfed_snoc hnone hy⟩
    obtain h | ⟨h, -⟩ := hshown
    · rw [h, hp]
    · rw [h]
  · refine .inr ⟨x, ago + time y, hlast.later hy, by omega, ?_⟩
    obtain h | ⟨h, hlate⟩ := hshown
    · rw [h]
      exact hkept.imp_right fun hk => ⟨hk.1, by omega⟩
    · refine .inr ⟨?_, by omega⟩
      obtain hk | ⟨hk, -⟩ := hkept
      · rw [h, hk]
      · rw [h, hk]

theorem kept_step (hsmall : 35 * hz + slack < 2 ^ 63)
    (T : Watched.Timely (30 * hz) (5 * hz) slack b.watched) (K : Kept hz b t)
    (h : b.Step hz slack e o b') : Kept hz b' (t ++ [(e, o)]) := by
  obtain ⟨hstep, -⟩ := h
  cases e with
  | store fields =>
      cases fields with
      | none =>
          cases hstep
          exact K.later rfl rfl rfl (.inl rfl)
      | some x =>
          rw [step] at hstep
          split at hstep
          · rename_i hvalid
            cases hstep
            refine .inr ⟨x, 0, LastFed.now ?_ t, rfl, .inl rfl⟩
            simp [feed, Option.filter_some, hvalid]
          · rename_i hvalid
            cases hstep
            refine K.later ?_ rfl rfl (.inl rfl)
            simp [feed, Option.filter_some, hvalid]
  | get property =>
      cases hstep
      exact K.later rfl rfl rfl (.inl rfl)
  | passes time =>
      cases hstep
      exact K.later rfl rfl rfl (.inl rfl)
  | expire =>
      rw [step] at hstep
      split at hstep
      · cases hstep
      cases hstep
      refine K.later rfl rfl rfl ?_
      cases hx : b.expired hz with
      | false => exact .inl rfl
      | true => exact .inr ⟨rfl, ((Watched.expired_iff T (by omega) (by omega)).mp hx).2⟩

theorem kept_initial : Kept hz (initial hz) [] := .inl ⟨rfl, by simp⟩

theorem run_kept (hsmall : 35 * hz + slack < 2 ^ 63) (r : Steps (Step hz slack) (initial hz) t b) :
    Watched.Timely (30 * hz) (5 * hz) slack b.watched ∧ Kept hz b t :=
  r.invariant_trace
    (I := fun b t => Watched.Timely (30 * hz) (5 * hz) slack b.watched ∧ Kept hz b t)
    (fun K h => ⟨K.1.next (by omega) (by omega) (step_watched h), kept_step hsmall K.1 K.2 h⟩)
    ⟨Watched.timely_start, kept_initial⟩

theorem feed_valid {y : Event × List Output} {x : Telemetry} (hy : feed y = some x) :
    x.valid = true := by
  obtain ⟨e, o⟩ := y
  cases e with
  | store fields => exact (Option.filter_eq_some_iff.mp hy).2
  | get | passes | expire => cases hy

/-- **What the battery shows.**  The work item is never later than `slack`.  Then a battery that is
present is shown as it was in the last write that was accepted, in all its properties, and that write is
35 seconds old at most; and what was written is shown for 30 seconds, if nothing else is written. -/
theorem battery_shown (hsmall : 35 * hz + slack < 2 ^ 63)
    (r : Steps (Step hz slack) (initial hz) t b) :
    (b.shown.get .present ≠ .number 0 → ∃ x ago, LastFed feed time x ago t ∧ x.valid = true ∧
      (∀ property, b.shown.get property = x.get property) ∧ ago ≤ 35 * hz + slack) ∧
    ∀ x ago, LastFed feed time x ago t → ago ≤ 30 * hz →
      ∀ property, b.shown.get property = x.get property := by
  obtain ⟨T, K⟩ := run_kept hsmall r
  refine ⟨fun hpresent => ?_, fun x ago hlast hage => ?_⟩
  · have hp : b.shown.present ≠ 0 := fun hp => hpresent (by rw [Telemetry.get, hp])
    obtain ⟨h0, -⟩ | ⟨x, ago, hlast, hage, hk | ⟨hk, -⟩⟩ := K
    · exact absurd h0 hp
    · refine ⟨x, ago, hlast, ?_, fun property => by rw [hk], ?_⟩
      · obtain ⟨y, -, hy⟩ := hlast.fed
        exact feed_valid hy
      · have hfresh : b.now ≤ b.updated + 30 * hz + 5 * hz + slack :=
          T.fresh (decide_eq_true hp)
        omega
    · rw [hk] at hp
      exact absurd rfl hp
  · obtain ⟨-, hnone⟩ | ⟨x', ago', hlast', -, hk⟩ := K
    · exact absurd hnone hlast.not_unfed
    · obtain ⟨rfl, rfl⟩ := hlast.unique hlast'
      obtain hk | ⟨-, hlate⟩ := hk
      · rw [hk]
        exact fun _ => rfl
      · exact absurd hlate (not_lt.mpr hage)

end Battery

/-! The host charges at 87 percent, and its next report is late. -/

def sampleWrite : Telemetry := ⟨1, 1, 87, 1⟩

def sampleTrace : List (Event × List Output) :=
  [(.store (some sampleWrite), [.batteryChanged, .mainsChanged]), (.passes 7, [])]

theorem sampleTrace_steps :
    Steps (Step 1 2) (initial 1) sampleTrace (Battery.mk sampleWrite 0 7 5) :=
  .more ⟨rfl, by decide⟩ (.one ⟨rfl, by decide⟩)

theorem battery_shown_sample :
    (∃ x ago, LastFed feed time x ago sampleTrace ∧ x.valid = true ∧
      (∀ property, sampleWrite.get property = x.get property) ∧ ago ≤ 35 * 1 + 2) ∧
    ∀ x ago, LastFed feed time x ago sampleTrace → ago ≤ 30 * 1 →
      ∀ property, sampleWrite.get property = x.get property :=
  ⟨(battery_shown (by decide) sampleTrace_steps).1 (by decide),
    (battery_shown (by decide) sampleTrace_steps).2⟩

end Battery

/-! ### The radio -/

/-- The static variables, what the switch was told, and the time. -/
structure Radio where
  available : Bool
  powered : Bool
  /-- By `rfkill_set_hw_state`. -/
  hard : Bool
  /-- By `rfkill_set_sw_state`. -/
  soft : Bool
  refreshed : Nat
  now : Nat
  due : Nat

namespace Radio

/-- After `radio_init`. -/
def initial (hz : Nat) : Radio := ⟨false, false, true, true, 0, 0, hz⟩

inductive Event where
  /-- The kernel asks to block the radio, or not to. -/
  | setBlock (blocked : Bool)
  /-- `control_ioctl`: whether the caller has the capability, whether the command is the one there is, and
  the word, if it can be read. -/
  | control (capable known : Bool) (state : Option Nat)
  | passes (time : Nat)
  /-- The work item. -/
  | expire

/-- What is returned: zero, or an error. -/
inductive Output where
  | ok
  | notPermitted
  | noCommand
  | fault
  | invalid
  | notSupported
deriving DecidableEq

/-- `set_block`. -/
def setBlock (blocked : Bool) (r : Radio) : Output :=
  if !r.available then .ok
  else if blocked = !r.powered then .ok
  else .notSupported

/-- `state > 3 || state == 2`. -/
def refused (state : Nat) : Bool := state > 3 || state = 2

/-- The state of the host's radio was not reported for 15 seconds. -/
def expired (hz : Nat) (r : Radio) : Bool :=
  r.available && before (.ofNat r.refreshed + .ofNat (15 * hz)) (.ofNat r.now)

/-- What a word does that is accepted. -/
def refresh (state : Nat) (r : Radio) : Radio :=
  { r with
    available := state.testBit 0
    powered := state.testBit 1
    refreshed := r.now
    hard := !state.testBit 0
    soft := !state.testBit 1 }

/-- `control_ioctl`. -/
def controlIoctl (capable known : Bool) (state : Option Nat) (r : Radio) : Output × Radio :=
  if !capable then (.notPermitted, r)
  else if !known then (.noCommand, r)
  else
    match state with
    | none => (.fault, r)
    | some state => if refused state then (.invalid, r) else (.ok, r.refresh state)

/-- A step, if it can happen. -/
def step (hz : Nat) (r : Radio) : Event → Option (List Output × Radio)
  | .setBlock blocked => some ([r.setBlock blocked], r)
  | .control capable known state =>
      let (o, r) := r.controlIoctl capable known state
      some ([o], r)
  | .passes time => some ([], { r with now := r.now + time })
  | .expire =>
      if r.now < r.due then none
      else
        some ([],
          { r with
            available := r.available && !r.expired hz
            hard := r.hard || r.expired hz
            due := r.now + hz })

/-- A step after which the work item is not later than `slack`. -/
def Step (hz slack : Nat) (r : Radio) (e : Event) (o : List Output) (r' : Radio) : Prop :=
  r.step hz e = some (o, r') ∧ r'.now ≤ r'.due + slack

/-- What is watched. -/
def watched (r : Radio) : Watched := ⟨r.now, r.refreshed, r.due, r.available⟩

/-- The word of a call that is accepted. -/
def feed (x : Event × List Output) : Option Nat :=
  match x.1 with
  | .control true true (some state) => if refused state then none else some state
  | _ => none

/-- The time that passes. -/
def time (x : Event × List Output) : Nat :=
  match x.1 with
  | .passes time => time
  | _ => 0

/-- What the watchdog is told. -/
def report (e : Event) (o : List Output) : Option (Watched.Event × Unit) :=
  match e with
  | .setBlock _ => none
  | .control _ _ _ => (feed (e, o)).map fun state => (.feed (state.testBit 0), ())
  | .passes time => some (.passes time, ())
  | .expire => some (.expire, ())

section Radio
variable {hz slack : Nat} {r r' : Radio} {e : Event} {o : List Output}
  {t : List (Event × List Output)}

/-- What a call does: nothing, or its word is accepted. -/
theorem control_cases {capable known : Bool} {state : Option Nat}
    (h : r.step hz (.control capable known state) = some (o, r')) :
    (r' = r ∧ feed (.control capable known state, o) = none) ∨
      ∃ word, feed (.control capable known state, o) = some word ∧ r' = r.refresh word := by
  cases capable with
  | false =>
      cases h
      exact .inl ⟨rfl, rfl⟩
  | true =>
  cases known with
  | false =>
      cases h
      exact .inl ⟨rfl, rfl⟩
  | true =>
  cases state with
  | none =>
      cases h
      exact .inl ⟨rfl, rfl⟩
  | some word =>
      by_cases href : refused word = true
      · simp only [step, controlIoctl, href, Bool.not_true, Bool.false_eq_true, if_false, if_true] at h
        cases h
        exact .inl ⟨rfl, if_pos href⟩
      · simp only [step, controlIoctl, href, Bool.not_true, Bool.false_eq_true, if_false] at h
        cases h
        exact .inr ⟨word, if_neg href, rfl⟩

/-- A step is one of the watchdog, or leaves it as it is. -/
theorem step_watched (h : r.Step hz slack e o r') :
    (report e o).elim (r'.watched = r.watched) fun x =>
      Watched.Step (15 * hz) hz slack r.watched x.1 x.2 r'.watched := by
  obtain ⟨hstep, hprompt⟩ := h
  cases e with
  | setBlock blocked =>
      cases hstep
      rfl
  | control capable known state =>
      obtain ⟨rfl, hnone⟩ | ⟨word, hword, rfl⟩ := control_cases hstep
      · rw [report, hnone]
        rfl
      · rw [report, hword]
        exact ⟨rfl, hprompt⟩
  | passes time =>
      cases hstep
      exact ⟨rfl, hprompt⟩
  | expire =>
      obtain ⟨hdue, hstep⟩ := Option.ite_none_left_eq_some.mp hstep
      cases hstep
      exact ⟨if_neg hdue, hprompt⟩

/-- The radio as a word tells it. -/
structure Told (word : Nat) (r : Radio) : Prop where
  available : r.available = word.testBit 0
  powered : r.powered = word.testBit 1
  hard : r.hard = !word.testBit 0
  soft : r.soft = !word.testBit 1

/-- The radio against the last word that was accepted, so long ago: it is told as the word says, or it is
gone. -/
def Kept (hz : Nat) (r : Radio) (t : List (Event × List Output)) : Prop :=
  (r.available = false ∧ r.hard = true ∧ ∀ z ∈ t, feed z = none) ∨
    ∃ word ago, LastFed feed time word ago t ∧ r.now = r.refreshed + ago ∧
      (r.Told word ∨ r.available = false ∧ r.hard = true ∧ 15 * hz < ago)

/-- No word is accepted, and the radio stays, or it is withdrawn when the word is old. -/
theorem Kept.later (K : Kept hz r t) {y : Event × List Output} (hy : feed y = none)
    (hnow : r'.now = r.now + time y) (hrefreshed : r'.refreshed = r.refreshed)
    (hstate : (r'.available = r.available ∧ r'.powered = r.powered ∧ r'.hard = r.hard ∧
        r'.soft = r.soft) ∨
      r'.available = false ∧ r'.hard = true ∧ r.refreshed + 15 * hz < r.now) :
    Kept hz r' (t ++ [y]) := by
  obtain ⟨ha, hh, hnone⟩ | ⟨word, ago, hlast, hage, hkept⟩ := K
  · have hgone : r'.available = false ∧ r'.hard = true := by
      obtain ⟨h, -, h', -⟩ | ⟨h, h', -⟩ := hstate
      · exact ⟨h.trans ha, h'.trans hh⟩
      · exact ⟨h, h'⟩
    exact .inl ⟨hgone.1, hgone.2, unfed_snoc hnone hy⟩
  · refine .inr ⟨word, ago + time y, hlast.later hy, by omega, ?_⟩
    obtain ⟨h₁, h₂, h₃, h₄⟩ | ⟨h, h', hlate⟩ := hstate
    · obtain T | ⟨ha, hh, hold⟩ := hkept
      · exact .inl ⟨h₁.trans T.available, h₂.trans T.powered, h₃.trans T.hard, h₄.trans T.soft⟩
      · exact .inr ⟨h₁.trans ha, h₃.trans hh, by omega⟩
    · exact .inr ⟨h, h', by omega⟩

theorem kept_step (hsmall : 16 * hz + slack < 2 ^ 63)
    (T : Watched.Timely (15 * hz) hz slack r.watched) (K : Kept hz r t)
    (h : r.Step hz slack e o r') : Kept hz r' (t ++ [(e, o)]) := by
  obtain ⟨hstep, -⟩ := h
  cases e with
  | setBlock blocked =>
      cases hstep
      exact K.later rfl rfl rfl (.inl ⟨rfl, rfl, rfl, rfl⟩)
  | control capable known state =>
      obtain ⟨rfl, hnone⟩ | ⟨word, hword, rfl⟩ := control_cases hstep
      · exact K.later hnone rfl rfl (.inl ⟨rfl, rfl, rfl, rfl⟩)
      · exact .inr ⟨word, 0, LastFed.now hword t, rfl, .inl ⟨rfl, rfl, rfl, rfl⟩⟩
  | passes time =>
      cases hstep
      exact K.later rfl rfl rfl (.inl ⟨rfl, rfl, rfl, rfl⟩)
  | expire =>
      obtain ⟨-, hstep⟩ := Option.ite_none_left_eq_some.mp hstep
      cases hstep
      refine K.later rfl rfl rfl ?_
      cases hx : r.expired hz with
      | false => exact .inl ⟨Bool.and_true _, rfl, Bool.or_false _, rfl⟩
      | true =>
          exact .inr ⟨Bool.and_false _, Bool.or_true _,
            ((Watched.expired_iff T (by omega) (by omega)).mp hx).2⟩

theorem kept_initial : Kept hz (initial hz) [] := .inl ⟨rfl, rfl, by simp⟩

theorem run_kept (hsmall : 16 * hz + slack < 2 ^ 63) (s : Steps (Step hz slack) (initial hz) t r) :
    Watched.Timely (15 * hz) hz slack r.watched ∧ Kept hz r t :=
  s.invariant_trace
    (I := fun r t => Watched.Timely (15 * hz) hz slack r.watched ∧ Kept hz r t)
    (fun K h => ⟨K.1.next (by omega) (by omega) (step_watched h), kept_step hsmall K.1 K.2 h⟩)
    ⟨Watched.timely_start, kept_initial⟩

/-- An available radio accepts what it is already, and nothing else. -/
theorem setBlock_eq_ok {word : Nat} (T : r.Told word) (havailable : word.testBit 0 = true)
    {blocked : Bool} : r.setBlock blocked = .ok ↔ blocked = !word.testBit 1 := by
  rw [setBlock, T.available, T.powered, havailable]
  by_cases h : blocked = !word.testBit 1 <;> simp [h]

/-- **What the switch shows.**  The work item is never later than `slack`.  Then a radio that is not
blocked by its hardware is told as in the last word that was accepted, and that word is 16 seconds old at
most.  For 15 seconds the switch is told what the word says, if no other is accepted, and a request to
block the radio, or not to, succeeds if the host's radio is so already. -/
theorem radio_shown (hsmall : 16 * hz + slack < 2 ^ 63)
    (s : Steps (Step hz slack) (initial hz) t r) :
    (r.hard = false → ∃ word ago, LastFed feed time word ago t ∧ word.testBit 0 = true ∧
      r.soft = !word.testBit 1 ∧ ago ≤ 16 * hz + slack) ∧
    ∀ word ago, LastFed feed time word ago t → ago ≤ 15 * hz →
      r.hard = !word.testBit 0 ∧ r.soft = !word.testBit 1 ∧
        (word.testBit 0 = true → ∀ blocked, r.setBlock blocked = .ok ↔ blocked = !word.testBit 1) := by
  obtain ⟨T, K⟩ := run_kept hsmall s
  refine ⟨fun hhard => ?_, fun word ago hlast hage => ?_⟩
  · obtain ⟨-, h, -⟩ | ⟨word, ago, hlast, hage, hk | ⟨-, h, -⟩⟩ := K
    · rw [h] at hhard
      cases hhard
    · have hword : word.testBit 0 = true := by simpa [hhard] using hk.hard.symm
      have hfresh : r.now ≤ r.refreshed + 15 * hz + hz + slack :=
        T.fresh (hk.available.trans hword)
      exact ⟨word, ago, hlast, hword, hk.soft, by omega⟩
    · rw [h] at hhard
      cases hhard
  · obtain ⟨-, -, hnone⟩ | ⟨word', ago', hlast', -, hk⟩ := K
    · exact absurd hnone hlast.not_unfed
    · obtain ⟨rfl, rfl⟩ := hlast.unique hlast'
      obtain hk | ⟨-, -, hlate⟩ := hk
      · exact ⟨hk.hard, hk.soft, fun hword _ => setBlock_eq_ok hk hword⟩
      · exact absurd hlate (not_lt.mpr hage)

end Radio

/-! The host's radio is on, and the kernel asks to block it. -/

def sampleTrace : List (Event × List Output) :=
  [(.control true true (some 3), [.ok]), (.passes 4, []), (.setBlock true, [.notSupported])]

theorem sampleTrace_steps :
    Steps (Step 1 3) (initial 1) sampleTrace ⟨true, true, false, false, 0, 4, 1⟩ :=
  .more ⟨rfl, by decide⟩ (.more ⟨rfl, by decide⟩ (.one ⟨rfl, by decide⟩))

theorem radio_shown_sample :
    (∃ word ago, LastFed feed time word ago sampleTrace ∧ word.testBit 0 = true ∧
      false = !word.testBit 1 ∧ ago ≤ 16 * 1 + 3) ∧
    ∀ word ago, LastFed feed time word ago sampleTrace → ago ≤ 15 * 1 →
      false = !word.testBit 0 ∧ false = !word.testBit 1 ∧
        (word.testBit 0 = true → ∀ blocked,
          setBlock blocked ⟨true, true, false, false, 0, 4, 1⟩ = .ok ↔ blocked = !word.testBit 1) :=
  ⟨(radio_shown (by decide) sampleTrace_steps).1 rfl,
    (radio_shown (by decide) sampleTrace_steps).2⟩

end Radio

end Ashacky.Devices.Watchdogs
