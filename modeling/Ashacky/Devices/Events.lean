import Mathlib.Data.List.Basic

/-!
# Devices — Events

What the guest's device services share: the key they read from the host's status file
(`wifi_events.py`, `bluetooth_events.py`), and the named one-shot timers of their main loop.

The status file is given by the key it holds when it is read: none when it is absent, old or not of
the event transport.
-/

namespace Ashacky.Devices

/-- The revision, `active` and `wakeGeneration` of the host's status, as the host writes them. -/
structure HostKey where
  revision : String
  active : Option Bool
  wakeGeneration : Option Int
deriving DecidableEq

/-- `active`: `self.key is None or self.key[1] is not False`. -/
def isActive : Option HostKey → Bool
  | none => true
  | some key => key.active ≠ some false

/-- `later`: a timer that is not set yet is set. -/
def later {τ : Type} [DecidableEq τ] (closed : Bool) (name : τ) (sources : List τ) : List τ :=
  if closed ∨ name ∈ sources then sources else name :: sources

end Ashacky.Devices
