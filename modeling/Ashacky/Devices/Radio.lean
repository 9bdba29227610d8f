import Ashacky.Devices.Events
import Ashacky.Support.Machine

/-!
# Devices — Radio

`wifi_power.py`: the switch of the guest's Wi-Fi radio and the host's radio are kept alike.
`RadioIntent` tells the user's choices from the service's own writes; `WiFiPower` submits a choice
to the host on a worker thread and applies what the host then reports.

A run is a sequence of the main loop's callbacks, the worker's requests and what arrives from the
kernel and the host, in any order.  A callback runs whole.  The service's error ends its main loop;
here its callbacks may still run until `close`.

Beside the state: `observed`, the position that was observed last, and in a flight `position`, what
that was when the work was submitted.
-/

namespace Ashacky.Devices
open Ashacky.Support

/-! ### `RadioIntent` -/

/-- A choice: its serial, and whether the radio is to be on. -/
abbrev Choice := Nat × Bool

structure RadioIntent where
  index : Nat
  soft : Int
  initialized : Bool
  expected : Option Int
  serial : Nat
  pending : Option Choice
deriving DecidableEq

namespace RadioIntent

def new (index : Nat) (soft : Int) : RadioIntent := ⟨index, soft, false, none, 0, none⟩

/-- `observe`, and whether it made a choice. -/
def observe (r : RadioIntent) (soft : Int) : Bool × RadioIntent :=
  let seen := { r with soft := soft, expected := none }
  if r.expected = some soft ∨ soft = r.soft ∨ !r.initialized then (false, seen)
  else
    (true, { seen with serial := r.serial + 1, pending := some (r.serial + 1, decide (soft = 0)) })

/-- `attempted`. -/
def attempted (r : RadioIntent) (attempt : Option Choice) : RadioIntent :=
  if attempt.isSome ∧ r.pending = attempt then { r with pending := none } else r

/-- `int(not powered)`. -/
def position (powered : Bool) : Int := if powered then 0 else 1

/-- The write of `apply`, and whether it raised. -/
def writeRadio (r : RadioIntent) (powered written : Bool) : Bool × RadioIntent :=
  if position powered = r.soft then (false, r)
  else if !written then (true, r)
  else (false, { r with expected := some (position powered), soft := position powered })

/-- `apply`: the radio is made like the host's, unless another choice is pending. -/
def apply (r : RadioIntent) (powered written : Bool) : Bool × RadioIntent :=
  let r := { r with initialized := true }
  match r.pending with
  | some choice =>
      if choice.2 ≠ powered then (false, r)
      else { r with pending := none }.writeRadio powered written
  | none => r.writeRadio powered written

/-- `inactive`. -/
def inactive (r : RadioIntent) : RadioIntent := { r with initialized := false, pending := none }

end RadioIntent

/-! ### `WiFiPower` -/

/-- `struct rfkill_event`. -/
structure RfkillEvent where
  index : Nat
  kind : Nat
  operation : Nat
  soft : Nat
  hard : Nat
deriving DecidableEq

/-- What a read of the rfkill file gives: an event, or bytes that are none or an error. -/
inductive Reading where
  | event (e : RfkillEvent)
  | broken
deriving DecidableEq

/-- The timers of the service. -/
inductive Timer where
  | refresh | retry | fallback
deriving DecidableEq

/-- Where the worker is with its work. -/
inductive Phase where
  | submitted
  /-- After `wifi-power`, with its problem. -/
  | attempted (problem : Option String)
  /-- The result: the host's radio, if it is known, and a problem. -/
  | done (powered : Option Bool) (problem : Option String)
deriving DecidableEq

/-- The work of `fetch`, with the key and the attempt that `finish` gets. -/
structure Flight where
  key : Option HostKey
  attempt : Option Choice
  phase : Phase
  position : Bool
deriving DecidableEq

structure WiFiPower where
  radio : RadioIntent
  key : Option HostKey
  /-- Whether `mode` is set, and is `events`. -/
  mode : Option Bool
  sources : List Timer
  closed : Bool
  busy : Bool
  dirty : Bool
  failed : Bool
  error : Bool
  /-- What the rfkill file still holds. -/
  queue : List Reading
  flight : Option Flight
  observed : Int
deriving DecidableEq

namespace WiFiPower

/-- After `RadioIntent(*switch())`. -/
def new (index : Nat) (soft : Int) : WiFiPower where
  radio := .new index soft
  key := none
  mode := none
  sources := []
  closed := false
  busy := false
  dirty := false
  failed := false
  error := false
  queue := []
  flight := none
  observed := soft

/-- `notify`. -/
def notify (w : WiFiPower) : WiFiPower :=
  if !w.closed ∧ isActive w.key then
    { w with dirty := true, sources := later w.closed .refresh w.sources }
  else w

/-- `host_changed`. -/
def hostChanged (w : WiFiPower) : WiFiPower :=
  (if !isActive w.key then { w with radio := w.radio.inactive } else w).notify

/-- One turn of `read_radio`, and whether it raised. -/
def readEvent (w : WiFiPower) (e : RfkillEvent) : Bool × WiFiPower :=
  if e.kind ≠ 1 ∨ e.index ≠ w.radio.index then (false, w)
  else if e.operation = 1 then (true, w)
  else if (e.operation ≠ 0 ∧ e.operation ≠ 2) ∨ (e.soft ≠ 0 ∧ e.soft ≠ 1) ∨
      (e.hard ≠ 0 ∧ e.hard ≠ 1) then (true, w)
  else
    let (chosen, radio) := w.radio.observe e.soft
    let w := { w with radio := radio, observed := e.soft }
    (false, if chosen then w.notify else w)

/-- The loop of `read_radio`, over what the file holds. -/
def readQueue (w : WiFiPower) : List Reading → Bool × WiFiPower
  | [] => (false, { w with queue := [] })
  | .broken :: rest => (true, { w with queue := rest })
  | .event e :: rest =>
      match w.readEvent e with
      | (true, w) => (true, { w with queue := rest })
      | (false, w) => w.readQueue rest

/-- `read_radio`. -/
def readRadio (w : WiFiPower) : Bool × WiFiPower := w.readQueue w.queue

/-- The service's exception: its main loop is to quit. -/
def fail (w : WiFiPower) : WiFiPower := { w with error := true }

/-- `radio_ready`. -/
def radioReady (w : WiFiPower) (hungUp : Bool) : WiFiPower :=
  if hungUp then w.fail
  else
    match w.readRadio with
    | (true, w) => w.fail
    | (false, w) => w

/-- `read_host`, when the status file holds `key`. -/
def readHost (w : WiFiPower) (key : Option HostKey) : WiFiPower :=
  let transition := decide (key ≠ w.key ∨ some key.isSome ≠ w.mode)
  let w := { w with key := key, mode := some key.isSome }
  let w :=
    if key.isSome then { w with sources := w.sources.filter (· ≠ .fallback) }
    else { w with sources := later w.closed .fallback w.sources }
  if transition then w.hostChanged else w

/-- `refresh`. -/
def refresh (w : WiFiPower) : WiFiPower :=
  if w.closed ∨ w.busy ∨ !w.dirty ∨ !isActive w.key then w
  else
    -- Drain choices queued before taking the work snapshot.
    match w.readRadio with
    | (true, w) => w.fail
    | (false, w) =>
        let attempt := if w.radio.initialized then w.radio.pending else none
        { w with
          dirty := false
          busy := true
          flight := some ⟨w.key, attempt, .submitted, decide (w.observed = 0)⟩ }

/-- A timer goes off. -/
def fire (w : WiFiPower) (name : Timer) : WiFiPower :=
  let w := { w with sources := w.sources.filter (· ≠ name) }
  if w.closed then w
  else
    match name with
    | .refresh => w.refresh
    | .retry => w.notify
    | .fallback =>
        let w := w.hostChanged
        { w with sources := later w.closed .fallback w.sources }

/-- The rest of `finish`, for the host's radio. -/
def settle (w : WiFiPower) (powered : Option Bool) (written : Bool) : WiFiPower :=
  match powered with
  | none =>
      let w :=
        { w with
          radio := { w.radio with initialized := false }
          sources := later w.closed .retry w.sources }
      if w.dirty then w.notify else w
  | some powered =>
      match w.radio.apply powered written with
      | (true, radio) => ({ w with radio := radio } : WiFiPower).fail
      | (false, radio) =>
          let w := { w with radio := radio, dirty := w.dirty || radio.pending.isSome }
          if w.dirty then w.notify else w

/-- `finish`. -/
def finish (w : WiFiPower) (key : Option HostKey) (attempt : Option Choice)
    (powered : Option Bool) (problem : Option String) (written : Bool) : WiFiPower :=
  if w.closed then w
  else
    let w := { w with busy := false }
    -- Do not overwrite a newer, not-yet-dispatched guest toggle.
    match w.readRadio with
    | (true, w) => w.fail
    | (false, w) =>
        let w := { w with radio := w.radio.attempted attempt }
        if key ≠ w.key ∨ !isActive w.key then w.notify
        else ({ w with failed := problem.isSome } : WiFiPower).settle powered written

end WiFiPower

/-! ### Runs -/

/-- What the service asks of the host. -/
inductive HostRequest where
  /-- `wifi-power`. -/
  | power (enabled : Bool)
  /-- `wifi-status`. -/
  | status
deriving DecidableEq

inductive RadioEvent where
  /-- The kernel puts an event into the rfkill file, or the file breaks. -/
  | arrive (reading : Reading)
  | radioReady (hungUp : Bool)
  | readHost (key : Option HostKey)
  | fire (name : Timer)
  /-- The worker's `wifi-power` ends, whatever its effect was. -/
  | powered (problem : Option String)
  /-- The worker's `wifi-status` ends. -/
  | fetched (powered : Except String Bool)
  /-- The main loop takes the worker's result; its write succeeds or not. -/
  | finish (written : Bool)
  | close
deriving DecidableEq

namespace WiFiPower

/-- The worker's requests, `fetch`. -/
def work (w : WiFiPower) (flight : Flight) : RadioEvent → Option (List HostRequest × WiFiPower)
  | .powered problem =>
      match flight.phase, flight.attempt with
      | .submitted, some attempt =>
          if w.closed then
            some ([], { w with flight := some { flight with phase := .done none (some "Stopped") } })
          else
            some ([.power attempt.2],
              { w with flight := some { flight with phase := .attempted problem } })
      | _, _ => none
  | .fetched result =>
      let problem? := match flight.phase, flight.attempt with
        | .submitted, none => some none
        | .attempted problem, _ => some problem
        | _, _ => none
      problem?.map fun problem =>
        let phase := match result with
          | .ok powered => Phase.done (some powered) problem
          | .error problem => Phase.done none (some problem)
        ([.status], { w with flight := some { flight with phase := phase } })
  | _ => none

/-- A step of the service, if there is one. -/
def step (w : WiFiPower) : RadioEvent → Option (List HostRequest × WiFiPower)
  | .arrive reading => some ([], { w with queue := w.queue ++ [reading] })
  | .radioReady hungUp => if w.closed then none else some ([], w.radioReady hungUp)
  | .readHost key => if w.closed then none else some ([], w.readHost key)
  | .fire name => if name ∈ w.sources then some ([], w.fire name) else none
  | .finish written =>
      match w.flight with
      | some ⟨key, attempt, .done powered problem, _⟩ =>
          some ([], ({ w with flight := none } : WiFiPower).finish key attempt powered problem written)
      | _ => none
  | .close => some ([], { w with closed := true, sources := [] })
  | e => w.flight.bind fun flight => w.work flight e

/-- A run of the service, with what it asked of the host. -/
abbrev Run : WiFiPower → List (RadioEvent × List HostRequest) → WiFiPower → Prop :=
  Steps fun w e o w' => w.step e = some (o, w')

end WiFiPower

end Ashacky.Devices
