import Mathlib.Algebra.Order.Field.Rat
import Ashacky.Support.Feed
import Ashacky.Support.Machine

/-!
# Audio — output volume

`guest/devices/audio_volume.py`: the volume of the host's output and that of a PipeWire node are kept
the same.  `OutputVolume.reconcile` is called with the host's volume and the node's reported state;
it writes the node, or asks the host for the volume that the user has set on the node.

Levels are exact, and `equal` is equality.  The key of a device and its node is fixed.  `x ** (1 / 3)`
is a parameter (`root`): what it is of only goes into the request.  Where `reconcile` raises,
`AudioBridge.reconcile` falls back; both together are one outcome.
-/

namespace Ashacky.Audio
open Ashacky.Support

/-- `outputVolume` of a host device. -/
structure Profile where
  level : ℚ
  muted : Bool
  deriving DecidableEq

/-- What `level_state` returns. -/
structure LevelState where
  levels : List ℚ
  muted : Bool
  deriving DecidableEq

/-- The `Props` of a node. -/
structure Props where
  channelVolumes : List ℚ
  mute : Bool
  softVolumes : List ℚ
  softMute : Bool
  deriving DecidableEq

def Props.shown (p : Props) : LevelState := ⟨p.channelVolumes, p.mute⟩

def Props.soft (p : Props) : LevelState := ⟨p.softVolumes, p.softMute⟩

/-- `level_state`, or `none` when it raises. -/
def levelState (p : Props) : Option LevelState :=
  if 1 ≤ p.channelVolumes.length ∧ p.channelVolumes.length ≤ 64 ∧ ∀ v ∈ p.channelVolumes, 0 ≤ v then
    some p.shown
  else none

/-- `set_props`: the state that the write leaves. -/
def setProps (levels : List ℚ) (muted : Bool) (software : List ℚ) : Props :=
  ⟨levels, muted, software, muted⟩

/-- `(device['uid'], node['id'])`. -/
structure Key where
  uid : String
  node : Nat
  deriving DecidableEq

/-- `(before, wanted, deadline)`. -/
structure Pending where
  before : LevelState
  wanted : LevelState
  deadline : ℚ
  deriving DecidableEq

structure OutputVolume where
  key : Option Key
  host : Option Profile
  observed : Option LevelState
  pending : Option Pending
  balance : List ℚ
  deriving DecidableEq

/-- The `audio-volume` request. -/
structure Request where
  uid : String
  desired : Profile
  expected : Profile
  deriving DecidableEq

/-- What a call leaves: the object, the writes to the node, and the request to the host. -/
structure Outcome where
  volume : OutputVolume
  writes : List Props
  request : Option Request
  deriving DecidableEq

/-- What the host makes of a request: it fails, the device has no volume or is not the output any
more, or its volume is the given one. -/
inductive Answer where
  | raises
  | gone
  | volume (p : Profile)
  deriving DecidableEq

namespace OutputVolume

/-- `reset`, and the constructor. -/
def reset : OutputVolume := ⟨none, none, none, none, []⟩

/-- `fallback`. -/
def fallback (props : Props) (request : Option Request) (v : OutputVolume) : Outcome :=
  match v.key, levelState props with
  | some _, some actual => ⟨reset, [setProps actual.levels actual.muted actual.levels], request⟩
  | _, _ => ⟨reset, [], request⟩

/-- What is made of a pending write: it is waited for, its echo is stale, or neither. -/
inductive Echo where
  | waits
  | stale
  | none
  deriving DecidableEq

/-- The check of `pending`. -/
def checkPending (actual : LevelState) (host : Profile) (now : ℚ) (v : OutputVolume) :
    Echo × OutputVolume :=
  match v.pending with
  | some p =>
      if actual = p.wanted then (.none, { v with pending := none })
      else if actual = p.before then
        if v.host = some host ∧ now < p.deadline then (.waits, v)
        else (.stale, { v with pending := none })
      else (.none, { v with pending := none })
  | none => (.none, v)

def maximum (levels : List ℚ) : ℚ := levels.foldl max 0

/-- The state that the host's volume gives the node. -/
def wanted (host : Profile) (balance : List ℚ) : LevelState :=
  ⟨balance.map fun b => host.level ^ 3 * b, host.muted⟩

/-- The end of `reconcile`: the node is written where it is not as wanted. -/
def finish (host : Profile) (actual : LevelState) (props : Props) (now : ℚ)
    (request : Option Request) (v : OutputVolume) : Outcome :=
  let w := wanted host v.balance
  if actual ≠ w ∨ props.soft ≠ ⟨v.balance, w.muted⟩ then
    ⟨{ v with
        pending := some ⟨actual, w, now + 2⟩
        host := some host
        observed := some w },
      [setProps w.levels w.muted v.balance], request⟩
  else ⟨{ v with host := some host, observed := some w }, [], request⟩

/-- A key that was not there before. -/
def adopt (key : Key) (actual : LevelState) : OutputVolume :=
  let m := maximum actual.levels
  { reset with
    key := some key
    balance := actual.levels.map fun v => if m ≠ 0 then v / m else 1 }

/-- The balance that the user has set. -/
def rebalance (actual : LevelState) (v : OutputVolume) : OutputVolume :=
  let m := maximum actual.levels
  { v with balance := List.zipWith (fun l b => if m ≠ 0 then l / m else b) actual.levels v.balance }

/-- The request for the volume that the user has set. -/
def change (root : ℚ → ℚ) (key : Key) (host : Profile) (actual : LevelState) : Request :=
  ⟨key.uid, ⟨min 1 (root (maximum actual.levels)), actual.muted⟩, host⟩

/-- `reconcile`, at the times of its two looks at the clock. -/
def reconcile (root : ℚ → ℚ) (key : Key) (profile : Option Profile) (props : Props)
    (now after : ℚ) (answer : Answer) (v : OutputVolume) : Outcome :=
  match profile, levelState props with
  | some host, some actual =>
      if 0 ≤ host.level ∧ host.level ≤ 1 then
        let fresh := v.key ≠ some key
        let v := if fresh then adopt key actual else v
        match v.checkPending actual host now with
        | (.waits, v) => ⟨v, [], none⟩
        | (echo, v) =>
            if ¬ fresh ∧ echo ≠ .stale ∧ v.host = some host ∧ v.observed ≠ some actual then
              let v := v.rebalance actual
              let request := some (change root key host actual)
              match answer with
              | .raises | .gone => v.fallback props request
              | .volume host => v.finish host actual props after request
            else v.finish host actual props after none
      else v.fallback props none
  | _, _ => v.fallback props none

end OutputVolume

/-! ### The machine -/

/-- The object, and the states of the node. -/
structure System where
  volume : OutputVolume
  node : Feed Props

def System.initial (props : Props) : System := ⟨.reset, .initial props⟩

/-- What happens: the user sets the node, `reconcile` is called with a report of it and the host's
volume, or `AudioBridge` fails elsewhere and falls back, where the write may fail too. -/
inductive Event where
  | user (props : Props)
  | reconcile (report : Nat) (profile : Option Profile) (now after : ℚ) (answer : Answer)
  | failure (report : Nat) (writes : Bool)

section Machine
variable (root : ℚ → ℚ) (key : Key)

/-- A step, with the request that it makes. -/
def step (s : System) : Event → Option (Option Request × System)
  | .user props => some (none, { s with node := s.node.set .other props })
  | .reconcile k profile now after answer =>
      match s.node.entries[k]? with
      | some e =>
          if s.node.reported ≤ k then
            let o := s.volume.reconcile root key profile e.value now after answer
            some (o.request, ⟨o.volume, (s.node.see k).setOwn o.writes⟩)
          else none
      | none => none
  | .failure k writes =>
      match s.node.entries[k]? with
      | some e =>
          if s.node.reported ≤ k then
            let o := s.volume.fallback e.value none
            some (none, ⟨o.volume, (s.node.see k).setOwn (if writes then o.writes else [])⟩)
          else none
      | none => none

abbrev Trace := List (Event × Option Request)

/-- A run. -/
abbrev Run : System → Trace → System → Prop :=
  Steps fun s e o s' => step root key s e = some (o, s')

end Machine

end Ashacky.Audio
