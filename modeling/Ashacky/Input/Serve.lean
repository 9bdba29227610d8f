import Ashacky.Input.Contacts
import Ashacky.Support.Bytes

/-!
# Input — Serve

`serve` of `guest/input/trackpad.py`: the loop that reads the host's frames from the port, tells the
host that the pad is there and that a frame was applied, and lets go of what is held when no frame
comes.

A step is a reading of the clock, a call on the port with its outcome, or what the loop does by itself
between two of them.  The clock is exact and does not go back, and the device takes what is written.
-/

namespace Ashacky.Input
open Ashacky.Support Multitouch

namespace Serve

/-- What is raised. -/
inductive Raised where
  | valueError (text : String)
  | typeError
  | keyError
  | osError (text : String)
  | recursionError
deriving DecidableEq

/-- `except (ValueError,TypeError,KeyError)`. -/
def Raised.handled : Raised → Bool
  | .valueError _ | .typeError | .keyError => true
  | _ => false

inductive Message where
  /-- `LH_INPUT_READY`. -/
  | ready
  /-- `LH_INPUT_APPLIED`. -/
  | applied
deriving DecidableEq

/-- How long the message is, with its newline. -/
def Message.length : Message → Nat
  | .ready => 15
  | .applied => 17

/-- What `os.write` does; it may write a part only. -/
inductive Sent where
  | wrote (count : Nat)
  /-- `BlockingIOError`. -/
  | blocks
  | fails (error : Raised)

/-- What `os.read` does; at the end there is nothing to read. -/
inductive Received where
  | data (data : Data)
  /-- `BlockingIOError`. -/
  | blocks
  | fails (error : Raised)

/-- Where the loop is. -/
inductive Place where
  /-- `now=time.monotonic()`. -/
  | top
  /-- `reply(fd,b'LH_INPUT_READY\n')`. -/
  | greeting
  /-- `next_ready=time.monotonic()+1`. -/
  | greeted
  /-- `timeout=…`. -/
  | timing
  /-- In `select`. -/
  | waiting
  | reading
  /-- `while b'\n' in buf`. -/
  | lines
  /-- `reply(fd,b'LH_INPUT_APPLIED\n')`. -/
  | applying
  /-- `finally`, and what is raised after it. -/
  | leaving (error : Option Raised)
  | ended (error : Option Raised)
deriving DecidableEq

structure State where
  place : Place
  pad : Pad
  buf : Data
  last : ℚ
  nextReady : ℚ
  blocked : Bool
  /-- The last reading of the clock. -/
  clock : ℚ
deriving DecidableEq

inductive Event where
  | clock (now : ℚ)
  | write (sent : Sent)
  | select (result : Except Raised (Bool × Bool))
  | read (received : Received)
  /-- The loop goes on. -/
  | goes

inductive Output where
  /-- `pad.frame([],0)`. -/
  | released (writes : Writes)
  /-- A frame that was accepted, and the time right after it. -/
  | submitted (f : Frame) (writes : Writes) (time : ℚ)
  | wrote (message : Message) (count : Nat)
  /-- A call of `select`. -/
  | select (write : Bool) (timeout : Option ℚ)
deriving DecidableEq

/-- Before the loop; the clock is read once. -/
def State.start (now : ℚ) : State := ⟨.top, .new, [], now, now, false, now⟩

/-- `pad.slots or pad.buttons`. -/
def holds (pad : Pad) : Bool := pad.slots ≠ [] ∨ pad.buttons ≠ 0

/-- `buf.split(b'\n',1)`, if there is a newline. -/
def splitLine (buf : Data) : Option (Data × Data) :=
  if 10 ∈ buf then some (buf.takeWhile (· ≠ 10), (buf.dropWhile (· ≠ 10)).drop 1) else none

/-- `validate(json.loads(line))`. -/
def parse (loads : Data → Except Raised Value) (line : Data) : Except Raised Frame := do
  (validate (← loads line)).mapError .valueError

namespace State

/-- `pad.frame([],0)`, and on to another place. -/
def release (s : State) : Option (List Output × State) := do
  let (writes, pad) ← s.pad.frame ⟨[], 0⟩
  return ([.released writes], { s with pad })

/-- `raise`, up to `finally`. -/
def raised (s : State) (error : Raised) : State := { s with place := .leaving (some error) }

/-- `deadlines`. -/
def deadlines (s : State) : List ℚ :=
  (if s.blocked then [] else [s.nextReady]) ++ if holds s.pad then [s.last + 1] else []

/-- From the top of the loop to the reply. -/
def begin (s : State) (now : ℚ) : Option (List Output × State) := do
  let s := { s with
    place := if s.nextReady ≤ now ∧ !s.blocked then .greeting else .timing
    clock := now }
  if holds s.pad ∧ 1 ≤ now - s.last then s.release else return ([], s)

/-- `reply`, whose error is not `BlockingIOError`, and on to another place. -/
def reply (s : State) (message : Message) (count : Nat) (place : Place) : List Output × State :=
  ([.wrote message count],
    if count = message.length then { s with place := place }
    else s.raised (.osError "Incomplete trackpad acknowledgement"))

/-- An error in the `try` of a line. -/
def refuse (s : State) (error : Raised) : Option (List Output × State) :=
  if error.handled then { s with place := .lines : State }.release else some ([], s.raised error)

/-- A line that is accepted. -/
def accept (s : State) (f : Frame) (rest : Data) (now : ℚ) : Option (List Output × State) := do
  let (writes, pad) ← s.pad.frame f
  return ([.submitted f writes now],
    { s with
      place := if f.points = [] then .lines else .applying
      pad := pad
      buf := rest
      last := now
      clock := now })

/-- The data that is read. -/
def take (s : State) (data : Data) : State :=
  if data = [] then { s with place := .leaving none }
  else if (s.buf ++ data).length > 65536 then
    { s with buf := s.buf ++ data : State }.raised (.valueError "oversized input")
  else { s with buf := s.buf ++ data, place := .lines }

end State

/-- A step of the loop, if there is one. -/
def step (loads : Data → Except Raised Value) (s : State) : Event → Option (List Output × State)
  | .clock now =>
      if now < s.clock then none
      else
        match s.place with
        | .top => s.begin now
        | .greeted => some ([], { s with place := .timing, nextReady := now + 1, clock := now })
        | .timing =>
            s.deadlines.min?.map fun deadline =>
              ([.select s.blocked (some (max 0 (deadline - now)))], { s with place := .waiting, clock := now })
        | .lines =>
            match splitLine s.buf with
            | some (line, rest) =>
                match parse loads line with
                | .ok f => s.accept f rest now
                | .error _ => none
            | none => none
        | _ => none
  | .write sent =>
      match s.place, sent with
      | .greeting, .wrote count => some (s.reply .ready count .greeted)
      | .greeting, .blocks => some ([], { s with place := .timing, blocked := true })
      | .greeting, .fails error => some ([], s.raised error)
      | .applying, .wrote count => some (s.reply .applied count .lines)
      | .applying, .blocks => some ([], { s with place := .lines })
      | .applying, .fails error => s.refuse error
      | _, _ => none
  | .select result =>
      match s.place, result with
      | .waiting, .ok (readable, writable) =>
          some ([], { s with
            place := if readable then .reading else .top
            blocked := s.blocked && !writable })
      | .waiting, .error error => some ([], s.raised error)
      | _, _ => none
  | .read received =>
      match s.place, received with
      | .reading, .data data => if data.length ≤ 8192 then some ([], s.take data) else none
      | .reading, .blocks => some ([], { s with place := .top })
      | .reading, .fails error => some ([], s.raised error)
      | _, _ => none
  | .goes =>
      match s.place with
      | .timing =>
          if s.deadlines = [] then some ([.select s.blocked none], { s with place := .waiting }) else none
      | .lines =>
          match splitLine s.buf with
          | none => some ([], { s with place := .top })
          | some (line, rest) =>
              match parse loads line with
              | .ok _ => none
              | .error error => { s with buf := rest : State }.refuse error
      | .leaving error => { s with place := .ended error : State }.release
      | _ => none

/-- A run of `serve`. -/
abbrev Run (loads : Data → Except Raised Value) : State → List (Event × List Output) → State → Prop :=
  Steps fun s e o s' => step loads s e = some (o, s')

/-- What was put out in a run. -/
def outputs (t : List (Event × List Output)) : List Output := t.flatMap Prod.snd

end Serve

end Ashacky.Input
