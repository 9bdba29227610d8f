import Ashacky.Camera.Buffer
import Ashacky.Devices.Bluetooth

/-!
# Camera — demand

`guest/devices/camera_demand.py` and `CameraStream` of `guest/devices/camera_shared.py`: the camera of
the host is opened while somebody reads the camera of the guest, and the readers see black otherwise.

`serve` has a main loop, a thread that reads what the monitor of the readers tells, one that waits for
the writer's process, and a signal handler.  They share four flags (`threading.Event`) and `changed`,
which wakes the main loop.  A step is one operation on a flag, one frame to the writer, or one request
to the host with its answer; what a thread does between two of them is part of the first.  Writes to
the writer do not fail.  Several calls of the signal handler may be under way; Python runs them on the
thread of the main loop, which is not asked for here.
-/

namespace Ashacky.Camera.Demand
open Ashacky.Support
open Ashacky.Control (Json Object)
open Ashacky.Devices.Bluetooth (truthy)

/-! ### `CameraStream` -/

/-- The classes that `except` tells apart. -/
inductive Kind where
  | osError
  | valueError
  | runtimeError
  | other
deriving DecidableEq

/-- What is raised, with the name of its class. -/
structure Raised where
  kind : Kind
  name : String
deriving DecidableEq

def valueError : Raised := ⟨.valueError, "ValueError"⟩

/-- What is taken from Python's library. -/
structure Library where
  /-- `json.loads`. -/
  loads : List UInt8 → Except Raised Json
  /-- `str(uuid.UUID(text)).upper()`, if the text is one. -/
  uuid : String → Option String

/-- What is asked of the host. -/
inductive Request where
  | start
  | next (stream : Option String) (ack : Int)
  | stop (stream : String)
deriving DecidableEq

/-- What becomes of a request. -/
inductive Exchange where
  /-- This was raised before the request was sent: there is no connection. -/
  | unsent (error : Raised)
  /-- It was sent, and this was raised before a line was there. -/
  | unanswered (error : Raised)
  /-- What `readline` returns. -/
  | line (line : List UInt8)

/-- What kept the request from being sent. -/
def Exchange.failed : Exchange → Option Raised
  | .unsent error => some error
  | _ => none

/-- `rpc`. -/
def rpc (lib : Library) : Exchange → Except Raised Object
  | .unsent error | .unanswered error => .error error
  | .line line =>
      if line.length > 4096 ∨ line.getLast? ≠ some 10 then .error valueError
      else do
        match ← lib.loads line with
        | .obj reply => if reply.lookup "ok" = some (.bool true) then .ok reply else .error valueError
        | _ => .error valueError

/-- `value == n`, for a number that is not 0 or 1. -/
def equals (value : Option Json) (n : Int) : Bool :=
  value = some (.int n) ∨ value = some (.float (toString n ++ ".0"))

structure CameraStream where
  /-- The memory is mapped. -/
  memory : Bool
  stream : Option String
  sequence : Int
deriving DecidableEq

namespace CameraStream

/-- `__init__`. -/
def new : CameraStream := ⟨false, none, 0⟩

/-- `str(uuid.UUID(reply['stream'])).upper()`. -/
def streamOf (lib : Library) (reply : Object) : Except Raised String :=
  match reply.lookup "stream" with
  | none => .error ⟨.other, "KeyError"⟩
  | some .null => .error ⟨.other, "TypeError"⟩
  | some (.str text) => (lib.uuid text).elim (.error valueError) .ok
  | some _ => .error ⟨.other, "AttributeError"⟩

/-- The `try` of `__enter__`, with what it raises. -/
def enter (lib : Library) (s : CameraStream) (x : Exchange) : CameraStream × Option Raised :=
  match rpc lib x with
  | .error e => (s, some e)
  | .ok reply =>
      match streamOf lib reply with
      | .error e => (s, some e)
      | .ok stream =>
          ({ s with stream := some stream },
            if equals (reply.lookup "width") 1280 ∧ equals (reply.lookup "height") 720 ∧
              reply.lookup "format" = some (.str "nv12") ∧
              equals (reply.lookup "memoryBytes") (8 * 1024 * 1024) then none
            else some valueError)

/-- `frame`, when the slot is copied, or its copy fails. -/
def frame (lib : Library) (s : CameraStream) (x : Exchange) (copied : Option (List UInt8)) :
    CameraStream × Except Raised (List UInt8) :=
  match rpc lib x with
  | .error e => (s, .error e)
  | .ok reply =>
      match reply.lookup "slot", reply.lookup "sequence", copied with
      | some (.int slot), some (.int sequence), some pixels =>
          if reply.lookup "stream" = s.stream.map Json.str ∧ (0 ≤ slot ∧ slot < 3) ∧
              (s.sequence < sequence ∧ sequence ≤ 0x7fffffff) ∧
              equals (reply.lookup "width") 1280 ∧ equals (reply.lookup "height") 720 ∧
              equals (reply.lookup "bytes") (1280 * 720 * 3 / 2) ∧
              reply.lookup "format" = some (.str "nv12") then
            ({ s with sequence := sequence }, .ok pixels)
          else (s, .error valueError)
      | _, _, _ => (s, .error valueError)

/-- `__exit__`, with what its request raises and it does not catch. -/
def exit (lib : Library) (s : CameraStream) (x : Exchange) : CameraStream × Option Raised :=
  ({ s with memory := false, stream := none },
    match rpc lib x with
    | .ok _ => none
    | .error e => if e.kind = .osError ∨ e.kind = .valueError then none else some e)

end CameraStream

/-! ### `serve` -/

/-- A frame for the readers. -/
inductive Picture where
  | black
  | camera (pixels : List UInt8)
deriving DecidableEq

/-- Where the main loop is: before the operation that is named. -/
inductive Main where
  /-- The first black frames; so many are left. -/
  | priming (left : Nat)
  /-- `while not stopping.is_set()`. -/
  | top
  /-- `changed.clear()`. -/
  | clearing
  /-- The tests that follow it. -/
  | testStopping
  | testWriter
  | testMonitor
  | testActive
  /-- In `changed.wait()`. -/
  | waiting
  /-- `with CameraStream(path)`. -/
  | opening
  /-- Its request `camera-start`. -/
  | starting
  /-- `while active.is_set() and not stopping.is_set()`. -/
  | loopActive
  | loopStopping
  /-- `stream.frame()`. -/
  | framing
  /-- `if not active.is_set() or stopping.is_set()`. -/
  | frameActive (pixels : List UInt8)
  | frameStopping (pixels : List UInt8)
  | writing (pixels : List UInt8)
  /-- `__exit__`, with what is raised. -/
  | leaving (error : Option Raised)
  /-- The black frames of `finally`; so many are left, and this is raised after it. -/
  | blacking (left : Nat) (error : Option Raised)
  | counting (error : Option Raised)
  /-- `if active.is_set()`. -/
  | retrying
  /-- In `stopping.wait(.5)`. -/
  | pausing
  /-- The outer `finally`. -/
  | stopping (error : Option Raised)
  | telling (error : Option Raised)
  | ended (error : Option Raised)
deriving DecidableEq

/-- Where `watch` is. -/
inductive Monitor where
  | reading
  /-- `changed.set()`, after a line. -/
  | telling
  /-- `finally`. -/
  | clearing
  | ending
  | tellingEnd
  | ended
deriving DecidableEq

/-- Where `watch_writer` is. -/
inductive WriterWatcher where
  | waiting
  | telling
  | ended
deriving DecidableEq

structure State where
  main : Main
  monitor : Monitor
  writer : WriterWatcher
  /-- The calls of `stop` that have still to set `changed`. -/
  handlers : Nat
  active : Bool
  stopping : Bool
  changed : Bool
  writerDone : Bool
  monitorDone : Bool
  stream : CameraStream
  received : Nat
  lastError : Option String
deriving DecidableEq

/-- When the threads are started. -/
def State.initial : State :=
  { main := .priming 4
    monitor := .reading
    writer := .waiting
    handlers := 0
    active := false
    stopping := false
    changed := false
    writerDone := false
    monitorDone := false
    stream := .new
    received := 0
    lastError := none }

inductive Output where
  | wrote (picture : Picture)
  /-- A request, and what kept it from being sent. -/
  | request (request : Request) (failed : Option Raised)
  /-- The host returned a stream. -/
  | returned (stream : String)
  /-- The lines that are printed. -/
  | ready
  | transportError (category : String)
  | streamFrames (received : Nat) (stillActive : Bool)
deriving DecidableEq

inductive Event where
  /-- The main loop goes on. -/
  | main
  /-- `CameraStream(path)` and the map of its memory end. -/
  | opened (error : Option Raised)
  /-- A request ends; so does the copy of a slot. -/
  | started (x : Exchange)
  | framed (x : Exchange) (copied : Option (List UInt8))
  | stopped (x : Exchange)
  /-- The monitor's line, parsed, or none. -/
  | line (value : Option Json)
  /-- `watch` goes on. -/
  | monitor
  | writerExits
  /-- `watch_writer` goes on. -/
  | writer
  /-- `stop` is called. -/
  | signal
  /-- It goes on. -/
  | handler

namespace State

/-- The `except` of the stream, and on to `finally`. -/
def caught (s : State) (error : Option Raised) : List Output × State :=
  match error with
  | none => ([], { s with main := .blacking 4 none })
  | some e =>
      if e.kind = .other then ([], { s with main := .blacking 4 (some e) })
      else if some e.name = s.lastError then ([], { s with main := .blacking 4 none })
      else ([.transportError e.name], { s with main := .blacking 4 none, lastError := some e.name })

/-- The main loop goes on by itself. -/
def goes (s : State) : Option (List Output × State) :=
  match s.main with
  | .priming 0 => some ([.ready], { s with main := .top, lastError := none })
  | .priming (left + 1) => some ([.wrote .black], { s with main := .priming left })
  | .top => some ([], { s with main := if s.stopping then .stopping none else .clearing })
  | .clearing => some ([], { s with main := .testStopping, changed := false })
  | .testStopping => some ([], { s with main := if s.stopping then .stopping none else .testWriter })
  | .testWriter =>
      some ([], { s with
        main := if s.writerDone then .stopping (some ⟨.runtimeError, "RuntimeError"⟩) else .testMonitor })
  | .testMonitor =>
      some ([], { s with
        main := if s.monitorDone then .stopping (some ⟨.runtimeError, "RuntimeError"⟩) else .testActive })
  | .testActive =>
      some ([], if s.active then { s with main := .opening, received := 0 } else { s with main := .waiting })
  | .waiting => if s.changed then some ([], { s with main := .top }) else none
  | .loopActive => some ([], { s with main := if s.active then .loopStopping else .leaving none })
  | .loopStopping => some ([], { s with main := if s.stopping then .leaving none else .framing })
  | .frameActive pixels =>
      some ([], { s with main := if s.active then .frameStopping pixels else .leaving none })
  | .frameStopping pixels =>
      some ([], { s with main := if s.stopping then .leaving none else .writing pixels })
  | .writing pixels =>
      some ([.wrote (.camera pixels)],
        { s with main := .loopActive, received := s.received + 1, lastError := none })
  | .leaving error =>
      if s.stream.stream = none then some (caught { s with stream.memory := false } error) else none
  | .blacking 0 error => some ([], { s with main := .counting error })
  | .blacking (left + 1) error => some ([.wrote .black], { s with main := .blacking left error })
  | .counting error =>
      some (if s.received = 0 then [] else [.streamFrames s.received s.active],
        { s with main := if error = none then .retrying else .stopping error })
  | .retrying => some ([], { s with main := if s.active then .pausing else .top })
  -- `stopping` is set, or the time is over.
  | .pausing => some ([], { s with main := .top })
  | .stopping error => some ([], { s with main := .telling error, stopping := true })
  | .telling error => some ([], { s with main := .ended error, changed := true })
  | .opening | .starting | .framing | .ended _ => none

/-- `state['camera_reader_active']`, of what the monitor tells. -/
def demand : Json → Option Bool
  | .obj state => (state.lookup "camera_reader_active").map truthy
  | _ => none

/-- `stream` has been opened, or not. -/
def opened (s : State) (error : Option Raised) : List Output × State :=
  match error with
  | none => ([], { s with main := .starting, stream := { CameraStream.new with memory := true } })
  | some _ => s.caught error

/-- The request `camera-start` ends. -/
def started (lib : Library) (s : State) (x : Exchange) : List Output × State :=
  let r := s.stream.enter lib x
  (.request .start x.failed :: (r.1.stream.map Output.returned).toList,
    { s with stream := r.1, main := if r.2 = none then .loopActive else .leaving r.2 })

/-- `stream.frame()` ends. -/
def framed (lib : Library) (s : State) (x : Exchange) (copied : Option (List UInt8)) :
    List Output × State :=
  let r := s.stream.frame lib x copied
  ([.request (.next s.stream.stream s.stream.sequence) x.failed],
    { s with
      stream := r.1
      main := match r.2 with
        | .ok pixels => .frameActive pixels
        | .error e => .leaving (some e) })

/-- The request `camera-stop` of `__exit__` ends. -/
def stopped (lib : Library) (s : State) (stream : String) (error : Option Raised) (x : Exchange) :
    List Output × State :=
  let r := s.stream.exit lib x
  let c := { s with stream := r.1 : State }.caught (r.2.or error)
  (.request (.stop stream) x.failed :: c.1, c.2)

/-- `watch` goes on, after a line. -/
def watched (s : State) (value : Option Json) : State :=
  match value.bind demand with
  | some active => { s with active := active, monitor := .telling }
  | none => { s with monitor := .clearing }

end State

/-- A step of one of the threads, if there is one. -/
def step (lib : Library) (s : State) : Event → Option (List Output × State)
  | .main => s.goes
  | .opened error => if s.main = .opening then some (s.opened error) else none
  | .started x => if s.main = .starting then some (s.started lib x) else none
  | .framed x copied => if s.main = .framing then some (s.framed lib x copied) else none
  | .stopped x =>
      match s.main, s.stream.stream with
      | .leaving error, some stream => some (s.stopped lib stream error x)
      | _, _ => none
  | .line value => if s.monitor = .reading then some ([], s.watched value) else none
  | .monitor =>
      match s.monitor with
      | .telling => some ([], { s with monitor := .reading, changed := true })
      | .clearing => some ([], { s with monitor := .ending, active := false })
      | .ending => some ([], { s with monitor := .tellingEnd, monitorDone := true })
      | .tellingEnd => some ([], { s with monitor := .ended, changed := true })
      | .reading | .ended => none
  | .writerExits =>
      if s.writer = .waiting then some ([], { s with writer := .telling, writerDone := true }) else none
  | .writer =>
      if s.writer = .telling then some ([], { s with writer := .ended, changed := true }) else none
  | .signal => some ([], { s with handlers := s.handlers + 1, stopping := true })
  | .handler =>
      if s.handlers = 0 then none
      else some ([], { s with handlers := s.handlers - 1, changed := true })

/-- A run of `serve`. -/
abbrev Run (lib : Library) : State → List (Event × List Output) → State → Prop :=
  Steps fun s e o s' => step lib s e = some (o, s')

/-- What was put out in a run. -/
def outputs (t : List (Event × List Output)) : List Output := t.flatMap Prod.snd

end Ashacky.Camera.Demand
