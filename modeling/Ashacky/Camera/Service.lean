import Ashacky.Camera.Lease
import Ashacky.Control.Json

/-!
# Camera — the service

`host/devices/CameraService.swift`: who may use the host's camera, and for how long.  Requests, the
lease's timer and the blocks that stop the camera run on the control queue, one at a time; samples
arrive on a queue of their own, under `lock`.  A task of the control queue is a state between two
points where it may wait: for `lock`, for the lock of the buffer, for a frame.  The steps of the
buffer are those of `CameraBuffer`, with `holder` the thread whose method has its lock.

Captures, with their outputs, have the numbers in which they were made; `camera` and `output` below
are such numbers.  A request has the number of requests before it.  A block of the control queue runs
at any time, the timer at any time after its deadline.

Left out are the log, and `start`, which makes the buffer and the server.
-/

namespace Ashacky.Camera.Service
open Ashacky.Support
open Ashacky.Control (Json Object)

/-! ### The outside -/

/-- `kCVPixelFormatType_420YpCbCr8BiPlanarVideoRange`. -/
def videoRange : Nat := 0x34323076

/-- An image buffer.  Its planes are there if it can be locked and both have an address. -/
structure Pixel where
  format : Nat
  planeCount : Nat
  width : Nat
  height : Nat
  planes : Option Planes

/-- The guard of `captureOutput`. -/
def Pixel.fits (F : Format) (p : Pixel) : Bool :=
  p.format = videoRange && p.planeCount = 2 && p.width = F.width && p.height = F.height

/-- What a request finds. -/
structure World where
  /-- The peer is the same user, and its session is active. -/
  admitted : Bool
  /-- `Self.active()`, on the control queue. -/
  active : Bool
  authorized : Bool
  /-- The error that making a capture throws. -/
  fault : Option String

/-! ### The state -/

/-- What the control queue is at. -/
inductive Task where
  | idle
  /-- Before `buffer!.begin()`, in it, and after it. -/
  | making (request camera : Nat)
  | beginning (request camera : Nat) (id : String)
  | begun (request camera : Nat) (id : String)
  /-- Before `startRunning`, and before `renew`. -/
  | starting (request camera : Nat) (id : String)
  | renewing (request : Nat) (id : String)
  /-- Before `buffer!.next`, in it, and after it. -/
  | asking (request : Nat) (id : String) (ack : Int)
  | waiting (request : Nat)
  | served (request : Nat) (reply : Reply)
  /-- In `stop`: before its lock, before the timer is cancelled, before `stopRunning`, before
  `buffer?.end()`, and in that.  A request is answered when it is over. -/
  | stopping (expected : Option Nat) (answer : Option (Nat × Object))
  | released (answer : Option (Nat × Object))
  | halting (answer : Option (Nat × Object))
  | clearing (answer : Option (Nat × Object))
  | ending (answer : Option (Nat × Object))

/-- What `captureOutput` is at: it has `lock` unless it is idle. -/
inductive Frames where
  | idle
  /-- Before `buffer?.publish`. -/
  | holding (output : Nat) (planes : Planes)
  | publishing

inductive Thread where
  | control
  | frames
deriving DecidableEq

structure CameraService where
  buffer : CameraBuffer
  /-- Whose method has the buffer's lock. -/
  holder : Option Thread
  task : Task
  frames : Frames
  session : Option Nat
  /-- The capture runs. -/
  running : Bool
  activeOutput : Option Nat
  stream : Option String
  /-- The deadline of the timer. -/
  lease : Option Nat
  count : Nat
  /-- `stop` on the control queue, for the output it expects. -/
  blocks : List (Option Nat)
  now : Nat
  made : Nat
  requests : Nat

/-- What a step shows. -/
inductive Shown where
  | answer (request : Nat) (answer : Object)
  /-- The buffer began a stream for a capture. -/
  | began (camera generation : Nat)
  /-- A frame of an output is published. -/
  | published (output : Nat) (frame : Publication)

/-- What happens. -/
inductive Act where
  | request (world : World) (value : Object)
  /-- The control queue goes on. -/
  | proceed
  /-- `next` wakes up. -/
  | wake (timeout : Bool)
  /-- The handler of the timer. -/
  | expire
  /-- A block of the control queue. -/
  | block (index : Nat)
  /-- The session resigns, or the host goes to sleep. -/
  | suspend
  /-- `captureOutput`; `active` is `Self.active()`. -/
  | capture (output : Nat) (active : Bool) (pixel : Option Pixel)
  /-- It goes on. -/
  | publish
  /-- A store of the method that has the buffer's lock, and its end. -/
  | store (k : Nat)
  | unlock
  /-- A reader of the guest starts, and goes on. -/
  | copy (slot generation sequence bytes : Nat) (destination : Pixels)
  | read (reader k : Nat)
  | tick (milliseconds : Nat)

def failed (error : String) : Object := [("ok", .bool false), ("error", .str error)]

/-- `String(describing:)` of an `IPCError`. -/
def describe (message : String) : String := "message(\"" ++ message ++ "\")"

/-- The answer to `camera-start`. -/
def started (F : Format) (id : String) : Object :=
  [("ok", .bool true), ("stream", .str id), ("width", .int F.width), ("height", .int F.height),
    ("format", .str "nv12"), ("memoryBytes", .int (8 * 1024 * 1024))]

/-- The answer of `next`. -/
def frameObject (r : Reply) : Object :=
  [("ok", .bool true), ("stream", .str r.stream), ("slot", .int r.slot),
    ("sequence", .int r.sequence), ("width", .int r.width), ("height", .int r.height),
    ("bytes", .int r.bytes), ("format", .str r.format)]

/-- The acknowledgement of `camera-next`. -/
def acknowledgement (value : Object) : Option Int :=
  match value.lookup "ack" with
  | some (.int n) => if 0 ≤ n ∧ n ≤ 2147483647 then some n else none
  | _ => none

/-- What follows `next`, if it returned. -/
def Task.next (n : Nat) : Output → Task
  | .reply (.ok r) => .served n r
  | .reply (.error error) => .stopping none (some (n, failed (describe error)))
  | _ => .waiting n

namespace CameraService

/-- The service when it starts. -/
def initial (F : Format) (memory : Memory) : CameraService where
  buffer := .initial F memory
  holder := none
  task := .idle
  frames := .idle
  session := none
  running := false
  activeOutput := none
  stream := none
  lease := none
  count := 0
  blocks := []
  now := 0
  made := 0
  requests := 0

/-- `renew`. -/
def renew (s : CameraService) : CameraService := { s with lease := some (s.now + 5000) }

/-- What a request is answered with, and what it begins: `request`, up to where it may wait. -/
def request (w : World) (value : Object) (s : CameraService) : List Shown × CameraService :=
  let n := s.requests
  let s := { s with requests := n + 1 }
  let refuse (error : String) := ([Shown.answer n (failed (describe error))], s)
  if !w.admitted then ([.answer n (failed "Camera requires the active console user")], s)
  else if !w.active || !w.authorized then
    ([], { s with
      task := .stopping none
        (some (n, failed (describe "Camera permission or active session unavailable"))) })
  else if Object.text value "action" = some "camera-start" ∧ value.length = 1 then
    if s.session ≠ none then refuse "Camera already in use"
    else
      match w.fault with
      | some error => ([.answer n (failed error)], s)
      | none => ([], { s with task := .making n s.made, made := s.made + 1 })
  else
    match Object.text value "stream" with
    | none => refuse "Stale camera stream"
    | some id =>
        if s.stream ≠ some id then refuse "Stale camera stream"
        else if Object.text value "action" = some "camera-stop" ∧ value.length = 2 then
          ([], { s with task := .stopping none (some (n, [("ok", .bool true)])) })
        else if Object.text value "action" = some "camera-next" ∧ value.length = 3 then
          match acknowledgement value with
          | some ack => ([], { s with task := .asking n id ack })
          | none => refuse "Invalid camera request"
        else refuse "Invalid camera request"

/-- What a task that is over shows. -/
def answers (answer : Option (Nat × Object)) : List Shown :=
  answer.toList.map fun a => .answer a.1 a.2

section Steps
variable (F : Format) (uuidString : Nat → String)

/-- The control queue goes on.  `lock` is there when `captureOutput` is idle. -/
def proceed (s : CameraService) : Option (Option (Event × Output) × List Shown × CameraService) :=
  match s.task with
  | .making n camera =>
      (Camera.step F uuidString s.buffer .beginStream).map fun r =>
        (some (.beginStream, r.1), [.began camera s.buffer.drawn],
          { s with
            buffer := r.2
            holder := some .control
            task := .beginning n camera (uuidString s.buffer.drawn) })
  | .begun n camera id =>
      match s.frames with
      | .idle =>
          some (none, [], { s with
            stream := some id
            session := some camera
            activeOutput := some camera
            count := 0
            task := .starting n camera id })
      | _ => none
  | .starting n _ id => some (none, [], { s with running := true, task := .renewing n id })
  | .renewing n id =>
      some (none, [.answer n (started F id)], { s with task := .idle : CameraService }.renew)
  | .asking n id ack =>
      (Camera.step F uuidString s.buffer (.next id ack)).map fun r =>
        (some (.next id ack, r.1), [], { s with buffer := r.2, task := .next n r.1 })
  | .served n reply =>
      some (none, [.answer n (frameObject reply)], { s with task := .idle : CameraService }.renew)
  | .stopping expected answer =>
      match s.frames with
      | .idle =>
          if expected ≠ none ∧ s.activeOutput ≠ expected then
            some (none, answers answer, { s with task := .idle })
          else some (none, [], { s with activeOutput := none, task := .released answer })
      | _ => none
  | .released answer => some (none, [], { s with lease := none, task := .halting answer })
  | .halting answer =>
      some (none, [], { s with
        running := false
        session := none
        stream := none
        task := .clearing answer })
  | .clearing answer =>
      (Camera.step F uuidString s.buffer .endStream).map fun r =>
        (some (.endStream, r.1), [],
          { s with buffer := r.2, holder := some .control, task := .ending answer })
  | .idle | .beginning .. | .waiting _ | .ending _ => none

/-- The method that had the buffer's lock returns. -/
def returns (s : CameraService) : List Shown × CameraService :=
  match s.holder, s.task, s.frames with
  | some .control, .beginning n camera id, _ =>
      ([], { s with holder := none, task := .begun n camera id })
  | some .control, .ending answer, _ => (answers answer, { s with holder := none, task := .idle })
  | some .frames, _, .publishing =>
      ([], { s with holder := none, frames := .idle, count := s.count + 1 })
  | _, _, _ => ([], { s with holder := none })

/-- `captureOutput`, up to its call of `publish`. -/
def capture (output : Nat) (active : Bool) (pixel : Option Pixel) (s : CameraService) : CameraService :=
  if s.activeOutput = some output then
    match pixel.filter fun p => active && p.fits F with
    | none => { s with blocks := s.blocks ++ [some output] }
    | some p =>
        match p.planes with
        | none => s
        | some planes => { s with frames := .holding output planes }
  else s

/-- The frames that a call published. -/
def news (output : Nat) (before after : CameraBuffer) : List Shown :=
  (after.published.drop before.published.length).map (.published output)

/-- A step, with the step of the buffer. -/
def step (s : CameraService) : Act → Option (Option (Event × Output) × List Shown × CameraService)
  | .request world value =>
      match s.task with
      | .idle => some (none, s.request world value)
      | _ => none
  | .proceed => s.proceed F uuidString
  | .wake timeout =>
      match s.task with
      | .waiting n =>
          (Camera.step F uuidString s.buffer (.wake 0 timeout)).map fun r =>
            (some (.wake 0 timeout, r.1), [], { s with buffer := r.2, task := .next n r.1 })
      | _ => none
  | .expire =>
      match s.task, s.lease with
      | .idle, some deadline =>
          if deadline ≤ s.now then some (none, [], { s with task := .stopping none none }) else none
      | _, _ => none
  | .block index =>
      match s.task with
      | .idle =>
          (s.blocks[index]?).map fun expected =>
            (none, [], { s with
              blocks := s.blocks.eraseIdx index
              task := .stopping expected none })
      | _ => none
  | .suspend => some (none, [], { s with blocks := s.blocks ++ [none] })
  | .capture output active pixel =>
      match s.frames with
      | .idle => some (none, [], s.capture F output active pixel)
      | _ => none
  | .publish =>
      match s.frames with
      | .holding output planes =>
          (Camera.step F uuidString s.buffer (.publish planes)).map fun r =>
            (some (.publish planes, r.1), news output s.buffer r.2,
              if r.2.lock = none then { s with buffer := r.2, frames := .idle, count := s.count + 1 }
              else { s with buffer := r.2, frames := .publishing, holder := some .frames })
      | _ => none
  | .store k =>
      (Camera.step F uuidString s.buffer (.store k)).map fun r =>
        (some (.store k, r.1), [], { s with buffer := r.2 })
  | .unlock =>
      (Camera.step F uuidString s.buffer .unlock).map fun r =>
        (some (.unlock, r.1), { s with buffer := r.2 : CameraService }.returns)
  | .copy slot generation sequence bytes destination =>
      (Camera.step F uuidString s.buffer (.copy slot generation sequence bytes destination)).map
        fun r => (some (.copy slot generation sequence bytes destination, r.1), [],
          { s with buffer := r.2 })
  | .read reader k =>
      (Camera.step F uuidString s.buffer (.read reader k)).map fun r =>
        (some (.read reader k, r.1), [], { s with buffer := r.2 })
  | .tick milliseconds => some (none, [], { s with now := s.now + milliseconds })

/-- A step, with what it shows and what the buffer did. -/
def Step (s : CameraService) (x : Act) (o : Option (Event × Output) × List Shown) (s' : CameraService) : Prop :=
  s.step F uuidString x = some (o.1, o.2, s')

end Steps

end CameraService

end Ashacky.Camera.Service
