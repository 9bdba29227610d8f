import Ashacky.Control.Broker

/-!
# Control — the host channel

`host/session/ControlChannel.swift`: the channel answers a hello with a welcome under a fresh
session, hands the requests of that session to the host's handlers, and queues a response for each
completion that finds its generation unchanged.  `close()` begins a new generation; handlers of the
old one run on.

What the channel calls is kept beside its state: the writes and handlers whose completion is still
to come, and the lines handed to the port (`output`).  A line is kept with the frame it encodes.
Generations (`UUID()`) are counted.
-/

namespace Ashacky.Control
open Ashacky.Support

/-- A call of `request`. -/
structure Invocation where
  generation : Nat
  session : String
  id : Int
  service : Service
  payload : Object

/-- A response that refuses a request. -/
structure Refusal where
  session : String
  id : Int
  payload : Object

/-- A session, with the generation it was opened in and the nonce it answered. -/
structure Opened where
  session : String
  generation : Nat
  nonce : String

/-- A frame of the host.  A response has the number of the invocation whose result it carries, or
none when it is a refusal. -/
inductive HostFrame where
  | welcome (nonce session token : String)
  | response (session : String) (id : Int) (payload : Object) (origin : Option Nat)
  | reset

/-- The object of a frame, with the version that `enqueue` adds. -/
def HostFrame.entries : HostFrame → Object
  | .welcome nonce session token =>
      [("type", .str "welcome"), ("nonce", .str nonce), ("session", .str session),
        ("token", .str token), ("version", .int 1)]
  | .response session id payload _ =>
      [("type", .str "response"), ("session", .str session), ("id", .int id),
        ("payload", .obj payload), ("version", .int 1)]
  | .reset => resetObject

/-- The bytes of a frame, with their newline. -/
structure Line where
  frame : HostFrame
  bytes : Data

/-- What has happened at the host so far: the sessions opened, the handler invocations, the results
they completed with, each with the number of its invocation, and the requests refused. -/
structure History where
  opened : List Opened
  invocations : List Invocation
  results : List (Nat × Object)
  refusals : List Refusal

structure ControlChannel where
  session : Option String
  generation : Nat
  buffer : Data
  queue : List Line
  queuedBytes : Int
  writing : Bool
  active : List Int
  outstanding : Int
  lastRequest : Int
  /-- The sessions drawn so far. -/
  drawn : Nat
  /-- The writes whose completion is still to come, each with its generation. -/
  writes : List (Nat × Line)
  /-- The invocations whose completion is still to come. -/
  running : List Nat
  /-- The lines handed to the port since it last took them. -/
  output : List Line
  history : History

def maximumFrame : Nat := 32768

def maximumQueue : Nat := 262144

/-- `["host", "wifi", "bluetooth", "camera", "fido2"].contains(service)`. -/
def serviceOf (name : String) : Option Service :=
  [Service.host, .wifi, .bluetooth, .camera, .fido2].find? (·.name = name)

/-- `integer`: an integer of 64 bits. -/
def integer : Json → Option Int
  | .int n => if -(2 ^ 63) ≤ n ∧ n < 2 ^ 63 then some n else none
  | _ => none

namespace ControlChannel

/-- `init`. -/
def initial : ControlChannel where
  session := none
  generation := 0
  buffer := []
  queue := []
  queuedBytes := 0
  writing := false
  active := []
  outstanding := 0
  lastRequest := 0
  drawn := 0
  writes := []
  running := []
  output := []
  history := ⟨[], [], [], []⟩

/-- `close`. -/
def close (c : ControlChannel) : ControlChannel :=
  { c with
    generation := c.generation + 1
    session := none
    buffer := []
    queue := []
    queuedBytes := 0
    writing := false
    active := []
    lastRequest := 0 }

/-- `fail`: close, and `failed`, which writes a reset. -/
def fail (c : ControlChannel) : ControlChannel :=
  { c.close with output := c.output ++ [⟨.reset, resetText ++ [10]⟩] }

/-- `drain`. -/
def drain (c : ControlChannel) : ControlChannel :=
  match c.writing, c.queue with
  | false, line :: _ =>
      { c with
        writing := true
        writes := c.writes ++ [(c.generation, line)]
        output := c.output ++ [line] }
  | _, _ => c

section

variable (F : Foundation)

/-- `enqueue`. -/
def enqueue (frame : HostFrame) (c : ControlChannel) : ControlChannel :=
  match F.data frame.entries with
  | some bytes =>
      if bytes.length ≤ maximumFrame then
        if c.queuedBytes + (bytes.length + 1) ≤ maximumQueue then
          drain { c with
            queue := c.queue ++ [⟨frame, bytes ++ [10]⟩]
            queuedBytes := c.queuedBytes + (bytes.length + 1) }
        else c.fail
      else c.fail
  | none => c.fail

/-- `reply`. -/
def reply (id : Int) (payload : Object) (origin : Option Nat) (c : ControlChannel) :
    ControlChannel :=
  match c.session with
  | some session => c.enqueue F (.response session id payload origin)
  | none => c

/-- The refusal of the supervisor's operation. -/
def supervisorRequired : Object :=
  [("ok", .bool false), ("error", .str "Supervisor endpoint required")]

/-- The refusal of a request while 16 handlers run. -/
def busy : Object := [("ok", .bool false), ("error", .str "Control channel busy")]

/-- A `reply` that refuses the request. -/
def refuse (session : String) (id : Int) (payload : Object) (c : ControlChannel) : ControlChannel :=
  reply F id payload none { c with
    history := { c.history with refusals := c.history.refusals ++ [⟨session, id, payload⟩] } }

/-- The request branch of `handle`, with its fields. -/
def handleRequest (session : String) (id : Int) (service : Service) (payload : Object)
    (c : ControlChannel) : ControlChannel :=
  let c := { c with lastRequest := id }
  if Object.text payload "action" = some "vm-stopped" then c.refuse F session id supervisorRequired
  else if c.outstanding < 16 then
    { c with
      active := if id ∈ c.active then c.active else c.active ++ [id]
      outstanding := c.outstanding + 1
      running := c.running ++ [c.history.invocations.length]
      history := { c.history with
        invocations := c.history.invocations ++ [⟨c.generation, session, id, service, payload⟩] } }
  else c.refuse F session id busy

/-- The first branch of `handle`, without a session. -/
def handleHello (token nonce : String) (c : ControlChannel) : ControlChannel :=
  let session := F.uuidString c.drawn
  enqueue F (.welcome nonce session token) { c with
    session := some session
    drawn := c.drawn + 1
    history := { c.history with
      opened := c.history.opened ++ [⟨session, c.generation, nonce⟩] } }

/-- `handle`: the channel after the object, or `none` when it is refused. -/
def handle (token : String) (value : Object) (c : ControlChannel) : Option ControlChannel :=
  match c.session with
  | none =>
      match Object.text value "nonce" with
      | some nonce =>
          if Object.text value "type" = some "hello" ∧ Object.text value "token" = some token ∧
              F.isUUID nonce then some (c.handleHello F token nonce)
          else none
      | none => none
  | some session =>
      if Object.text value "session" = some session ∧ Object.text value "type" = some "request" then
        match (value.lookup "id").bind integer, (Object.text value "service").bind serviceOf,
          Object.object value "payload" with
        | some id, some service, some payload =>
            if id > c.lastRequest then some (c.handleRequest F session id service payload) else none
        | _, _, _ => none
      else none

/-- A line of `receive`: the object on it is handled, or the channel fails. -/
def receiveLine (token : String) (line : Data) (c : ControlChannel) : Option ControlChannel :=
  match (F.jsonObject line).bind Json.object with
  | some value =>
      if (value.lookup "version").bind integer = some 1 then c.handle F token value else none
  | none => none

/-- `receive`.  After a failure the rest of the data is dropped. -/
def receive (token : String) : Data → ControlChannel → ControlChannel
  | [], c => c
  | byte :: data, c =>
      if byte = 10 then
        match { c with buffer := [] }.receiveLine F token c.buffer with
        | some c => receive token data c
        | none => fail { c with buffer := [] }
      else if c.buffer.length < maximumFrame then
        receive token data { c with buffer := c.buffer ++ [byte] }
      else c.fail

/-- The completion of the n-th invocation. -/
def complete (n : Nat) (result : Object) (c : ControlChannel) : ControlChannel :=
  match c.history.invocations[n]? with
  | none => c
  | some i =>
      let c := { c with
        outstanding := c.outstanding - 1
        running := c.running.erase n
        history := { c.history with results := c.history.results ++ [(n, result)] } }
      if c.generation = i.generation ∧ i.id ∈ c.active then
        { c with active := c.active.erase i.id }.reply F i.id result (some n)
      else c

end

/-- The completion of a write. -/
def wrote (expected : Nat) (line : Line) (success : Bool) (c : ControlChannel) : ControlChannel :=
  if c.generation = expected then
    if success then
      drain { c with
        queue := c.queue.tail
        queuedBytes := c.queuedBytes - line.bytes.length
        writing := false }
    else c.fail
  else c

/-- The timeout of a write. -/
def writeTimeout (expected : Nat) (c : ControlChannel) : ControlChannel :=
  if c.generation = expected ∧ c.writing then c.fail else c

end ControlChannel

end Ashacky.Control
