import Ashacky.Support.Effect
import Ashacky.Control.Json

/-!
# Control — the guest broker

`guest/libexec/ashacky-control`: the broker takes one request from each local client, forwards it
over the port under a counter, and hands the host's response to the client that is pending under
its id.  Each method is an action on the broker that may raise; a client is a number that is never
used again.

The broker is taken apart at its events: the port or a client is readable or writable, a client
connects, or a deadline has passed.  `step` handles those that `select` reports one after the other.
A method that raises in the handler of a client closes that client (`caught`); elsewhere it ends the
broker.

Beside its own state the broker carries a history that its successors take over: the frames sent so
far, and the payloads of host responses handed to clients.
-/

namespace Ashacky.Control
open Ashacky.Support

/-- The local sockets. -/
inductive Service where
  | host
  | wifi
  | bluetooth
  | camera
  | fido2
  deriving DecidableEq

def Service.name : Service → String
  | .host => "host"
  | .wifi => "wifi"
  | .bluetooth => "bluetooth"
  | .camera => "camera"
  | .fido2 => "fido2"

/-- A request of a local client, as the broker forwards it. -/
structure LocalRequest where
  broker : Nat
  client : Nat
  session : String
  id : Int
  service : Service
  payload : Object

/-- A frame of a broker. -/
inductive GuestFrame where
  | hello (nonce token : String)
  | request (r : LocalRequest)

/-- The object of a frame, with the session and the version that `send` and `encode` add. -/
def GuestFrame.entries : GuestFrame → Object
  | .hello nonce token =>
      [("type", .str "hello"), ("nonce", .str nonce), ("token", .str token), ("version", .int 1)]
  | .request r =>
      [("type", .str "request"), ("id", .int r.id), ("service", .str r.service.name),
        ("payload", .obj r.payload), ("session", .str r.session), ("version", .int 1)]

/-- The payload of a host response, handed to a client. -/
structure Delivery where
  broker : Nat
  client : Nat
  payload : Object

/-- `self.clients[client]`. -/
structure Record where
  service : Service
  frames : Data
  deadline : Nat
  output : Data
  id : Option Int

structure Broker where
  index : Nat
  nonce : String
  session : Option String
  frames : Data
  outgoing : Data
  helloDeadline : Nat
  writeDeadline : Nat
  clients : List (Nat × Record)
  pending : List (Int × Nat)
  counter : Int
  /-- The number of clients so far. -/
  accepted : Nat
  /-- The frames queued for the port so far, by this broker and the ones before it. -/
  sent : List GuestFrame
  /-- The payloads of host responses handed to clients so far. -/
  deliveries : List Delivery

/-- Code that may raise over a state. -/
abbrev Act (σ α : Type) := EStateM Raised σ α

def maxFrame : Nat := 32768

def maxQueue : Nat := 262144

/-! ### Frames -/

/-- `splitlines(keepends=True)` of bytes, with the line begun so far. -/
def splitlines (line : Data) : Data → List Data
  | [] => if line.isEmpty then [] else [line]
  | c :: rest =>
      if c = 10 ∨ (c = 13 ∧ rest.head? ≠ some 10) then (line ++ [c]) :: splitlines [] rest
      else splitlines (line ++ [c]) rest

/-- One part of `Frames.feed`: the buffer after it, and the object it completes. -/
def feed (P : Python) (buffer part : Data) : Except Raised (Data × Option Object) :=
  if (buffer ++ part).length > maxFrame + 1 then .error .caught
  else if (buffer ++ part).getLast? = some 10 then
    match P.loads (buffer ++ part) with
    | .ok (.obj value) => .ok ([], some value)
    | .ok _ => .error .caught
    | .error e => .error e
  else .ok (buffer ++ part, none)

/-- `encode`. -/
def encode (P : Python) (value : Object) : Except Raised Data :=
  match P.dumps true (.obj (Object.set value "version" (.int 1))) with
  | .ok data => if data.length > maxFrame then .error .caught else .ok (data ++ [10])
  | .error e => .error e

/-- `hmac.compare_digest` of strings, which must be ASCII. -/
def compareDigest (a b : String) : Bool :=
  a.toList.all (fun c => c.toNat < 128) && b.toList.all (fun c => c.toNat < 128) && a = b

namespace Broker

variable (P : Python)

/-! ### Clients -/

/-- The record of a client, changed. -/
def withRecord (b : Broker) (client : Nat) (f : Record → Record) : Broker :=
  { b with clients := b.clients.map fun e => if e.1 = client then (e.1, f e.2) else e }

/-- `accept`. -/
def accept (service : Service) (uid : Nat) (now : Nat) (b : Broker) : Broker :=
  if uid ≠ 0 ∨ b.clients.length ≥ 32 then { b with accepted := b.accepted + 1 }
  else { b with
    accepted := b.accepted + 1
    clients := b.clients ++ [(b.accepted, ⟨service, [], now + 5, [], none⟩)] }

/-- `close_client`. -/
def closeClient (client : Nat) (b : Broker) : Broker :=
  match b.clients.lookup client with
  | none => b
  | some record =>
      { b with
        clients := b.clients.filter (·.1 ≠ client)
        pending := match record.id with
          | some id => b.pending.filter (·.1 ≠ id)
          | none => b.pending }

/-- `send`.  A session is a UUID, so it is not empty. -/
def send (value : Object) (now : Nat) : Act Broker Unit := do
  let b ← get
  let data ← fromExcept <| encode P <| match b.session with
    | some session => Object.set value "session" (.str session)
    | none => value
  if b.outgoing.length + data.length > maxQueue then throw .caught
  else set { b with
    writeDeadline := if b.outgoing.isEmpty then now + 10 else b.writeDeadline
    outgoing := b.outgoing ++ data }

/-- `respond`. -/
def respond (client : Nat) (payload : Object) (now : Nat) : Act Broker Unit := do
  let b ← get
  match b.clients.lookup client with
  | none => return ()
  | some _ => do
      let data ← fromExcept (P.dumps false (.obj payload))
      set (b.withRecord client fun r => { r with output := data ++ [10], deadline := now + 5 })

/-- What a client is told without a session. -/
def unavailable : Object :=
  [("ok", .bool false), ("error", .str "Host control channel unavailable")]

/-- The body of the loop of `read_client`, for an object of a client without a request. -/
def forward (client : Nat) (service : Service) (value : Object) (session : String) (now : Nat) :
    Act Broker Unit := do
  let b ← get
  let id := b.counter + 1
  let b := b.withRecord client fun r => { r with
    id := some id
    deadline := now + if service = .host ∨ service = .fido2 then 80 else 20 }
  set { b with counter := id, pending := b.pending ++ [(id, client)] }
  send P [("type", .str "request"), ("id", .int id), ("service", .str service.name),
    ("payload", .obj value)] now
  modify fun b => { b with
    sent := b.sent ++ [.request ⟨b.index, client, session, id, service, value⟩] }

/-- The loop of `read_client`, over the parts of the data. -/
def readParts (client : Nat) (now : Nat) : List Data → Act Broker Unit
  | [] => return ()
  | part :: parts => do
      let b ← get
      match b.clients.lookup client with
      | none => throw .uncaught
      | some record => do
          let (buffer, value) ← fromExcept (feed P record.frames part)
          set (b.withRecord client fun r => { r with frames := buffer })
          match value with
          | none => readParts client now parts
          | some value =>
              if record.id.isSome then throw .caught
              else match b.session with
                | none => respond P client unavailable now
                | some session => do
                    forward P client record.service value session now
                    readParts client now parts

/-- `read_client`, with the data that `recv` returned. -/
def readClient (client : Nat) (data : Data) (now : Nat) : Act Broker Unit := do
  let b ← get
  match b.clients.lookup client with
  | none => throw .uncaught
  | some record =>
      if data.isEmpty then set (b.closeClient client)
      else if record.id.isSome then throw .caught
      else readParts P client now (splitlines [] data)

/-- The handler of a client in `step`: an error closes the client. -/
def guarded (client : Nat) (x : Act Broker Unit) : Act Broker Unit :=
  tryCatch x fun
    | .caught => modify (closeClient client)
    | .uncaught => throw .uncaught

/-- The client is writable: `count` bytes of its output have been sent. -/
def writeClient (client count : Nat) (b : Broker) : Broker :=
  match b.clients.lookup client with
  | none => b
  | some record =>
      if (record.output.drop count).isEmpty then b.closeClient client
      else b.withRecord client fun r => { r with output := r.output.drop count }

/-! ### The port -/

/-- `receive` before the handshake. -/
def receiveWelcome (token : String) (value : Object) : Act Broker Unit := do
  let b ← get
  if Object.text value "type" = some "welcome" ∧ Object.text value "nonce" = some b.nonce ∧
      compareDigest (((value.lookup "token").map P.str).getD "") token then
    match value.lookup "session" with
    | some (.str session) =>
        if P.isUUID session then set { b with session := some session } else throw .caught
    | _ => throw .uncaught
  else throw .caught

/-- The response branch of `receive`. -/
def receiveResponse (value : Object) (now : Nat) : Act Broker Unit := do
  match value.lookup "id", value.lookup "payload" with
  | some (.int id), some (.obj payload) => do
      let b ← get
      match b.pending.lookup id with
      | none => return ()
      | some client => do
          set { b with pending := b.pending.filter (·.1 ≠ id) }
          respond P client payload now
          modify fun b => if (b.clients.lookup client).isSome then
            { b with deliveries := b.deliveries ++ [⟨b.index, client, payload⟩] } else b
  | _, _ => throw .caught

/-- `receive`. -/
def receive (token : String) (value : Object) (now : Nat) : Act Broker Unit := do
  match value.lookup "version" with
  | some (.int 1) => do
      let b ← get
      match b.session with
      | none => receiveWelcome P token value
      | some session =>
          if Object.text value "session" = some session then
            if Object.text value "type" = some "response" then receiveResponse P value now
            else throw .caught
          else throw .caught
  | _ => throw .caught

/-- The port is readable, and `os.read` returned data in the given parts. -/
def readPort (token : String) (now : Nat) : List Data → Act Broker Unit
  | [] => return ()
  | part :: parts => do
      let b ← get
      let (buffer, value) ← fromExcept (feed P b.frames part)
      set { b with frames := buffer }
      match value with
      | none => readPort token now parts
      | some value => do
          receive P token value now
          readPort token now parts

/-! ### Deadlines, start and end -/

/-- The end of `step`: the deadlines that have passed. -/
def expire (now : Nat) : Act Broker Unit := do
  let b ← get
  if b.session.isNone ∧ now ≥ b.helloDeadline then throw .caught
  else if b.outgoing ≠ [] ∧ now ≥ b.writeDeadline then throw .caught
  else set <| (b.clients.filter (now ≥ ·.2.deadline)).foldl (fun b e => b.closeClient e.1) b

/-- `__init__`, after the given broker. -/
def start (token : String) (now : Nat) (b : Broker) : Act Broker Unit := do
  set { b with
    index := b.index + 1
    nonce := P.uuid4 (b.index + 1)
    session := none
    frames := []
    outgoing := []
    helloDeadline := now + 10
    clients := []
    pending := []
    counter := 0 }
  send P [("type", .str "hello"), ("nonce", .str (P.uuid4 (b.index + 1))), ("token", .str token)] now
  modify fun b => { b with sent := b.sent ++ [.hello b.nonce token] }

/-- `close`, and the end of the process. -/
def stop (b : Broker) : Broker :=
  { b with session := none, frames := [], clients := [], pending := [], outgoing := [] }

end Broker

end Ashacky.Control
