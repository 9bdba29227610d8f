import Ashacky.Support.Effect
import Ashacky.Wifi.Bridge
import Ashacky.Wifi.Generations

/-!
# Wi-Fi — Connection

A connection request from the kernel to the host and back.  `serve` reads the pending request,
`handle_connection` has the host carry it out and checks what the host then reports, and the result
goes to the kernel, which checks it again.

The host's answer to a request is any function of that request and of everything asked before, so it
may change or fail between any two calls.  What comes of the report to the kernel (`publish`) is open
too, and anything may happen to the driver while the host works: the report itself, a timeout, a
disconnect, another bridge.  Outside the model: an exception that is no `Exception`, which ends
`serve`, and what `serve` prints.
-/

namespace Ashacky.Wifi
open Ashacky.Support Ashacky.Control

/-! ### The request -/

/-- `CONNECTION.size` bytes. -/
abbrev Payload := Vector UInt8 78

/-- `lh_connection.operation`, as it is stored. -/
def Operation.byte : Operation → UInt8
  | .none => 0
  | .connect => 1
  | .disconnect => 2

/-- The packed bytes of a request.  The reserved byte is zero. -/
def Connection.bytes (c : Connection) : Data :=
  leBytes 4 c.sequence.toNat ++ [c.operation.byte, c.ssidLength, c.pskLength, 0] ++
    c.bssid.toList ++ c.ssid.toList ++ c.psk.toList

theorem Connection.length_bytes (c : Connection) : c.bytes.length = 78 := by
  simp [Connection.bytes]

/-- What `LH_GET_CONNECTION` copies. -/
def Connection.pack (c : Connection) : Payload := ⟨c.bytes.toArray, c.length_bytes⟩

/-- What `CONNECTION.unpack` returns. -/
structure Unpacked where
  number : UInt32
  operation : UInt8
  ssidLen : UInt8
  keyLen : UInt8
  reserved : UInt8
  bssid : Address
  ssid : Block
  key : Block

/-- `CONNECTION.unpack(payload)`. -/
def unpackConnection (payload : Payload) : Unpacked where
  number := UInt32.ofNat (leNat (slice payload.toList 0 4))
  operation := payload.toList.getD 4 0
  ssidLen := payload.toList.getD 5 0
  keyLen := payload.toList.getD 6 0
  reserved := payload.toList.getD 7 0
  bssid := Vector.ofFn fun i => (slice payload.toList 8 14).getD i 0
  ssid := Vector.ofFn fun i => (slice payload.toList 14 46).getD i 0
  key := Vector.ofFn fun i => (slice payload.toList 46 78).getD i 0

/-- `ssid[:ssid_len]`. -/
def Unpacked.target (r : Unpacked) : Data := r.ssid.front r.ssidLen.toNat

/-! ### The host -/

/-- What the guest asks of the host for a connection. -/
inductive HostRequest where
  | scan (request : Request)
  | wifiConnect (networkID : String) (password : Option String)
  | wifiDisconnect
  | wifiStatus

/-- The host's answer to a request, after those before it. -/
abbrev Host := List HostRequest → HostRequest → Except Raised Object

/-- What the guest did: its requests, and the records that were published. -/
structure Doings where
  asked : List HostRequest
  published : List (UInt32 × BSS)

abbrev Errand (α : Type) := EStateM Raised Doings α

/-- `rpc(request)`. -/
def Host.rpc (host : Host) (request : HostRequest) : Errand Object := fun s =>
  match host s.asked request with
  | .ok reply => .ok reply { s with asked := s.asked ++ [request] }
  | .error e => .error e { s with asked := s.asked ++ [request] }

/-- `while True` of `scan`, as `scanLoop`, over calls of `rpc`. -/
def scanTurns (P : Python) (host : Host) (scanID : String) (total : Int) :
    Nat → Object → Nat → List BSS → Errand (List BSS)
  | 0, _, _, _ => throw (.valueError "Invalid scan cursor")
  | fuel + 1, page, offset, records => do
      let entries ← fromExcept (pageEntries P scanID total page)
      let parsed ← fromExcept (entries.mapM (parseBss P.isUUID))
      let offset := offset + entries.length
      match page.lookup "nextOffset" with
      | none | some .null =>
          if (offset : Int) ≠ total then throw (.valueError "Incomplete scan")
          else return records ++ parsed
      | some (.int next) =>
          if next ≠ offset ∨ entries.isEmpty ∨ next ≥ total then
            throw (.valueError "Invalid scan cursor")
          else do
            let page ← host.rpc (.scan (.wifiScanPage scanID offset))
            scanTurns P host scanID total fuel page offset (records ++ parsed)
      | some _ => throw (.valueError "Invalid scan cursor")

/-- `scan(rpc)`. -/
def scanRecords (P : Python) (host : Host) : Errand (List BSS) := do
  let page ← host.rpc (.scan .wifiScan)
  let scanID ← fromExcept (item page "scanID" >>= checkUUID P.isUUID)
  let total ← fromExcept (scanSize P page)
  scanTurns P host scanID total (total.toNat + 1) page 0 []

/-! ### The host's state -/

/-- The ASCII whitespace that `bytes.fromhex` skips. -/
def isSpace (c : Char) : Bool := c = ' ' || (9 ≤ c.toNat && c.toNat ≤ 13)

/-- `bytes.fromhex`: pairs of digits, with whitespace around them. -/
def fromhex : List Char → Option Data
  | [] => some []
  | a :: rest =>
      if isSpace a then fromhex rest
      else
        match rest with
        | [] => none
        | b :: rest => do
            let a ← hexValue a
            let b ← hexValue b
            let tail ← fromhex rest
            return UInt8.ofNat (a * 16 + b) :: tail

/-- `state.get(key)`, for its truth. -/
def holds (P : Python) (state : Object) (key : String) : Bool := (state.lookup key).any P.truthy

/-- `base64.b64decode(state.get('ssidBase64', ''), validate=True)`. -/
def stateSsid (state : Object) : Except Raised Data :=
  b64decode ((state.lookup "ssidBase64").getD (.str ""))

/-- `bytes.fromhex(state.get('bssid', '').replace(':', ''))`. -/
def stateAddress (state : Object) : Except Raised Data :=
  match (state.lookup "bssid").getD (.str "") with
  | .str text =>
      match fromhex (text.toList.filter (· ≠ ':')) with
      | some d => .ok d
      | none => .error (.valueError "non-hexadecimal number found in fromhex() arg")
  | _ => .error .typeError

/-- The address, if `len(actual) == 6 and any(actual) and not actual[0] & 1`. -/
def unicast (actual : Data) : Option Address :=
  let address : Address := Vector.ofFn fun i => actual.getD i 0
  if actual.length = 6 ∧ address.isValid then some address else none

/-- `identity`. -/
def identity (P : Python) (state : Object) : Except Raised (Option (Data × Address)) :=
  if state.lookup "locationAuthorized" ≠ some (.bool true) then
    .error (.runtimeError "Host Wi-Fi identity unavailable")
  else if !holds P state "networkIdentityAvailable" then .ok none
  else do
    let ssid ← stateSsid state
    let address ← stateAddress state
    match unicast address with
    | some address =>
        if 1 ≤ ssid.length ∧ ssid.length ≤ 32 then .ok (some (ssid, address))
        else .error (.valueError "Invalid host association identity")
    | none => .error (.valueError "Invalid host association identity")

/-- The records of `actual_bss`: of that network and address, and compatible. -/
def matching (records : List BSS) (target : Data) (address : Address) (isPrivate : Bool) : List BSS :=
  records.filter fun r => r.ssid = target ∧ r.bssid = address ∧ compatible r isPrivate

/-- `actual_bss`. -/
def actualBss (records : List BSS) (target : Data) (address : Address) (isPrivate : Bool) :
    Except Raised BSS :=
  match matching records target address isPrivate with
  | [record] => .ok record
  | _ => .error (.runtimeError "Associated AP lacks a matching supported security record")

/-! ### `handle_connection` -/

section Handle

/-- `publish`, with what comes of each call. -/
abbrev Publish := UInt32 → BSS → Except Raised Unit

variable (P : Python) (host : Host) (publish : Option Publish)

/-- `bool(key_len)`. -/
def Unpacked.isPrivate (r : Unpacked) : Bool := r.keyLen ≠ 0

/-- `key.hex()`. -/
def hexText (key : Data) : String :=
  String.ofList (key.flatMap fun b => [Nat.digitChar (b.toNat / 16), Nat.digitChar (b.toNat % 16)])

/-- `candidates`. -/
def candidates (r : Unpacked) (records : List BSS) : List BSS :=
  records.filter fun record => record.ssid = r.target ∧
    (r.bssid.isZero ∨ record.bssid = r.bssid) ∧ compatible record r.isPrivate

/-- The branch of a disconnect. -/
def handleDisconnect : Errand Address := do
  let _ ← host.rpc .wifiDisconnect
  let state ← host.rpc .wifiStatus
  if !holds P state "locationAuthorized" ∨ holds P state "networkIdentityAvailable" then
    throw (.runtimeError "Host disconnection not confirmed")
  else return .zero

/-- What the host reports after `wifi-connect`: the address, if it is associated as requested. -/
def associated (r : Unpacked) (state : Object) : Except Raised Address :=
  if !holds P state "locationAuthorized" then
    .error (.runtimeError "Host association not confirmed")
  else do
    let ssid ← stateSsid state
    if ssid ≠ r.target then .error (.runtimeError "Host association not confirmed")
    else
      let actual ← stateAddress state
      match unicast actual with
      | none => .error (.runtimeError "Host omitted valid associated BSSID")
      | some actual =>
          if !r.bssid.isZero ∧ actual ≠ r.bssid then
            .error (.runtimeError "Host associated to a different requested BSSID")
          else .ok actual

/-- The records that the association is looked up in: those of the first scan, or of another one when
the address is not among them. -/
def verifiedRecords (r : Unpacked) (actual : Address) (records : List BSS) : Errand (List BSS) :=
  if records.any fun record => record.ssid = r.target ∧ record.bssid = actual then return records
  else do
    let records ← scanRecords P host
    let state ← host.rpc .wifiStatus
    let current ← fromExcept (identity P state)
    if current ≠ some (r.target, actual) then
      throw (.runtimeError "Host changed association during verification")
    else return records

/-- `if publish: publish(number, confirmed)`. -/
def announce (number : UInt32) (confirmed : BSS) : Errand Unit :=
  match publish with
  | none => return
  | some f => do
      fromExcept (f number confirmed)
      modify fun s => { s with published := s.published ++ [(number, confirmed)] }

/-- The part of a connect after `wifi-connect`. -/
def confirm (r : Unpacked) (records : List BSS) : Errand Address := do
  let state ← host.rpc .wifiStatus
  let actual ← fromExcept (associated P r state)
  let records ← verifiedRecords P host r actual records
  let confirmed ← fromExcept (actualBss records r.target actual r.isPrivate)
  announce publish r.number confirmed
  return actual

/-- The branch of a connect. -/
def handleConnect (r : Unpacked) : Errand Address :=
  if ¬ (1 ≤ r.ssidLen.toNat ∧ r.ssidLen.toNat ≤ 32) ∨ (r.keyLen ≠ 0 ∧ r.keyLen ≠ 32) then
    throw (.valueError "Invalid network/key size")
  else do
    let records ← scanRecords P host
    match (candidates r records).maxOn? BSS.signalMbm with
    | none => throw (.runtimeError "Selected network absent from current host scan")
    | some selected => do
        let password := if r.isPrivate then some (hexText r.key.toList) else none
        let _ ← host.rpc (.wifiConnect selected.networkId password)
        confirm P host publish r records

/-- `handle_connection`. -/
def handleConnection (payload : Payload) : Errand Address :=
  let r := unpackConnection payload
  if r.number = 0 ∨ (r.operation ≠ 1 ∧ r.operation ≠ 2) ∨ r.reserved ≠ 0 then
    throw (.valueError "Invalid kernel connection request")
  else if r.operation = 2 then handleDisconnect P host
  else handleConnect P host publish r

end Handle

/-! ### `serve` -/

/-- What a turn of `serve` meets: the host, what comes of `publish`, the driver's clock when the
request is read, what happens to the driver while the host works, and its clock when the result is
submitted. -/
structure Meanwhile where
  host : Host
  publish : Option Publish
  reads : UInt64
  events : List Event
  submits : UInt64

/-- A turn: the request, what happened to the driver, what came of `handle_connection`, the submitted
result, and the kernel's answer to it. -/
structure Turn where
  request : Connection
  trace : Trace
  outcome : EStateM.Result Raised Doings Address
  completion : ConnectionResult
  result : Except Errno Reply

/-- `struct.pack('<IHH6s2x', op_sequence, status_code, 0, address)`. -/
def resultOf (sequence : UInt32) : EStateM.Result Raised Doings Address → ConnectionResult
  | .ok address _ => ⟨sequence, 0, address⟩
  | .error _ _ => ⟨sequence, 1, .zero⟩

section Serve

variable (P : Python) (hz : UInt64) (file : Nat)

/-- A turn of `serve` that finds a connection request, and the driver after it. -/
def serveConnection (m : Meanwhile) (p : Priv) : Option (Turn × Priv) :=
  match p.step hz (.control file true true m.reads .getConnection) with
  | (⟨.ok (.connection request), _⟩, p) =>
      if request.sequence = 0 then none
      else
        let outcome := (handleConnection P m.host m.publish request.pack).run ⟨[], []⟩
        let run := p.run hz m.events
        let completion := resultOf request.sequence outcome
        let done := run.2.step hz (.control file true true m.submits (.connectionResult completion))
        some (⟨request, run.1, outcome, completion, done.1.result⟩, done.2)
  | _ => none

/-- The driver, and the number of connects and disconnects it has accepted. -/
structure Scene where
  driver : Priv
  accepted : Nat

/-- An entry point of the driver, or a turn of the bridge. -/
inductive Move where
  | driver (e : Event)
  | turn (m : Meanwhile)

/-- One move.  A turn is on the request that was accepted last. -/
def Scene.move (s : Scene) : Move → Option (Option (Nat × Turn) × Scene)
  | .driver e =>
      let (o, p) := s.driver.step hz e
      some (none, ⟨p, s.accepted + (operationAccepted (e, o)).length⟩)
  | .turn m =>
      (serveConnection P hz file m s.driver).map fun x =>
        (some (s.accepted, x.1), ⟨x.2, s.accepted + (acceptedOperations x.1.trace).length⟩)

def Scene.Step (s : Scene) (m : Move) (o : Option (Nat × Turn)) (s' : Scene) : Prop :=
  s.move P hz file m = some (o, s')

/-- The turns of a run, each with the number of its request. -/
def turns (t : List (Move × Option (Nat × Turn))) : List (Nat × Turn) := t.filterMap Prod.snd

end Serve

end Ashacky.Wifi
