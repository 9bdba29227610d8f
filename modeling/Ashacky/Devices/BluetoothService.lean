import Ashacky.Devices.Bluetooth

/-!
# Devices — the host's Bluetooth service

`host/devices/BluetoothService.swift`: scans, pairings and connections that the guest asks for.
Everything but the call that opens or closes a connection runs on the main queue, so a callback is
one event and sees one state of the outside, its `Surroundings`.  A block that waits on the main
queue is in `blocks` and may run at any time: nothing below rests on how long it waits.

Delegates name the object that calls them, here by its number: a pairing attempt or an inquiry.  The
n-th request has the number `n`, and its completion is `reply n`.  A request that has an operation
take place comes with the identifier that `UUID()` makes for it, which no earlier one had.

Left out is what the cases for audio do, which is nothing to this state; `stop` of the scan and of
an inquiry, which nothing reads; and the sockets, whose requests arrive here one by one.
-/

namespace Ashacky.Devices.BluetoothService
open Ashacky.Support
open Ashacky.Control (Json Object)
open Ashacky.Devices.Bluetooth (replace upper anyHex fullmatch)

/-! ### The outside -/

inductive Authorization where
  | allowedAlways
  | notDetermined
  | denied
deriving DecidableEq

/-- What an `IOBluetoothDevice` says.  The name is cut to 80 bytes of UTF-8. -/
structure Facts where
  address : Option String
  name : String
  classOfDevice : Nat
  paired : Bool
  connected : Bool
  /-- `serviceUUIDs`. -/
  uuids : List String

/-- What an event finds. -/
structure Surroundings where
  /-- `active()`. -/
  active : Bool
  authorization : Authorization
  /-- Whether a manager that is there is powered on. -/
  poweredOn : Bool
  /-- `IOBluetoothDevice.pairedDevices()`. -/
  pairedDevices : List Nat
  device : Nat → Facts
  /-- `foundDevices()` of an inquiry. -/
  foundDevices : List Nat
  /-- What `UUID().uuidString` would be. -/
  uuid : String
  /-- `IOBluetoothDevicePair(device:)`: none, or one whose `start` returns this. -/
  attempt : Option Int
  /-- `IOBluetoothDeviceInquiry(delegate:)`: none, or one whose `start` returns this. -/
  search : Option Int
  /-- Whether a registration for connections succeeds. -/
  registersConnect : Bool
  /-- The registration for the end of a device's connection. -/
  registersDisconnect : Nat → Option Nat
  /-- What the cases for audio answer. -/
  audio : Object → Object

def kIOReturnError : Int := -536870212
def kIOReturnUnsupported : Int := -536870201
def kIOReturnTimeout : Int := -536870186

/-! ### The state -/

/-- What a complete operation says of its end. -/
structure Outcome where
  success : Bool
  result : Int
  paired : Bool
  connected : Bool
deriving DecidableEq

/-- `operation`: its state is pending until it has an outcome. -/
structure Operation where
  id : String
  outcome : Option Outcome
  confirmation : Option Nat
  passkey : Option Nat
deriving DecidableEq

/-- `["id": id, "state": "pending"]`. -/
def Operation.pending (id : String) : Operation := ⟨id, none, none, none⟩

/-- `["id": id, "state": "complete", …]`. -/
def Operation.complete (id : String) (outcome : Outcome) : Operation := ⟨id, some outcome, none, none⟩

/-- The dictionary. -/
def Operation.object (o : Operation) : Object :=
  [("id", .str o.id)] ++
    (match o.outcome with
      | none => [("state", Json.str "pending")]
      | some e =>
          [("state", Json.str "complete"), ("success", .bool e.success), ("result", .int e.result),
            ("paired", .bool e.paired), ("connected", .bool e.connected)]) ++
    (o.confirmation.toList.map fun n => ("confirmation", Json.int n)) ++
    o.passkey.toList.map fun n => ("passkey", Json.int n)

/-- An `IOBluetoothDevicePair`. -/
structure Attempt where
  number : Nat
  device : Nat
deriving DecidableEq

/-- What is done on the connection queue. -/
structure Job where
  id : String
  device : Nat
  connect : Bool
deriving DecidableEq

/-- What waits on the main queue. -/
inductive Block where
  /-- The work item of `invalidate`. -/
  | change (work : Nat)
  /-- The end of a scan, of this generation. -/
  | scan (generation : Nat)
  /-- The timeout of an attempt. -/
  | pair (attempt : Attempt)
  /-- What follows a call on the connection queue, with what it returned. -/
  | connected (job : Job) (result : Int)
deriving DecidableEq

structure Host where
  /-- Whether there is a manager. -/
  central : Bool
  inquiry : Option Nat
  requested : Bool
  scanning : Bool
  scanGeneration : Nat
  lowEnergy : List String
  classicCount : Nat
  classicResult : Int
  devices : List Nat
  pairing : Option Attempt
  pairingOperationID : Option String
  connectionBusy : Bool
  /-- The connection queue. -/
  jobs : List Job
  operation : Option Operation
  /-- The request that the scan answers. -/
  scanReply : Option Nat
  lastClassic : List Object
  revisionGeneration : Nat
  connectNotification : Bool
  disconnectNotifications : List (String × Nat)
  observationsComplete : Bool
  pendingChange : Option Nat
  stopped : Bool
  blocks : List Block
  /-- How many requests, attempts, inquiries and work items there were. -/
  requests : Nat
  attempts : Nat
  inquiries : Nat
  works : Nat
  /-- The identifiers that were made. -/
  issued : List String

/-- What is done outside. -/
inductive Effect where
  | reply (request : Nat) (answer : Object)
  /-- `attempt.start`. -/
  | start (attempt : Attempt)
  /-- `attempt.replyUserConfirmation`. -/
  | confirm (attempt : Nat) (accepted : Bool)
  /-- `attempt.stop`. -/
  | stopAttempt (attempt : Nat)
  /-- `scanForPeripherals`, and the inquiry with its length. -/
  | scan (length : Nat)
  /-- `changed`. -/
  | changed
  | authorizationChanged

def failure (error : String) : Object := [("ok", .bool false), ("error", .str error)]

namespace Host

def initial : Host where
  central := false
  inquiry := none
  requested := false
  scanning := false
  scanGeneration := 0
  lowEnergy := []
  classicCount := 0
  classicResult := 0
  devices := []
  pairing := none
  pairingOperationID := none
  connectionBusy := false
  jobs := []
  operation := none
  scanReply := none
  lastClassic := []
  revisionGeneration := 0
  connectNotification := false
  disconnectNotifications := []
  observationsComplete := false
  pendingChange := none
  stopped := false
  blocks := []
  requests := 0
  attempts := 0
  inquiries := 0
  works := 0
  issued := []

/-- `central?.state == .poweredOn`. -/
def powered (S : Surroundings) (h : Host) : Bool := h.central && S.poweredOn

/-- `revision`, less the epoch. -/
def revision (h : Host) : Option Nat :=
  if h.observationsComplete then some h.revisionGeneration else none

/-- `prepareCentral`. -/
def prepareCentral (S : Surroundings) (requestPermission : Bool) (h : Host) : Host :=
  if S.active ∧ !h.central ∧ (S.authorization = .allowedAlways ∨
      (requestPermission ∧ S.authorization = .notDetermined)) then
    { h with central := true }
  else h

/-- `invalidate`. -/
def invalidate (h : Host) : Host :=
  if !h.stopped ∧ h.pendingChange = none then
    { h with
      pendingChange := some h.works
      blocks := h.blocks ++ [.change h.works]
      works := h.works + 1 }
  else h

/-- The devices that are connected now, by their addresses. -/
def connectedNow (S : Surroundings) (h : Host) : List (String × Nat) :=
  (S.pairedDevices ++ h.devices).foldl (fun connected device =>
    match (S.device device).address with
    | some address => if (S.device device).connected then put connected address device else connected
    | none => connected) []

/-- The registrations for the end of the connections in `connected`. -/
def registrations (S : Surroundings) (connected old : List (String × Nat)) : List (String × Nat) :=
  let kept := old.filter fun e => (connected.lookup e.1).isSome
  kept ++ connected.filterMap fun e =>
    if (kept.lookup e.1).isSome then none
    else (S.registersDisconnect e.2).map fun notification => (e.1, notification)

/-- `observeConnections`. -/
def observeConnections (S : Surroundings) (h : Host) : Host :=
  if h.stopped ∨ S.authorization ≠ .allowedAlways then { h with observationsComplete := false }
  else
    let connect := h.connectNotification || S.registersConnect
    let connected := h.connectedNow S
    let disconnect := registrations S connected h.disconnectNotifications
    { h with
      connectNotification := connect
      disconnectNotifications := disconnect
      observationsComplete := connect && connected.all fun e => (disconnect.lookup e.1).isSome }

/-- The work item of `invalidate`. -/
def change (S : Surroundings) (h : Host) : List Effect × Host :=
  if h.stopped then ([], h)
  else
    let h := { h with pendingChange := none }.observeConnections S
    ([.changed], { h with revisionGeneration := (h.revisionGeneration + 1) % 2 ^ 64 })

/-- How a pairing ended. -/
def pairOutcome (S : Surroundings) (device : Nat) (result : Int) : Outcome :=
  ⟨result = 0 ∧ (S.device device).paired, result, (S.device device).paired,
    (S.device device).connected⟩

/-- `finishPairOperation`. -/
def finishPairOperation (S : Surroundings) (device : Nat) (result : Int) (h : Host) : Host :=
  match h.pairingOperationID with
  | none => h
  | some id =>
      { h with
        pairingOperationID := none
        operation := some (.complete id (pairOutcome S device result)) : Host }.invalidate

/-- `startPair`. -/
def startPair (S : Surroundings) (device : Nat) (h : Host) : List Effect × Host :=
  match S.attempt with
  | none => ([], { h with pairing := none : Host }.finishPairOperation S device kIOReturnError)
  | some result =>
      let attempt : Attempt := ⟨h.attempts, device⟩
      let h := { h with attempts := h.attempts + 1, pairing := some attempt }
      let h :=
        if result ≠ 0 then { h with pairing := none : Host }.finishPairOperation S device result
        else h
      ([.start attempt], { h with blocks := h.blocks ++ [.pair attempt] })

/-- `beginIfReady`. -/
def beginIfReady (S : Surroundings) (h : Host) : List Effect × Host :=
  if h.requested ∧ h.powered S then
    let h := { h with requested := false, scanning := true, lowEnergy := [], classicCount := 0 }.invalidate
    let generation := h.scanGeneration + 1
    ([.scan (if h.scanReply = none then 8 else 4)],
      { h with
        scanGeneration := generation
        inquiry := S.search.map fun _ => h.inquiries
        inquiries := h.inquiries + 1
        classicResult := S.search.getD kIOReturnError
        blocks := h.blocks ++ [.scan generation] })
  else ([], h)

/-- A record of `lastClassic`. -/
def classic (S : Surroundings) (device : Nat) : Option Object :=
  (S.device device).address.map fun address =>
    [("address", .str address), ("name", .str (S.device device).name),
      ("classOfDevice", .int (S.device device).classOfDevice),
      ("paired", .bool (S.device device).paired), ("connected", .bool (S.device device).connected)]

/-- The devices, and those of `more` whose address none of them has. -/
def withDevices (S : Surroundings) (devices : List Nat) (more : List Nat) : List Nat :=
  more.foldl (fun devices device =>
    if devices.any fun d => (S.device d).address = (S.device device).address then devices
    else devices ++ [device]) devices

/-- The state when the scan is over. -/
def scanned (S : Surroundings) (h : Host) : Host :=
  let found := if h.inquiry = none then [] else S.foundDevices
  { h with
    scanning := false
    -- Connected devices may no longer be discoverable; keep them selectable.
    devices := withDevices S found S.pairedDevices
    lastClassic := (found.take 32).filterMap (classic S)
    inquiry := none : Host }.invalidate

/-- The answer to `bluetooth-scan`. -/
def scanAnswer (S : Surroundings) (h : Host) : Object :=
  if S.active ∧ S.authorization = .allowedAlways ∧ h.classicResult = 0 then
    [("ok", .bool true), ("classicDevices", .arr (h.lastClassic.map .obj)),
      ("lowEnergyCount", .int h.lowEnergy.length)]
  else failure "Bluetooth scan unavailable"

/-- `finish`. -/
def finish (S : Surroundings) (h : Host) : List Effect × Host :=
  if h.scanning then
    let h := h.scanned S
    match h.scanReply with
    | none => ([], h)
    | some request => ([.reply request (h.scanAnswer S)], { h with scanReply := none })
  else ([], h)

/-- What ICU ends a line with, where `$` may stand before it. -/
def lineEnds : List (List Char) :=
  [['\n'], ['\x0b'], ['\x0c'], ['\r'], ['\r', '\n'], ['\u0085'], ['\u2028'], ['\u2029']]

/-- `^[0-9A-Fa-f]{2}([:-][0-9A-Fa-f]{2}){5}$`. -/
def addressPattern : List (Char → Bool) :=
  [anyHex, anyHex] ++
    (List.replicate 5 [fun c => c == ':' || c == '-', anyHex, anyHex]).flatten

def isAddress (text : String) : Bool :=
  fullmatch addressPattern text.toList ||
    lineEnds.any fun e =>
      e.isSuffixOf text.toList &&
        fullmatch addressPattern (text.toList.take (text.toList.length - e.length))

/-- `replacingOccurrences(of: "-", with: ":").uppercased()`. -/
def normalized (address : String) : List Char := (replace '-' ':' address.toList).flatMap upper

/-- The first of the devices at an address. -/
def resolve (S : Surroundings) (devices : List Nat) (address : String) : Option Nat :=
  devices.find? fun d => (S.device d).address.map normalized = some (normalized address)

/-- The address that a request for an operation is about. -/
def target (value : Object) : Option String :=
  if value.length = 2 then (Object.text value "address").filter isAddress else none

/-- `!scanning, pairing == nil, !connectionBusy, central?.state == .poweredOn`. -/
def idle (S : Surroundings) (h : Host) : Bool :=
  !h.scanning && h.pairing = none && !h.connectionBusy && h.powered S

/-- `bluetooth-confirm`, of a request. -/
def confirmation (n : Nat) (value : Object) (h : Host) : List Effect × Host :=
  if value.length ≠ 3 then ([.reply n (failure "Invalid confirmation")], h)
  else
    match Object.text value "operationID", value.lookup "accepted", h.pairing with
    | some id, some (.bool accepted), some attempt =>
        if some id = h.pairingOperationID ∧ (h.operation.bind (·.confirmation)).isSome then
          ([.confirm attempt.number accepted, .reply n [("ok", .bool true)]],
            { h with
              operation := h.operation.map fun o => { o with confirmation := none } : Host }.invalidate)
        else ([.reply n (failure "Pairing confirmation is no longer pending")], h)
    | some _, some (.bool _), none =>
        ([.reply n (failure "Pairing confirmation is no longer pending")], h)
    | _, _, _ => ([.reply n (failure "Invalid confirmation")], h)

/-- `["ok": true, "operation": operation!]`. -/
def accepted (id : String) : Object :=
  [("ok", .bool true), ("operation", .obj (Operation.pending id).object)]

/-- `bluetooth-pair`. -/
def pair (S : Surroundings) (n : Nat) (value : Object) (h : Host) : List Effect × Host :=
  match target value with
  | none => ([.reply n (failure "Invalid request")], h)
  | some address =>
      if !h.idle S then ([.reply n (failure "Bluetooth busy or unavailable")], h)
      else
        -- Pair only devices discovered by this service or already paired.
        match resolve S (h.devices ++ S.pairedDevices) address with
        | none => ([.reply n (failure "Scan for the device first")], h)
        | some device =>
            let h :=
              { h with
                operation := some (.pending S.uuid)
                pairingOperationID := some S.uuid
                issued := S.uuid :: h.issued : Host }.invalidate
            let r :=
              if (S.device device).paired then ([], h.finishPairOperation S device 0)
              else h.startPair S device
            ([.reply n (accepted S.uuid)] ++ r.1, r.2)

/-- `bluetooth-connect` and `bluetooth-disconnect`. -/
def connection (S : Surroundings) (n : Nat) (value : Object) (connect : Bool) (h : Host) :
    List Effect × Host :=
  match target value with
  | none => ([.reply n (failure "Invalid request")], h)
  | some address =>
      if !h.idle S then ([.reply n (failure "Bluetooth busy or unavailable")], h)
      else
        -- Resolve only actual paired host devices; never create an arbitrary target.
        match resolve S S.pairedDevices address with
        | none => ([.reply n (failure "Paired device required")], h)
        | some device =>
            let h :=
              { h with
                operation := some (.pending S.uuid)
                connectionBusy := true
                issued := S.uuid :: h.issued : Host }.invalidate
            ([.reply n (accepted S.uuid)], { h with jobs := h.jobs ++ [⟨S.uuid, device, connect⟩] })

/-- A record of `bluetooth-devices`. -/
def record (S : Surroundings) (device : Nat) : Option Object :=
  (S.device device).address.map fun address =>
    [("address", .str (String.ofList (normalized address))), ("name", .str (S.device device).name),
      ("classOfDevice", .int (S.device device).classOfDevice),
      ("paired", .bool (S.device device).paired), ("connected", .bool (S.device device).connected),
      ("uuids", .arr ((S.device device).uuids.map .str))]

/-- `bluetooth-devices`. -/
def listed (S : Surroundings) (n : Nat) (h : Host) : List Effect × Host :=
  let previousCapability := h.observationsComplete
  let h := h.observeConnections S
  let h := if previousCapability ≠ h.observationsComplete then h.invalidate else h
  let known := withDevices S S.pairedDevices h.devices
  ([.reply n
      [("ok", .bool true), ("devices", .arr (((known.take 64).filterMap (record S)).map .obj)),
        ("powered", .bool (h.powered S)), ("scanning", .bool h.scanning),
        ("operation", .obj ((h.operation.map Operation.object).getD []))]],
    h)

/-- `bluetooth-status`. -/
def status (S : Surroundings) (n : Nat) (h : Host) : List Effect :=
  [.reply n [("ok", .bool true), ("powered", .bool (h.powered S)), ("scanning", .bool h.scanning),
    ("cachedClassicCount", .int h.lastClassic.length)]]

/-- `bluetooth-scan`. -/
def scan (S : Surroundings) (n : Nat) (h : Host) : List Effect × Host :=
  if !h.idle S then ([.reply n (failure "Bluetooth busy or unavailable")], h)
  else { h with scanReply := some n, requested := true : Host }.beginIfReady S

/-- The cases of `handle`. -/
def perform (S : Surroundings) (n : Nat) (value : Object) (action : String) (h : Host) :
    List Effect × Host :=
  if action = "bluetooth-confirm" then h.confirmation n value
  else if action = "bluetooth-pair" then h.pair S n value
  else if action = "bluetooth-connect" then h.connection S n value true
  else if action = "bluetooth-disconnect" then h.connection S n value false
  else if value.length ≠ 1 then ([.reply n (failure "Invalid request")], h)
  else if action = "bluetooth-devices" then h.listed S n
  else if action = "bluetooth-status" then (h.status S n, h)
  else if action = "bluetooth-scan" then h.scan S n
  else ([.reply n (failure "Unsupported Bluetooth operation")], h)

/-- `handle`. -/
def handle (S : Surroundings) (n : Nat) (value : Object) (h : Host) : List Effect × Host :=
  if !S.active then ([.reply n (failure "Active session required")], h)
  else if ((Object.text value "action").map fun a => "audio-".toList.isPrefixOf a.toList) = some true then
    ([.reply n (S.audio value)], h)
  else
    let h := h.prepareCentral S false
    if S.authorization ≠ .allowedAlways then
      ([.reply n (failure "Active authorized session required")], h)
    else
      match Object.text value "action" with
      | none => ([.reply n (failure "Invalid request")], h)
      | some action => h.perform S n value action

/-- `centralManagerDidUpdateState`. -/
def didUpdateState (S : Surroundings) (h : Host) : List Effect × Host :=
  let h := h.invalidate
  let r := if !S.poweredOn ∧ h.scanning then h.finish S else ([], h)
  let b := r.2.beginIfReady S
  ([.authorizationChanged] ++ r.1 ++ b.1, b.2)

/-- `deviceInquiryComplete`. -/
def inquiryComplete (S : Surroundings) (inquiry : Nat) (error : Int) (h : Host) :
    List Effect × Host :=
  if h.inquiry = some inquiry then
    let h := { h with classicResult := error }
    if h.scanning ∧ h.scanReply ≠ none then h.finish S else ([], h)
  else ([], h)

/-- The attempt that a delegate names, if it is the one that is under way. -/
def current (attempt : Nat) (h : Host) : Option Attempt := h.pairing.filter (·.number = attempt)

/-- `devicePairingUserConfirmationRequest`. -/
def confirmationRequest (attempt value : Nat) (h : Host) : List Effect × Host :=
  match h.current attempt with
  | none => ([], h)
  | some attempt =>
      if h.pairingOperationID = none then ([.confirm attempt.number false], h)
      else
        ([], { h with
          operation := h.operation.map fun o => { o with confirmation := some value } : Host }.invalidate)

/-- `devicePairingUserPasskeyNotification`. -/
def passkeyNotification (attempt passkey : Nat) (h : Host) : Host :=
  match h.current attempt with
  | none => h
  | some _ =>
      { h with
        operation :=
          if h.pairingOperationID = none then h.operation
          else h.operation.map fun o => { o with passkey := some passkey } : Host }.invalidate

/-- `devicePairingPINCodeRequest`: legacy PINs are not guessed. -/
def pinCodeRequest (S : Surroundings) (attempt : Nat) (h : Host) : List Effect × Host :=
  match h.current attempt with
  | none => ([], h)
  | some attempt =>
      ([.stopAttempt attempt.number],
        { h with pairing := none : Host }.finishPairOperation S attempt.device kIOReturnUnsupported)

/-- `devicePairingFinished`. -/
def pairingFinished (S : Surroundings) (attempt : Nat) (error : Int) (h : Host) : Host :=
  match h.current attempt with
  | none => h
  | some attempt => { h.finishPairOperation S attempt.device error with pairing := none }

/-- The timeout of an attempt. -/
def pairTimeout (S : Surroundings) (attempt : Attempt) (h : Host) : List Effect × Host :=
  if h.pairing = some attempt then
    ([.stopAttempt attempt.number],
      { h with pairing := none : Host }.finishPairOperation S attempt.device kIOReturnTimeout)
  else ([], h)

/-- How a connection, or its end, ended. -/
def connectionOutcome (S : Surroundings) (job : Job) (result : Int) : Outcome :=
  ⟨result = 0 ∧ (S.device job.device).connected = job.connect, result, (S.device job.device).paired,
    (S.device job.device).connected⟩

/-- What follows a call on the connection queue. -/
def connectionEnded (S : Surroundings) (job : Job) (result : Int) (h : Host) : Host :=
  { h with
    connectionBusy := false
    operation := some (.complete job.id (connectionOutcome S job result)) : Host }.invalidate

/-- A block that waited. -/
def run (S : Surroundings) (h : Host) : Block → List Effect × Host
  | .change _ => h.change S
  | .scan generation => if h.scanGeneration = generation then h.finish S else ([], h)
  | .pair attempt => h.pairTimeout S attempt
  | .connected job result => ([], h.connectionEnded S job result)

/-- `deviceDisconnected`, on the main queue. -/
def deviceDisconnected (address : Option String) (notification : Nat) (h : Host) : Host :=
  if h.stopped then h
  else
    { h with
      disconnectNotifications := h.disconnectNotifications.filter fun e =>
        ¬ (some e.1 = address ∧ e.2 = notification) : Host }.invalidate

/-- `stop`. -/
def stop (S : Surroundings) (h : Host) : List Effect × Host :=
  let r := h.finish S
  (r.1 ++ r.2.pairing.toList.map fun attempt => .stopAttempt attempt.number,
    { r.2 with
      stopped := true
      blocks := r.2.blocks.filter fun b => ∀ work ∈ r.2.pendingChange, b ≠ .change work
      pendingChange := none
      connectNotification := false
      disconnectNotifications := []
      observationsComplete := false })

end Host

/-! ### Events -/

inductive Call where
  /-- `handle`, of the next request. -/
  | request (value : Object)
  | prepareCentral (requestPermission : Bool)
  | didUpdateState
  | didDiscover (identifier : String)
  | inquiryDeviceFound (inquiry count : Nat)
  | inquiryComplete (inquiry : Nat) (error : Int)
  | confirmationRequest (attempt value : Nat)
  | passkeyNotification (attempt passkey : Nat)
  | pinCodeRequest (attempt : Nat)
  | pairingFinished (attempt : Nat) (error : Int)
  | deviceConnected
  | deviceDisconnected (address : Option String) (notification : Nat)
  /-- The name or the services of a device changed. -/
  | metadataChanged
  /-- The first call on the connection queue returns. -/
  | connectionReturns (result : Int)
  /-- A block of the main queue runs. -/
  | block (index : Nat)
  | stop

structure Event where
  world : Surroundings
  call : Call

namespace Host

/-- What an event does.  A request comes with an identifier that is new. -/
def step (h : Host) (e : Event) : Option (List Effect × Host) :=
  match e.call with
  | .request value =>
      if e.world.uuid ∈ h.issued then none
      else some (handle e.world h.requests value { h with requests := h.requests + 1 })
  | .prepareCentral requestPermission => some ([], h.prepareCentral e.world requestPermission)
  | .didUpdateState => if h.central then some (h.didUpdateState e.world) else none
  | .didDiscover identifier =>
      some ([], if h.scanning then { h with lowEnergy := h.lowEnergy.insert identifier } else h)
  | .inquiryDeviceFound inquiry count =>
      some ([], if h.scanning ∧ h.inquiry = some inquiry then { h with classicCount := count } else h)
  | .inquiryComplete inquiry error => some (h.inquiryComplete e.world inquiry error)
  | .confirmationRequest attempt value => some (h.confirmationRequest attempt value)
  | .passkeyNotification attempt passkey => some ([], h.passkeyNotification attempt passkey)
  | .pinCodeRequest attempt => some (h.pinCodeRequest e.world attempt)
  | .pairingFinished attempt error => some ([], h.pairingFinished e.world attempt error)
  | .deviceConnected | .metadataChanged => some ([], h.invalidate)
  | .deviceDisconnected address notification => some ([], h.deviceDisconnected address notification)
  | .connectionReturns result =>
      match h.jobs with
      | [] => none
      | job :: jobs => some ([], { h with jobs := jobs, blocks := h.blocks ++ [.connected job result] })
  | .block index =>
      (h.blocks[index]?).map fun block =>
        { h with blocks := h.blocks.eraseIdx index : Host }.run e.world block
  | .stop => some (h.stop e.world)

/-- A step. -/
def Step (h : Host) (e : Event) (o : List Effect) (h' : Host) : Prop := h.step e = some (o, h')

end Host

end Ashacky.Devices.BluetoothService
