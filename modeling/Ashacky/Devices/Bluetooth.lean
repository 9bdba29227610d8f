import Ashacky.Control.Json
import Ashacky.Devices.Events
import Ashacky.Support.Dictionary
import Ashacky.Support.Machine

/-!
# Devices — Bluetooth

`bluetooth_bluez.py` and `bluetooth_events.py`: the guest's BlueZ management API over the host's
Bluetooth.  `Bridge` keeps a tree of D-Bus objects, tells its changes by signals, reads the host's
devices on a worker thread, and feeds the radio of the guest's kernel.

A Python value is given as the JSON value it was read from or would be written as; the text of a
float is its `repr`.  A callback of the main loop runs whole, and the worker's requests come between
them.  Some things are inputs: the key that the status file holds, whether the directory can be
watched, what the host replies, and the order in which a set of paths is gone through.

Left out are the pairing agents, the authorisation of callers and what a device operation asks of
the host: they change nothing here, except that an operation is pending and then ends.
-/

namespace Ashacky.Devices.Bluetooth
open Ashacky.Support
open Ashacky.Control (Json Object)

/-! ### Values -/

def adapterPath : String := "/org/bluez/hci0"
def adapterInterface : String := "org.bluez.Adapter1"
def deviceInterface : String := "org.bluez.Device1"
def managerInterface : String := "org.freedesktop.DBus.ObjectManager"
def agentsPath : String := "/org/bluez"
def agentsInterface : String := "org.bluez.AgentManager1"

/-- `GLib.Variant`, of the signatures that occur. -/
inductive Variant where
  /-- `b`. -/
  | boolean (value : Bool)
  /-- `u`. -/
  | uint32 (value : Nat)
  /-- `s`. -/
  | string (value : String)
  /-- `as`. -/
  | strings (value : List String)
  /-- `o`. -/
  | objectPath (value : String)
deriving DecidableEq

/-- What is raised. -/
inductive Raised where
  | keyError (key : String)
  | attributeError
  | typeError
  | overflowError
  | valueError (text : String)
deriving DecidableEq

/-- `bool(value)`. -/
def truthy : Json → Bool
  | .null => false
  | .bool b => b
  | .int n => n ≠ 0
  | .float text => text ≠ "0.0" ∧ text ≠ "-0.0"
  | .str s => s ≠ ""
  | .arr a => a ≠ []
  | .obj m => m ≠ []

/-- `value[key]`, for a string. -/
def item (value : Json) (key : String) : Except Raised Json :=
  match value with
  | .obj m => (m.lookup key).elim (.error (.keyError key)) .ok
  | _ => .error .typeError

/-- What `for … in value` goes through. -/
def elements : Json → Except Raised (List Json)
  | .arr a => .ok a
  | .str s => .ok (s.toList.map fun c => .str (String.ofList [c]))
  | .obj m => .ok (m.map fun e => .str e.1)
  | _ => .error .typeError

/-- `variant`. -/
def variant : Json → Except Raised Variant
  | .bool b => .ok (.boolean b)
  | .int n => if 0 ≤ n ∧ n < 2 ^ 32 then .ok (.uint32 n.toNat) else .error .overflowError
  | .arr a => (a.mapM Json.string).elim (.error .typeError) fun l => .ok (.strings l)
  | .str s => .ok (.string s)
  | _ => .error .typeError

abbrev Properties := List (String × Variant)
abbrev Interfaces := List (String × Properties)
abbrev Objects := List (String × Interfaces)

/-- `{key: variant(value) for key, value in values.items()}`. -/
def variants : List (String × Json) → Except Raised Properties
  | [] => .ok []
  | (key, value) :: values => do
      let v ← variant value
      let props ← variants values
      return (key, v) :: props

/-! ### `device_props` -/

/-- A pattern of one class of characters for each place. -/
def fullmatch (pattern : List (Char → Bool)) (text : List Char) : Bool :=
  pattern.length = text.length ∧ (pattern.zip text).all fun e => e.1 e.2

/-- `[0-9A-F]`. -/
def upperHex (c : Char) : Bool := ('0' ≤ c ∧ c ≤ '9') ∨ ('A' ≤ c ∧ c ≤ 'F')

/-- `[0-9a-fA-F]`. -/
def anyHex (c : Char) : Bool := upperHex c ∨ ('a' ≤ c ∧ c ≤ 'f')

/-- `(?:[0-9A-F]{2}:){5}[0-9A-F]{2}`. -/
def addressPattern : List (Char → Bool) :=
  (List.replicate 5 [upperHex, upperHex, (· == ':')]).flatten ++ [upperHex, upperHex]

/-- `[0-9a-fA-F]{8}(?:-[0-9a-fA-F]{4}){3}-[0-9a-fA-F]{12}`. -/
def uuidPattern : List (Char → Bool) :=
  List.replicate 8 anyHex ++
    (List.replicate 3 ((· == '-') :: List.replicate 4 anyHex)).flatten ++
      (· == '-') :: List.replicate 12 anyHex

/-- `str.upper` of a character.  Of the others than `a` to `z`, only the ligature becomes characters
that an address may have. -/
def upper (c : Char) : List Char := if c = 'ﬀ' then ['F', 'F'] else [c.toUpper]

/-- `text.replace(old, new)` of a character. -/
def replace (old new : Char) (text : List Char) : List Char :=
  text.map fun c => if c = old then new else c

/-- Whether `uuids` passes. -/
def validUuids : Json → Bool
  | .arr uuids =>
      uuids.length ≤ 32 ∧ uuids.all fun u =>
        match u with
        | .str s => fullmatch uuidPattern s.toList
        | _ => false
  | _ => false

def icon (cod : Nat) : String :=
  let major := (cod >>> 8) &&& 31
  if major = 4 then "audio-headset" else if major = 5 then "input-mouse" else "bluetooth"

/-- `ADAPTER + '/dev_' + address.replace(':', '_')`. -/
def devicePath (address : List Char) : String :=
  adapterPath ++ "/dev_" ++ String.ofList (replace ':' '_' address)

/-- The address of a record. -/
def addressOf (record : Json) : Except Raised (List Char) := do
  match ← item record "address" with
  | .str s =>
      let address := (replace '-' ':' s.toList).flatMap upper
      if fullmatch addressPattern address then return address
      else throw (.valueError "Invalid host device address")
  | _ => throw .attributeError

/-- The class of a record. -/
def classOf (record : Json) : Except Raised Nat := do
  match ← item record "classOfDevice" with
  | .int n =>
      if 0 ≤ n ∧ n ≤ 0xffffff then return n.toNat else throw (.valueError "Invalid device class")
  | _ => throw (.valueError "Invalid device class")

/-- `record.get('uuids', [])`, checked. -/
def uuidsOf (record : Json) : Except Raised Json :=
  let uuids := match item record "uuids" with
    | .ok uuids => uuids
    | .error _ => .arr []
  if validUuids uuids then .ok uuids else .error (.valueError "Invalid host service UUIDs")

/-- `device_props`. -/
def deviceProps (record : Json) : Except Raised (String × Properties) := do
  let address ← addressOf record
  let cod ← classOf record
  let uuids ← uuidsOf record
  let name ← item record "name"
  let paired ← item record "paired"
  let connected ← item record "connected"
  -- Host pairing is real; service resolution is deliberately not claimed.
  let props ← variants
    [("Address", .str (String.ofList address)), ("AddressType", .str "public"), ("Name", name),
      ("Alias", name), ("Class", .int cod), ("Icon", .str (icon cod)), ("Paired", paired),
      ("Bonded", paired), ("Connected", connected), ("Trusted", .bool false),
      ("Blocked", .bool false), ("ServicesResolved", .bool false), ("UUIDs", uuids),
      ("LegacyPairing", .bool false)]
  return (devicePath address, props ++ [("Adapter", .objectPath adapterPath)])

/-! ### `BluetoothEvents` -/

/-- The timers. -/
inductive Timer where
  | refresh | retry | reconcile | expiry | watch | discovery
deriving DecidableEq

structure BluetoothEvents where
  key : Option HostKey
  /-- Whether `mode` is set, and is `events`. -/
  mode : Option Bool
  sources : List Timer
  closed : Bool
deriving DecidableEq

namespace BluetoothEvents

def new : BluetoothEvents := ⟨none, none, [], false⟩

/-- `active`. -/
def active (e : BluetoothEvents) : Bool := isActive e.key

/-- `remove_source`. -/
def removeSource (e : BluetoothEvents) (name : Timer) : BluetoothEvents :=
  { e with sources := e.sources.filter (· ≠ name) }

/-- `later`. -/
def later (e : BluetoothEvents) (name : Timer) : BluetoothEvents :=
  { e with sources := Devices.later e.closed name e.sources }

/-- `notify`. -/
def notify (e : BluetoothEvents) : BluetoothEvents := e.later .refresh

/-- `retry`. -/
def retry (e : BluetoothEvents) : BluetoothEvents := if e.active then e.later .retry else e

/-- `reconcile`. -/
def reconcile (e : BluetoothEvents) : BluetoothEvents :=
  (if e.active then e.notify else e).later .reconcile

/-- `read_host`, up to the heartbeat, when the status file holds `key`. -/
def readHost (e : BluetoothEvents) (key : Option HostKey) : BluetoothEvents :=
  let e := e.removeSource .expiry
  let e :=
    if some key.isSome ≠ e.mode then
      (({ e with mode := some key.isSome }.removeSource .reconcile).later .reconcile).notify
    else e
  let e := if key ≠ e.key then { e with key := key }.notify else e
  if key.isSome then e.later .expiry else e

/-- `close`. -/
def close (e : BluetoothEvents) : BluetoothEvents := { e with closed := true, sources := [] }

end BluetoothEvents

/-! ### `Bridge` -/

/-- The signals of the bus. -/
inductive Signal where
  | interfacesAdded (path : String) (interfaces : Interfaces)
  | interfacesRemoved (path : String) (interfaces : List String)
  | propertiesChanged (path interface : String) (changed : Properties) (invalidated : List String)
deriving DecidableEq

/-- What the bridge does to the outside: `write_radio` is told apart by its caller. -/
inductive Effect where
  | signal (s : Signal)
  /-- `write_radio` of `update`. -/
  | radio (state : Nat)
  /-- `write_radio` of `heartbeat`. -/
  | feed (state : Nat)
deriving DecidableEq

/-- Where the worker is with a read of the host's devices. -/
inductive Read where
  /-- Before a request; `bluetooth-scan` is still to come, or only `bluetooth-devices`. -/
  | waiting (scan : Bool)
  | scanning
  | reading
  | done (reply : Except String Object)

structure Bridge where
  objects : Objects
  registrations : List ((String × String) × Nat)
  /-- What the bus exports, by the identifiers it gave. -/
  exported : List (Nat × (String × String))
  /-- The next of these. -/
  identifier : Nat
  pending : Bool
  refreshing : Bool
  closed : Bool
  /-- The set of the callers that discover. -/
  discovery : List String
  refreshAgain : Bool
  radioState : Nat
  radioKey : Option HostKey
  events : BluetoothEvents
  /-- The read that was submitted. -/
  read : Option Read
  /-- The device operation that was submitted, and how it ended. -/
  operation : Option (Option Bool)

/-- What a call leaves: the bridge, its effects, and what it raised. -/
structure Called where
  bridge : Bridge
  effects : List Effect
  raised : Option Raised

/-- What follows is not reached when the call raised. -/
def Called.andThen (c : Called) (f : Bridge → Called) : Called :=
  match c.raised with
  | some _ => c
  | none => ⟨(f c.bridge).bridge, c.effects ++ (f c.bridge).effects, (f c.bridge).raised⟩

/-- A loop. -/
def each {α : Type} (f : α → Bridge → Called) : List α → Bridge → Called
  | [], b => ⟨b, [], none⟩
  | x :: xs, b => (f x b).andThen (each f xs)

namespace Bridge

/-- `register`. -/
def register (b : Bridge) (path interface : String) : Bridge :=
  { b with
    registrations := put b.registrations (path, interface) b.identifier
    exported := b.exported ++ [(b.identifier, (path, interface))]
    identifier := b.identifier + 1 }

/-- `self.bus.unregister_object(self.registrations.pop((path, iface)))`. -/
def unregister (path interface : String) (b : Bridge) : Called :=
  match b.registrations.lookup (path, interface) with
  | none => ⟨b, [], some (.keyError path)⟩
  | some identifier =>
      ⟨{ b with
          registrations := b.registrations.filter (·.1 ≠ (path, interface))
          exported := b.exported.filter (·.1 ≠ identifier) }, [], none⟩

/-- `__init__`. -/
def new : Bridge :=
  let b : Bridge :=
    { objects := [(agentsPath, [(agentsInterface, [])])]
      registrations := []
      exported := []
      identifier := 1
      pending := false
      refreshing := false
      closed := false
      discovery := []
      refreshAgain := false
      radioState := 0
      radioKey := none
      events := .new
      read := none
      operation := none }
  (b.register "/" managerInterface).register agentsPath agentsInterface

/-- `discovery_changed`. -/
def discoveryChanged (b : Bridge) : List Effect × Bridge :=
  let b := if b.discovery = [] then { b with events := b.events.removeSource .discovery } else b
  let props := ((b.objects.lookup adapterPath).bind (·.lookup adapterInterface)).getD []
  let value := Variant.boolean (b.discovery ≠ [])
  if props ≠ [] ∧ props.lookup "Discovering" ≠ some value then
    -- The dictionary that `objects` holds is changed in place.
    ([.signal (.propertiesChanged adapterPath adapterInterface [("Discovering", value)] [])],
      { b with
        objects := b.objects.map fun e =>
          if e.1 = adapterPath then
            (e.1, e.2.map fun e =>
              if e.1 = adapterInterface then (e.1, put e.2 "Discovering" value) else e)
          else e })
  else ([], b)

/-- `self.discovery.add(sender)`, and its change. -/
def startDiscovery (b : Bridge) (sender : String) : List Effect × Bridge :=
  { b with discovery := if sender ∈ b.discovery then b.discovery else sender :: b.discovery
    : Bridge }.discoveryChanged

/-- `self.discovery.discard(sender)`, and its change. -/
def stopDiscovery (b : Bridge) (sender : String) : List Effect × Bridge :=
  { b with discovery := b.discovery.filter (· ≠ sender) : Bridge }.discoveryChanged

/-- `owner_changed`. -/
def ownerChanged (b : Bridge) (name newOwner : String) : List Effect × Bridge :=
  if newOwner = "" then b.stopDiscovery name else ([], b)

/-- `heartbeat`. -/
def heartbeat (b : Bridge) : List Effect :=
  if b.events.key ≠ none ∧ b.events.key = b.radioKey ∧ b.events.active then [.feed b.radioState]
  else []

/-- `0 if state.get('unavailable') else 1 | (2 if state['powered'] else 0)`. -/
def radioOf (state : Object) : Except Raised Nat :=
  if ((state.lookup "unavailable").elim false truthy) then .ok 0
  else do
    let powered ← item (.obj state) "powered"
    return 1 ||| if truthy powered then 2 else 0

/-- The properties of the adapter: a synthetic identity, not the host's address. -/
def adapterProps (powered : Json) (discovering : Bool) : Except Raised Properties :=
  variants
    [("Address", .str "02:4C:48:42:54:01"), ("AddressType", .str "public"),
      ("Name", .str "Mac Bluetooth"), ("Alias", .str "Mac Bluetooth"), ("Class", .int 0),
      ("Powered", powered), ("Discoverable", .bool false), ("Pairable", powered),
      ("Discovering", .bool discovering), ("UUIDs", .arr [])]

/-- The loop over `state['devices']`: of two records of one path, the later one stays. -/
def withDevices : List Json → Objects → Except Raised Objects
  | [], current => .ok current
  | record :: records, current => do
      let (path, props) ← deviceProps record
      withDevices records (put current path [(deviceInterface, props)])

/-- `current`. -/
def current (b : Bridge) (state : Object) : Except Raised Objects := do
  let powered ← item (.obj state) "powered"
  let adapter ← adapterProps powered (b.discovery ≠ [])
  let records ← elements (← item (.obj state) "devices")
  withDevices records
    [(agentsPath, [(agentsInterface, [])]), (adapterPath, [(adapterInterface, adapter)])]

/-- A path that is no longer there. -/
def remove (path : String) (b : Bridge) : Called :=
  match b.objects.lookup path with
  | none => ⟨b, [], some (.keyError path)⟩
  | some interfaces =>
      let names := interfaces.map Prod.fst
      (Called.mk { b with objects := b.objects.filter (·.1 ≠ path) }
        [.signal (.interfacesRemoved path names)] none).andThen
        (each (unregister path) names)

/-- An interface of a path that stays: its properties are replaced, and what changed is told. -/
def change (path interface : String) (props : Properties) (b : Bridge) : Called :=
  let old := (b.objects.lookup path).bind (·.lookup interface)
  if old = none ∧ props ≠ [] then ⟨b, [], some (.keyError interface)⟩
  else
    let changed := changes (old.getD []) props
    ⟨{ b with
        objects := b.objects.map fun e =>
          if e.1 = path then (e.1, put e.2 interface props) else e },
      if changed = [] then [] else [.signal (.propertiesChanged path interface changed [])], none⟩

/-- A path of `current`. -/
def place (entry : String × Interfaces) (b : Bridge) : Called :=
  match b.objects.lookup entry.1 with
  | none =>
      let b := { b with objects := put b.objects entry.1 entry.2 }
      ⟨entry.2.foldl (fun b e => b.register entry.1 e.1) b,
        [.signal (.interfacesAdded entry.1 entry.2)], none⟩
  | some _ => each (fun e => change entry.1 e.1 e.2) entry.2 b

/-- `set(self.objects) - set(current)`, gone through in the given order, if it is one of them. -/
def vanished (b : Bridge) (current : Objects) (order : List String) : List String :=
  let paths := (b.objects.map Prod.fst).filter fun path => (current.lookup path).isNone
  if order.isPerm paths then order else paths

/-- The two loops of `update`. -/
def publish (current : Objects) (order : List String) (b : Bridge) : Called :=
  (each remove (b.vanished current order) b).andThen (each place current)

/-- `update`. -/
def update (b : Bridge) (state : Object) (order : List String) : Called :=
  match radioOf state with
  | .error e => ⟨b, [], some e⟩
  | .ok radio =>
      let b := { b with radioState := radio, radioKey := b.events.key }
      match b.current state with
      | .error e => ⟨b, [.radio radio], some e⟩
      | .ok current => (Called.mk b [.radio radio] none).andThen (publish current order)

/-- `{'devices': [], 'powered': False, 'unavailable': True}`. -/
def unavailable : Object :=
  [("devices", .arr []), ("powered", .bool false), ("unavailable", .bool true)]

/-- `schedule_discovery`. -/
def scheduleDiscovery (b : Bridge) : Bridge :=
  if b.discovery ≠ [] ∧ !b.closed ∧ b.events.active then
    { b with events := b.events.later .discovery }
  else b

/-- `refresh`. -/
def refresh (b : Bridge) (scan : Bool) (order : List String) : List Effect × Bridge :=
  if b.closed then ([], b)
  else if b.refreshing then ([], { b with refreshAgain := true })
  else if !b.events.active then
    let c := b.update unavailable order
    (c.effects, c.bridge)
  else
    ([], { b with
      refreshing := true
      read := some (.waiting (scan ∧ b.discovery ≠ [] ∧ !b.pending)) })

/-- The end of `finished`. -/
def settle (b : Bridge) : Bridge :=
  (if b.refreshAgain then { b with refreshAgain := false, events := b.events.notify }
    else b).scheduleDiscovery

/-- A read that failed. -/
def fail (b : Bridge) (order : List String) : List Effect × Bridge :=
  let c := b.update unavailable order
  (c.effects, { c.bridge with events := c.bridge.events.retry })

/-- The `try` of `finished`, for a read. -/
def take (b : Bridge) (reply : Except String Object) (order : List String) : List Effect × Bridge :=
  match reply with
  | .error _ => b.fail order
  | .ok state =>
      let c := b.update state order
      match c.raised with
      | none => (c.effects, c.bridge)
      | some _ => (c.effects ++ (c.bridge.fail order).1, (c.bridge.fail order).2)

/-- `finished`, of a read. -/
def finished (b : Bridge) (reply : Except String Object) (order : List String) :
    List Effect × Bridge :=
  let b := { b with refreshing := false, read := none }
  if b.closed then ([], b)
  else ((b.take reply order).1, (b.take reply order).2.settle)

/-- `finished`, of a device operation. -/
def operated (b : Bridge) (ok : Bool) : Bridge :=
  let b := { b with pending := false, operation := none }
  if b.closed then b
  else (if ok then { b with refreshAgain := true } else b).settle

/-- `read_host`. -/
def readHost (b : Bridge) (key : Option HostKey) : List Effect × Bridge :=
  let b := { b with events := b.events.readHost key }
  (if key.isSome then b.heartbeat else [], b)

/-- `watch_status`; the directory is watched, or not. -/
def watchStatus (b : Bridge) (watched : Bool) (key : Option HostKey) : List Effect × Bridge :=
  (if watched then b else { b with events := b.events.later .watch }).readHost key

/-- `status_changed`, for the directory or the file. -/
def statusChanged (b : Bridge) (directory file : Bool) (key : Option HostKey) :
    List Effect × Bridge :=
  let b := if directory then { b with events := b.events.later .watch } else b
  if directory ∨ file then b.readHost key else ([], b)

/-- A timer goes off, with what it may read. -/
def fire (b : Bridge) (name : Timer) (watched : Bool) (key : Option HostKey)
    (order : List String) : List Effect × Bridge :=
  let b := { b with events := b.events.removeSource name }
  if b.events.closed then ([], b)
  else
    match name with
    | .refresh => b.refresh false order
    | .retry => ([], { b with events := b.events.notify })
    | .reconcile => ([], { b with events := b.events.reconcile })
    | .expiry => b.readHost key
    | .watch => b.watchStatus watched key
    | .discovery => b.refresh true order

/-- `close`. -/
def close (b : Bridge) : Bridge :=
  { b with closed := true, exported := [], events := b.events.close }

end Bridge

/-! ### Runs -/

inductive Event where
  | watchStatus (watched : Bool) (key : Option HostKey)
  | statusChanged (directory file : Bool) (key : Option HostKey)
  | fire (name : Timer) (watched : Bool) (key : Option HostKey) (order : List String)
  | startDiscovery (sender : String) (order : List String)
  | stopDiscovery (sender : String)
  | ownerChanged (name newOwner : String)
  /-- `Connect`, `Disconnect` or `Pair`. -/
  | operate
  /-- The operation ends on the worker. -/
  | operationEnds (ok : Bool)
  /-- The main loop takes this. -/
  | operated
  /-- The worker starts the next request of a read. -/
  | request
  /-- It ends. -/
  | reply (result : Except String Object)
  /-- The main loop takes the worker's result. -/
  | finished (order : List String)
  | close

namespace Bridge

/-- A step of the bridge, if there is one. -/
def step (b : Bridge) : Event → Option (List Effect × Bridge)
  | .watchStatus watched key => if b.closed then none else some (b.watchStatus watched key)
  | .statusChanged directory file key =>
      if b.closed then none else some (b.statusChanged directory file key)
  | .fire name watched key order =>
      if name ∈ b.events.sources then some (b.fire name watched key order) else none
  | .startDiscovery sender order =>
      if b.closed then none
      else
        let c := b.startDiscovery sender
        some (c.1 ++ (c.2.refresh true order).1, (c.2.refresh true order).2)
  | .stopDiscovery sender => if b.closed then none else some (b.stopDiscovery sender)
  | .ownerChanged name newOwner => if b.closed then none else some (b.ownerChanged name newOwner)
  | .operate =>
      if b.closed ∨ b.pending then none
      else some ([], { b with pending := true, operation := some none })
  | .operationEnds ok =>
      if b.operation = some none then some ([], { b with operation := some (some ok) }) else none
  | .operated =>
      match b.operation with
      | some (some ok) => some ([], b.operated ok)
      | _ => none
  | .request =>
      match b.read with
      | some (.waiting true) => some ([], { b with read := some .scanning })
      | some (.waiting false) => some ([], { b with read := some .reading })
      | _ => none
  | .reply result =>
      match b.read, result with
      | some .scanning, .ok _ => some ([], { b with read := some (.waiting false) })
      | some .scanning, .error e => some ([], { b with read := some (.done (.error e)) })
      | some .reading, result => some ([], { b with read := some (.done result) })
      | _, _ => none
  | .finished order =>
      match b.read with
      | some (.done reply) => some (b.finished reply order)
      | _ => none
  | .close => some ([], b.close)

/-- A run of the bridge, with its effects. -/
abbrev Run : Bridge → List (Event × List Effect) → Bridge → Prop :=
  Steps fun b e effects b' => b.step e = some (effects, b')

end Bridge

end Ashacky.Devices.Bluetooth
