import Mathlib.Data.List.Sort
import Ashacky.Wifi.Driver
import Ashacky.Wifi.Records

/-!
# Wi-Fi — Bridge

A scan from the host's radio to the kernel.  The host takes a snapshot of what CoreWLAN finds and
hands it out in pages of two (`WiFiBackend`); the guest reads the pages and parses their entries
(`wifi_scan.scan`); the bridge publishes each record to the kernel and then finishes the kernel's
scan, or aborts it when anything raises (`wifi_bridge.serve`).

CoreWLAN's networks, the UUIDs that are drawn, the JSON text of a reply and what `uuid.UUID` and
`float` accept are parameters.  The snapshot stays in the host's cache while it is read.  Before
each system call of the bridge anything may happen to the driver (`between`).
-/

namespace Ashacky.Wifi
open Ashacky.Support Ashacky.Control

/-! ### The host -/

/-- `CWChannel`: its number and the raw value of its band. -/
structure CWChannel where
  channelNumber : Int
  channelBand : Int
deriving DecidableEq

/-- `CWNetwork`, as far as a scan reads it. -/
structure CWNetwork where
  ssidData : Option Data
  bssid : Option String
  rssiValue : Int
  wlanChannel : Option CWChannel
  informationElementData : Option Data
  enterprise : Bool
  supportsNone : Bool
  personal : Bool
deriving DecidableEq

/-- `base64EncodedString()`. -/
def base64EncodedString (d : Data) : String := String.ofList (Base64.encode d)

/-- The entry of a network, as `wifi-scan` writes it. -/
def scanEntry (id : String) (ssid : Data) (network : CWNetwork) : Json :=
  .obj ([("networkID", Json.str id), ("ssidBase64", .str (base64EncodedString ssid)),
      ("signalDBm", .int network.rssiValue),
      ("channel", .int ((network.wlanChannel.map (·.channelNumber)).getD 0)),
      ("enterprise", .bool network.enterprise), ("open", .bool network.supportsNone),
      ("personal", .bool network.personal)] ++
    (network.bssid.map fun bssid => ("bssid", Json.str bssid)).toList ++
    (network.wlanChannel.map fun channel => ("channelBand", Json.int channel.channelBand)).toList ++
    (network.informationElementData.bind fun data =>
      if data.length ≤ 4096 then
        some ("informationElementsBase64", Json.str (base64EncodedString data))
      else none).toList)

/-- The loop over the networks: one without an SSID is left out, each other draws a UUID. -/
def scanEntries (uuidString : Nat → String) : Nat → List CWNetwork → List Json
  | _, [] => []
  | drawn, network :: rest =>
      match network.ssidData with
      | none => scanEntries uuidString drawn rest
      | some ssid =>
          scanEntry (uuidString drawn) ssid network :: scanEntries uuidString (drawn + 1) rest

/-- `WiFiBackend.Snapshot`, with the scan's identifier. -/
structure Snapshot where
  id : String
  entries : List Json
  truncated : Bool

/-- `wifi-scan`, for the networks CoreWLAN found. -/
def wifiScan (uuidString : Nat → String) (drawn : Nat) (found : List CWNetwork) : Snapshot where
  id := uuidString drawn
  entries := scanEntries uuidString (drawn + 1)
    ((found.insertionSort fun a b => a.rssiValue ≥ b.rssiValue).take 256)
  truncated := found.length > 256

/-- `scanPage`, for a snapshot of some age in seconds. -/
def scanPage (snapshot : Snapshot) (offset : Nat) (age : Int) : Object :=
  let start := min offset snapshot.entries.length
  let finish := min (start + 2) snapshot.entries.length
  [("ok", Json.bool true), ("scanID", .str snapshot.id),
    ("networks", .arr ((snapshot.entries.drop start).take (finish - start))),
    ("total", .int snapshot.entries.length), ("truncated", .bool snapshot.truncated),
    ("expiresInSeconds", .int (max 0 (60 - age)))] ++
  if finish < snapshot.entries.length then [("nextOffset", Json.int finish)] else []

/-! ### The guest's side of a request -/

/-- What Python takes from its libraries: the strings of `uuid.UUID`, and whether the float of a
text equals an integer. -/
structure Python where
  isUUID : String → Bool
  floatEq : String → Int → Bool

/-- `value == n`. -/
def Python.equals (P : Python) (n : Int) : Json → Bool
  | .int m => m = n
  | .bool b => (if b then 1 else 0) = n
  | .float text => P.floatEq text n
  | _ => false

/-- `bool(value)`. -/
def Python.truthy (P : Python) : Json → Bool
  | .null => false
  | .bool b => b
  | .int n => n ≠ 0
  | .float text => !P.floatEq text 0
  | .str s => s ≠ ""
  | .arr a => !a.isEmpty
  | .obj m => !m.isEmpty

/-- The JSON text of a reply, as it comes to the guest's socket, and `json.loads`. -/
structure Wire where
  text : Object → Data
  loads : Data → Option Object
  /-- The text is one line. -/
  line : ∀ m, 10 ∉ text m

/-- The guest reads what the host wrote. -/
def Wire.Reads (W : Wire) (m : Object) : Prop := W.loads (W.text m ++ [10]) = some m

/-- `readline(16384)`, on a line of the socket. -/
def readline (line : Data) : Data := line.take 16384

/-- `rpc`, for the host's reply. -/
def rpc (P : Python) (W : Wire) (reply : Object) : Except Raised Object :=
  let line := readline (W.text reply ++ [10])
  if line.getLast? ≠ some 10 then .error (.valueError "Truncated host response")
  else
    match W.loads line with
    | none => .error .decodeError
    | some reply =>
        if (reply.lookup "ok").any P.truthy then .ok reply
        else .error (.runtimeError (((reply.lookup "error").bind Json.string).getD "Host scan failed"))

/-! ### `scan` -/

/-- The guest's two requests. -/
inductive Request where
  | wifiScan
  | wifiScanPage (scanID : String) (offset : Nat)

/-- The checks of a page, and its entries. -/
def pageEntries (P : Python) (scanID : String) (total : Int) (page : Object) :
    Except Raised (List Json) := do
  let id ← item page "scanID"
  if id ≠ .str scanID then .error (.valueError "Scan changed during pagination")
  else
    let n ← item page "total"
    if !P.equals total n then .error (.valueError "Scan changed during pagination")
    else
      match ← item page "networks" with
      | .arr entries =>
          if entries.length > 2 then .error (.valueError "Invalid scan page") else .ok entries
      | _ => .error (.valueError "Invalid scan page")

/-- `while True`, from a page on.  A page that is followed by another has entries, and all of them
are below the total, so as many turns as the total and one more are enough. -/
def scanLoop (P : Python) (ask : Request → Except Raised Object) (scanID : String) (total : Int) :
    Nat → Object → Nat → List BSS → Except Raised (List BSS)
  | 0, _, _, _ => .error (.valueError "Invalid scan cursor")
  | fuel + 1, page, offset, records => do
      let entries ← pageEntries P scanID total page
      let parsed ← entries.mapM (parseBss P.isUUID)
      let offset := offset + entries.length
      match page.lookup "nextOffset" with
      | none | some .null =>
          if (offset : Int) ≠ total then .error (.valueError "Incomplete scan")
          else .ok (records ++ parsed)
      | some (.int next) =>
          if next ≠ offset ∨ entries.isEmpty ∨ next ≥ total then
            .error (.valueError "Invalid scan cursor")
          else do
            let page ← ask (.wifiScanPage scanID offset)
            scanLoop P ask scanID total fuel page offset (records ++ parsed)
      | some _ => .error (.valueError "Invalid scan cursor")

/-- `type(total) is int and 0 <= total <= 256 and not page.get('truncated')`. -/
def scanSize (P : Python) (page : Object) : Except Raised Int := do
  match ← item page "total" with
  | .int total =>
      if 0 ≤ total ∧ total ≤ 256 ∧ !(page.lookup "truncated").any P.truthy then .ok total
      else .error (.valueError "Incomplete or invalid scan size")
  | _ => .error (.valueError "Incomplete or invalid scan size")

/-- `scan`. -/
def scan (P : Python) (ask : Request → Except Raised Object) : Except Raised (List BSS) := do
  let page ← ask .wifiScan
  let scanID ← item page "scanID" >>= checkUUID P.isUUID
  let total ← scanSize P page
  scanLoop P ask scanID total (total.toNat + 1) page 0 []

/-- The host's answers to the guest, each page at its age. -/
def askHost (P : Python) (W : Wire) (snapshot : Snapshot) (age : Nat → Int) :
    Request → Except Raised Object
  | .wifiScan => rpc P W (scanPage snapshot 0 (age 0))
  | .wifiScanPage _ offset => rpc P W (scanPage snapshot offset (age offset))

/-! ### `serve` -/

/-- The header that `struct.pack('<IIiHH6sH', …)` writes for a record. -/
def BSS.header (bss : BSS) (number : UInt32) : Record where
  sequence := number
  frequency := UInt32.ofNat bss.frequencyMhz
  signal := Int32.ofInt bss.signalMbm
  capability := bss.capability
  beaconInterval := 0
  bssid := bss.bssid
  ieLength := UInt16.ofNat bss.informationElements.length

/-- `header + bss.information_elements`. -/
def BSS.packet (bss : BSS) (number : UInt32) : Data :=
  (bss.header number).pack ++ bss.informationElements

/-- The kernel a bridge talks to: what happens to the driver before each of its system calls, and
the packets that `cfg80211_inform_bss` takes. -/
structure Kernel where
  between : Nat → Priv → Priv
  informs : Data → Bool

/-- What came of the writes: the records that were published, what was raised, the number of
system calls so far, and the driver. -/
structure Writes where
  published : List BSS
  raised : Option Raised
  calls : Nat
  state : Priv

/-- `for bss in records`. -/
def writeRecords (K : Kernel) (number : UInt32) : List BSS → Nat → Priv → Writes
  | [], calls, p => ⟨[], none, calls, p⟩
  | bss :: rest, calls, p =>
      let packet := bss.packet number
      let (o, p) := (K.between calls p).publish true true packet (K.informs packet)
      match o.result with
      | .error e => ⟨[], some (.osError e), calls + 1, p⟩
      | .ok (.count n) =>
          if n ≠ packet.length then
            ⟨[], some (.runtimeError "Incomplete kernel record write"), calls + 1, p⟩
          else
            let w := writeRecords K number rest (calls + 1) p
            { w with published := bss :: w.published }
      | .ok _ => ⟨[], some (.runtimeError "Incomplete kernel record write"), calls + 1, p⟩

/-- How the bridge left the kernel's scan. -/
structure Served where
  published : List BSS
  /-- `FINISH_SCAN` was accepted. -/
  finished : Bool
  /-- `ABORT_SCAN` was accepted. -/
  aborted : Bool

/-- `fcntl.ioctl(device, FINISH_SCAN or ABORT_SCAN, sequence)`. -/
def completes (p : Priv) (number : UInt32) (abort : Bool) : Bool :=
  match (p.completeScan number abort).1.result with
  | .ok _ => true
  | .error _ => false

/-- The `except` branch: abort this exact scan. -/
def abortServed (K : Kernel) (number : UInt32) (published : List BSS) (calls : Nat) (p : Priv) :
    Served :=
  ⟨published, false, completes (K.between calls p) number true⟩

/-- The scan branch of `serve`, for the pending scan with this number. -/
def serveScan (P : Python) (K : Kernel) (ask : Request → Except Raised Object) (number : UInt32)
    (p : Priv) : Served :=
  match scan P ask with
  | .error _ => abortServed K number [] 0 p
  | .ok records =>
      let w := writeRecords K number records 0 p
      if w.raised.isSome then abortServed K number w.published w.calls w.state
      else
        let q := K.between w.calls w.state
        if completes q number false then ⟨w.published, true, false⟩
        else abortServed K number w.published (w.calls + 1) (q.completeScan number false).2

end Ashacky.Wifi
