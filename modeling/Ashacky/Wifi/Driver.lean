import Ashacky.Wifi.Elements

/-!
# Wi-Fi — Driver

The kernel module's state (`lh_priv`), its entry points and its runs.  Every entry point takes
the wiphy mutex, so a run is a sequence of whole entry points; `jiffies` is any value at each of
them.  What the module does to the rest of the kernel is the list of calls a step makes, in
order; the netdev's carrier and its running flag are part of the state, and so is what the module
knows of the lower device.

Outside the model: packets, and what registers and removes the module.  A copy from or to user
memory may fail (`copied`), `cfg80211_inform_bss` may return `NULL` (`informed`), and other
allocations succeed.
-/

namespace Ashacky.Wifi
open Ashacky.Support

/-! ### Data -/

/-- `lh_connection.operation`: 0, 1 and 2. -/
inductive Operation where
  | none | connect | disconnect
deriving DecidableEq

/-- `struct lh_connection`, the pending connection request. -/
structure Connection where
  sequence : UInt32
  operation : Operation
  ssidLength : UInt8
  pskLength : UInt8
  bssid : Address
  ssid : Block
  psk : Block
deriving DecidableEq

/-- Zeroed memory. -/
def Connection.zero : Connection := ⟨0, .none, 0, 0, .zero, .zero, .zero⟩

/-- `struct lh_connection_result`. -/
structure ConnectionResult where
  sequence : UInt32
  status : UInt16
  bssid : Address
deriving DecidableEq

/-- `struct lh_signal`. -/
structure Sample where
  bssid : Address
  signal : Int8
  reserved : UInt8
deriving DecidableEq

/-- `struct lh_link`. -/
structure Link where
  sequence : UInt32
  flags : UInt8
  ssidLength : UInt8
  bssid : Address
  ssid : Block
deriving DecidableEq

/-- `struct lh_link_report`.  State 0 is down, 1 is a roam, 2 is the initial BSS. -/
structure LinkReport where
  sequence : UInt32
  state : UInt8
  ssidLength : UInt8
  ieLength : UInt16
  frequency : UInt32
  signal : Int32
  capability : UInt16
  beaconInterval : UInt16
  bssid : Address
  ssid : Block
deriving DecidableEq

/-- What `report_link` reads from user memory: the length in the header it reads first, and the
report with as many bytes after it, which it reads again. -/
structure LinkInput where
  first : UInt16
  report : LinkReport
  ies : Data
  length : ies.length = first.toNat

/-- `struct lh_record`, the header of a published BSS. -/
structure Record where
  sequence : UInt32
  frequency : UInt32
  signal : Int32
  capability : UInt16
  beaconInterval : UInt16
  bssid : Address
  ieLength : UInt16
deriving DecidableEq

namespace Record

/-- `sizeof(struct lh_record)`. -/
def size : Nat := 24

/-- The packed bytes of a record. -/
def pack (r : Record) : Data :=
  leBytes 4 r.sequence.toNat ++ leBytes 4 r.frequency.toNat ++
    leBytes 4 r.signal.toUInt32.toNat ++ leBytes 2 r.capability.toNat ++
    leBytes 2 r.beaconInterval.toNat ++ r.bssid.toList ++ leBytes 2 r.ieLength.toNat

/-- The record at the start of a buffer. -/
def unpack (d : Data) : Record where
  sequence := UInt32.ofNat (leNat (slice d 0 4))
  frequency := UInt32.ofNat (leNat (slice d 4 8))
  signal := (UInt32.ofNat (leNat (slice d 8 12))).toInt32
  capability := UInt16.ofNat (leNat (slice d 12 14))
  beaconInterval := UInt16.ofNat (leNat (slice d 14 16))
  bssid := Vector.ofFn fun i => (slice d 16 22).getD i 0
  ieLength := UInt16.ofNat (leNat (slice d 22 24))

end Record

/-- `struct cfg80211_connect_params`, as far as `connect_network` reads it.  A pointer is an
option, an array with its count a list. -/
structure ConnectParams where
  ssid : Option Data
  bssid : Option Address
  privacy : Bool
  /-- `mfp == NL80211_MFP_REQUIRED`. -/
  mfpRequired : Bool
  keyLen : UInt8
  /-- `crypto.sae_pwd` is not `NULL`. -/
  saePwd : Bool
  psk : Option Block
  wpaVersions : UInt32
  cipherGroup : UInt32
  ciphersPairwise : List UInt32
  akmSuites : List UInt32
deriving DecidableEq

/-- The lower device's `netif_running` and `netif_carrier_ok`. -/
structure Lower where
  running : Bool
  carrier : Bool
deriving DecidableEq

/-- `struct lh_reader`, the observation cursors of one open file. -/
structure Reader where
  scan : UInt32
  connection : UInt32
deriving DecidableEq

/-- `struct lh_priv`, with the netdev's `running` and `carrier` and the open files' readers. -/
structure Priv where
  /-- The pending `cfg80211_scan_request`. -/
  scan : Option Nat
  sequence : UInt32
  scanDeadline : UInt64
  connection : Connection
  connectionSequence : UInt32
  connectionDeadline : UInt64
  disconnectReason : UInt16
  connected : Bool
  ssid : Block
  ssidLength : UInt8
  privacy : Bool
  pinned : Bool
  associatedBssid : Address
  signal : Int8
  signalValid : Bool
  signalUpdated : UInt64
  lower : Option Lower
  running : Bool
  carrier : Bool
  readers : List (Nat × Reader)
deriving DecidableEq

/-- After `lh_init`. -/
def Priv.init (lower : Option Lower) : Priv where
  scan := none
  sequence := 0
  scanDeadline := 0
  connection := .zero
  connectionSequence := 0
  connectionDeadline := 0
  disconnectReason := 0
  connected := false
  ssid := .zero
  ssidLength := 0
  privacy := false
  pinned := false
  associatedBssid := .zero
  signal := 0
  signalValid := false
  signalUpdated := 0
  lower := lower
  running := false
  carrier := false
  readers := []

/-! ### Calls and results -/

/-- The two delayed works. -/
inductive Work where
  | timeout | connectionTimeout
deriving DecidableEq

/-- What `cfg80211_inform_bss` is told. -/
structure Information where
  channel : Nat
  bssid : Address
  capability : UInt16
  beaconInterval : UInt16
  ies : Data
  signal : Int32
deriving DecidableEq

inductive Call where
  /-- `cfg80211_scan_done`. -/
  | scanDone (request : Nat) (aborted : Bool)
  /-- `cfg80211_connect_result`. -/
  | connectResult (bssid : Option Address) (status : UInt16)
  /-- `cfg80211_disconnected`. -/
  | disconnected (reason : UInt16) (locally : Bool)
  /-- `cfg80211_inform_bss`, which returned a BSS. -/
  | informBss (information : Information)
  /-- `cfg80211_roamed`. -/
  | roamed (bssid : Address)
  /-- `mod_delayed_work`. -/
  | modDelayedWork (work : Work) (delay : UInt64)
  /-- `cancel_delayed_work_sync`. -/
  | cancelDelayedWork (work : Work)
  /-- `wake_up_interruptible_poll`. -/
  | wakeUp
deriving DecidableEq

/-- What an entry point gives its caller. -/
inductive Reply where
  | none
  | sequence (n : UInt32)
  | connection (c : Connection)
  | link (l : Link)
  | count (n : Nat)
  /-- `EPOLLIN | EPOLLRDNORM`, or nothing. -/
  | ready (b : Bool)
  | pollError
  /-- A station's address and its signal, if that is filled in. -/
  | station (mac : Address) (signal : Option Int8)
deriving DecidableEq

structure Output where
  result : Except Errno Reply
  calls : List Call

/-- A step that fails and does nothing. -/
def Priv.fail (p : Priv) (e : Errno) : Output × Priv := (⟨.error e, []⟩, p)

/-- A step that gives a reply and does nothing else. -/
def Priv.reply (p : Priv) (r : Reply) : Output × Priv := (⟨.ok r, []⟩, p)

/-! ### Requests -/

/-- `WLAN_STATUS_SUCCESS`. -/
def statusSuccess : UInt16 := 0

/-- `WLAN_STATUS_UNSPECIFIED_FAILURE`. -/
def statusUnspecifiedFailure : UInt16 := 1

/-- `WLAN_REASON_UNSPECIFIED`. -/
def reasonUnspecified : UInt16 := 1

/-- `WLAN_REASON_DEAUTH_LEAVING`. -/
def reasonDeauthLeaving : UInt16 := 3

/-- `time_before`, over the wrapping counter. -/
def timeBefore (a b : UInt64) : Bool := 2 ^ 63 ≤ (a - b).toNat

/-- `if (!++sequence) ++sequence;` -/
def nextSequence (sequence : UInt32) : UInt32 :=
  if sequence + 1 = 0 then sequence + 1 + 1 else sequence + 1

namespace Priv

/-- `finish_connection`. -/
def finishConnection (p : Priv) (status : UInt16) (bssid : Option Address) : List Call × Priv :=
  let operation := p.connection.operation
  if operation = .none then ([], p)
  else
    let p :=
      if operation = .connect ∧ status = statusSuccess then
        { p with
          ssidLength := p.connection.ssidLength
          ssid := p.connection.ssid
          privacy := p.connection.pskLength ≠ 0
          pinned := !p.connection.bssid.isZero }
      else p
    let p := { p with connection := .zero, signalValid := false }
    let (calls, p) :=
      if operation = .connect then
        let p := { p with connected := status = statusSuccess }
        -- A success comes with the address the host reported.
        let p := if p.connected then { p with associatedBssid := bssid.getD .zero } else p
        ([Call.connectResult bssid status], p)
      else
        (if p.connected then [Call.disconnected p.disconnectReason true] else [],
          { p with connected := false })
    let p :=
      if !p.connected then
        { p with
          ssid := .zero
          ssidLength := 0
          privacy := false
          pinned := false
          associatedBssid := .zero }
      else p
    (calls, { p with carrier := p.connected && p.lower.any (·.carrier) })

/-- `begin_connection`. -/
def beginConnection (hz : UInt64) (p : Priv) (operation : Operation) (jiffies : UInt64) :
    List Call × Priv :=
  let sequence := nextSequence p.connectionSequence
  ([.modDelayedWork .connectionTimeout (90 * hz)],
    { p with
      connection := { Connection.zero with operation := operation, sequence := sequence }
      connectionSequence := sequence
      connectionDeadline := jiffies + 90 * hz })

/-- `finish_scan`. -/
def finishScan (p : Priv) (aborted : Bool) : List Call × Priv :=
  match p.scan with
  | some request => ([.scanDone request aborted], { p with scan := none })
  | none => ([], p)

/-! ### The cfg80211 operations and the workers -/

/-- `WLAN_CIPHER_SUITE_CCMP`. -/
def cipherCcmp : UInt32 := 0x000fac04

/-- `WLAN_AKM_SUITE_PSK`. -/
def akmPsk : UInt32 := 0x000fac02

/-- `NL80211_WPA_VERSION_2`. -/
def wpaVersion2 : UInt32 := 2

/-- The checks of `connect_network` on its parameters, in order. -/
def checkParams (sme : ConnectParams) : Option Errno :=
  if sme.ssid.all fun ssid => ssid.length = 0 ∨ ssid.length > 32 then some .EINVAL
  else if sme.saePwd ∨ sme.keyLen ≠ 0 then some .EOPNOTSUPP
  else if sme.mfpRequired then some .EOPNOTSUPP
  else if !sme.privacy ∧ sme.psk.isSome then some .EINVAL
  else if sme.privacy ∧ (sme.psk.isNone ∨ sme.wpaVersions ≠ wpaVersion2 ∨
      sme.cipherGroup ≠ cipherCcmp ∨
      sme.ciphersPairwise.length ≠ 1 ∨ sme.ciphersPairwise.head? ≠ some cipherCcmp ∨
      sme.akmSuites.length ≠ 1 ∨ sme.akmSuites.head? ≠ some akmPsk) then some .EOPNOTSUPP
  else none

/-- The fields of the pending request that `connect_network` fills in. -/
def fillConnection (c : Connection) (sme : ConnectParams) : Connection :=
  let ssid := sme.ssid.getD []
  { c with
    ssidLength := UInt8.ofNat ssid.length
    ssid := .copy ssid
    bssid := sme.bssid.getD c.bssid
    pskLength := if sme.psk.isSome then 32 else c.pskLength
    psk := sme.psk.getD c.psk }

/-- `connect_network`. -/
def connectNetwork (hz : UInt64) (p : Priv) (sme : ConnectParams) (jiffies : UInt64) :
    Output × Priv :=
  if !p.running then p.fail .ENETDOWN
  else if p.scan.isSome ∨ p.connection.operation ≠ .none ∨ p.connected then p.fail .EBUSY
  else
    match checkParams sme with
    | some e => p.fail e
    | none =>
        let (calls, p) := p.beginConnection hz .connect jiffies
        (⟨.ok .none, calls ++ [.wakeUp]⟩, { p with connection := fillConnection p.connection sme })

/-- `disconnect_network`. -/
def disconnectNetwork (hz : UInt64) (p : Priv) (reason : UInt16) (jiffies : UInt64) :
    Output × Priv :=
  if p.connection.operation = .disconnect then p.fail .EBUSY
  else
    let (finished, p) :=
      if p.connection.operation = .connect then p.finishConnection statusUnspecifiedFailure none
      else ([], p)
    let p := { p with disconnectReason := reason }
    let (begun, p) := p.beginConnection hz .disconnect jiffies
    (⟨.ok .none, finished ++ begun ++ [.wakeUp]⟩, p)

/-- `connection_timeout`.  The counter is read again for the new delay. -/
def connectionTimeout (p : Priv) (jiffies later : UInt64) : Output × Priv :=
  if p.connection.operation ≠ .none ∧ timeBefore jiffies p.connectionDeadline then
    (⟨.ok .none, [.modDelayedWork .connectionTimeout (p.connectionDeadline - later)]⟩, p)
  else
    let (calls, p) := p.finishConnection statusUnspecifiedFailure none
    (⟨.ok .none, calls⟩, p)

/-- `scan_timeout`. -/
def scanTimeout (p : Priv) (jiffies later : UInt64) : Output × Priv :=
  if p.scan.isSome ∧ timeBefore jiffies p.scanDeadline then
    (⟨.ok .none, [.modDelayedWork .timeout (p.scanDeadline - later)]⟩, p)
  else
    let (calls, p) := p.finishScan true
    (⟨.ok .none, calls⟩, p)

/-- `start_scan`. -/
def startScan (hz : UInt64) (p : Priv) (request : Nat) (jiffies : UInt64) : Output × Priv :=
  if p.scan.isSome then p.fail .EBUSY
  else
    (⟨.ok .none, [.modDelayedWork .timeout (45 * hz), .wakeUp]⟩,
      { p with
        scan := some request
        scanDeadline := jiffies + 45 * hz
        sequence := nextSequence p.sequence })

/-- `abort_scan`. -/
def abortScan (p : Priv) : Output × Priv :=
  let (calls, p) := p.finishScan true
  (⟨.ok .none, calls⟩, p)

/-- `get_station`. -/
def getStation (hz : UInt64) (p : Priv) (mac : Address) (jiffies : UInt64) : Output × Priv :=
  if !p.connected ∨ mac ≠ p.associatedBssid then p.fail .ENOENT
  else
    p.reply (.station mac
      (if p.signalValid ∧ timeBefore jiffies (p.signalUpdated + 15 * hz) then some p.signal else none))

/-- `dump_station`. -/
def dumpStation (hz : UInt64) (p : Priv) (idx : Nat) (jiffies : UInt64) : Output × Priv :=
  if idx ≠ 0 ∨ !p.connected then p.fail .ENOENT
  else p.getStation hz p.associatedBssid jiffies

/-! ### The bridge's file -/

/-- The flags of a link snapshot. -/
def linkFlags (connected privacy pinned busy : Bool) : UInt8 :=
  (if connected then 1 else 0) ||| (if privacy then 2 else 0) ||| (if pinned then 4 else 0) |||
    (if busy then 8 else 0)

/-- The snapshot of `LH_GET_LINK`. -/
def link (p : Priv) : Link where
  sequence := p.connectionSequence
  flags := linkFlags p.connected p.privacy p.pinned (p.connection.operation ≠ .none)
  ssidLength := p.ssidLength
  bssid := p.associatedBssid
  ssid := p.ssid

/-- The association is dropped, as on a report that the link is down. -/
def dropLink (p : Priv) : Priv :=
  { p with
    connected := false
    signalValid := false
    ssid := .zero
    ssidLength := 0
    privacy := false
    pinned := false
    associatedBssid := .zero
    carrier := false }

/-- The report is not one of the current session, or its state does not fit it. -/
def reportStale (p : Priv) (report : LinkReport) : Bool :=
  report.sequence ≠ p.connectionSequence ||
    (if report.state = 2 then p.connection.operation ≠ .connect
      else !p.connected || p.connection.operation ≠ .none)

/-- A report that the link is down carries nothing else. -/
def reportBare (u : LinkInput) : Bool :=
  u.first = 0 && u.report.ssidLength = 0 && u.report.frequency = 0 && u.report.signal = 0 &&
    u.report.capability = 0 && u.report.beaconInterval = 0 && u.report.ssid = .zero &&
    u.report.bssid.isZero

end Priv

/-- What a reported BSS is held to: `ssid`, `ssid_length`, `privacy` and `pin`. -/
structure Expected where
  ssid : Block
  ssidLength : UInt8
  privacy : Bool
  pin : Option Address

namespace Priv

/-- The initial BSS is held to the pending request, a roam to the association. -/
def expected (p : Priv) (state : UInt8) : Expected :=
  if state = 2 then
    ⟨p.connection.ssid, p.connection.ssidLength, p.connection.pskLength ≠ 0,
      some p.connection.bssid⟩
  else ⟨p.ssid, p.ssidLength, p.privacy, if p.pinned then some p.associatedBssid else none⟩

end Priv

namespace Expected

/-- The fixed part of a report is that of a BSS as expected. -/
def matchesReport (x : Expected) (report : LinkReport) : Bool :=
  report.ssidLength = x.ssidLength &&
    report.ssid.front x.ssidLength.toNat = x.ssid.front x.ssidLength.toNat &&
    report.bssid.isValid && -12700 ≤ report.signal.toInt && report.signal.toInt ≤ 0 &&
    x.pin.all (fun pin => pin.isZero || pin = report.bssid)

/-- The checks of `report_link` on a BSS, and its channel. -/
def check (x : Expected) (u : LinkInput) : Except Errno Nat :=
  if !x.matchesReport u.report then .error .EINVAL
  else
    match walkReport x.ssid x.ssidLength u.ies with
    | .error e => .error e
    | .ok seen =>
        match getChannel u.report.frequency with
        | none => .error .EINVAL
        | some channel =>
            if seen.ssids ≠ 1 ∨ !isEss u.report.capability ∨
                !compatibleSecurity u.ies x.privacy u.report.capability then .error .EINVAL
            else .ok channel

end Expected

namespace Priv

/-- `report_link`, after the copies. -/
def reportLink (p : Priv) (u : LinkInput) (informed : Bool) : Output × Priv :=
  if u.first.toNat > 4096 then p.fail .EINVAL
  else if u.report.ieLength ≠ u.first ∨ u.report.state > 2 then p.fail .EINVAL
  else if p.reportStale u.report then p.fail .ESTALE
  else if u.report.state = 0 then
    if !reportBare u then p.fail .EINVAL
    else (⟨.ok .none, [.disconnected reasonUnspecified false]⟩, p.dropLink)
  else
    match (p.expected u.report.state).check u with
    | .error e => p.fail e
    | .ok channel =>
        if !informed then p.fail .ENOMEM
        else
          let bss := Call.informBss ⟨channel, u.report.bssid, u.report.capability,
            u.report.beaconInterval, u.ies, u.report.signal⟩
          if u.report.state = 1 ∧ u.report.bssid ≠ p.associatedBssid then
            (⟨.ok .none, [bss, .roamed u.report.bssid]⟩,
              { p with associatedBssid := u.report.bssid, signalValid := false })
          else (⟨.ok .none, [bss]⟩, p)

/-- A reader's cursors are set, under the file's number. -/
def setReader (p : Priv) (file : Nat) (f : Reader → Reader) : Priv :=
  { p with readers := p.readers.map fun r => if r.1 = file then (r.1, f r.2) else r }

end Priv

/-- The `ioctl` commands, with what they read from user memory. -/
inductive Command where
  | getScan
  | finishScan (sequence : UInt32)
  | abortScan (sequence : UInt32)
  | getConnection
  | connectionResult (completion : ConnectionResult)
  | signal (sample : Sample)
  | getCapabilities
  | getLink
  | reportLink (input : LinkInput) (informed : Bool)
  /-- A number that is none of these. -/
  | unknown

namespace Priv

/-- `LH_FINISH_SCAN` and `LH_ABORT_SCAN`. -/
def completeScan (p : Priv) (sequence : UInt32) (aborted : Bool) : Output × Priv :=
  if p.scan.isNone ∨ sequence ≠ p.sequence then p.fail .ESTALE
  else
    let (calls, p) := p.finishScan aborted
    (⟨.ok .none, calls⟩, p)

/-- `LH_CONNECTION_RESULT`. -/
def completeConnection (p : Priv) (completion : ConnectionResult) : Output × Priv :=
  if p.connection.operation = .none ∨ completion.sequence ≠ p.connection.sequence then
    p.fail .ESTALE
  else if p.connection.operation = .connect ∧ completion.status = 0 ∧
      !completion.bssid.isValid then p.fail .EINVAL
  else if p.connection.operation = .connect ∧ completion.status = 0 ∧
      !p.connection.bssid.isZero ∧ completion.bssid ≠ p.connection.bssid then p.fail .EINVAL
  else
    let (calls, p) := p.finishConnection completion.status (some completion.bssid)
    (⟨.ok .none, calls⟩, p)

/-- `LH_SIGNAL`. -/
def sample (p : Priv) (sample : Sample) (jiffies : UInt64) : Output × Priv :=
  if sample.reserved ≠ 0 ∨ sample.signal.toInt > 0 ∨ sample.signal.toInt < -127 then p.fail .EINVAL
  else if !p.connected ∨ sample.bssid ≠ p.associatedBssid then p.fail .ESTALE
  else
    (⟨.ok .none, []⟩,
      { p with signal := sample.signal, signalUpdated := jiffies, signalValid := true })

/-- `control`.  Every command but the unknown one copies from or to user memory. -/
def control (p : Priv) (file : Nat) (capable copied : Bool) (jiffies : UInt64) :
    Command → Output × Priv
  | cmd =>
    if !capable then p.fail .EPERM
    else
      match cmd with
      | .unknown => p.fail .ENOTTY
      | cmd =>
        if !copied then p.fail .EFAULT
        else
          match cmd with
          | .reportLink input informed => p.reportLink input informed
          | .getScan =>
              let sequence := if p.scan.isSome then p.sequence else 0
              (p.setReader file ({ · with scan := sequence })).reply (.sequence sequence)
          | .finishScan sequence => p.completeScan sequence false
          | .abortScan sequence => p.completeScan sequence true
          | .getConnection =>
              (p.setReader file ({ · with connection := p.connection.sequence })).reply
                (.connection p.connection)
          | .connectionResult completion => p.completeConnection completion
          | .signal sample => p.sample sample jiffies
          -- LH_CAP_REQUEST_POLL | LH_CAP_HOST_LINK
          | .getCapabilities => p.reply (.sequence 3)
          | .getLink => p.reply (.link p.link)
          | .unknown => p.fail .ENOTTY

/-- `publish`. -/
def publish (p : Priv) (capable copied : Bool) (buffer : Data) (informed : Bool) : Output × Priv :=
  if !capable then p.fail .EPERM
  else if buffer.length < Record.size ∨ buffer.length > Record.size + 4096 then p.fail .EINVAL
  else if !copied then p.fail .EFAULT
  else
    let record := Record.unpack buffer
    let ies := buffer.drop Record.size
    if Record.size + record.ieLength.toNat ≠ buffer.length ∨ !record.bssid.isValid ∨
        record.signal.toInt > 0 ∨ record.signal.toInt < -12700 then p.fail .EINVAL
    else
      match walkRecord ies with
      | .error e => p.fail e
      | .ok () =>
          if p.scan.isNone ∨ p.sequence ≠ record.sequence then p.fail .ESTALE
          else
            match getChannel record.frequency with
            | none => p.fail .EINVAL
            | some channel =>
                if !informed then p.fail .ENOMEM
                else
                  (⟨.ok (.count buffer.length), [.informBss ⟨channel, record.bssid,
                    record.capability, record.beaconInterval, ies, record.signal⟩]⟩, p)

/-- `bridge_open`.  A file's number is not one that is open. -/
def bridgeOpen (p : Priv) (file : Nat) (capable : Bool) : Output × Priv :=
  if !capable then p.fail .EPERM
  else ({ p with readers := (file, ⟨0, 0⟩) :: p.readers.filter (·.1 ≠ file) } : Priv).reply .none

/-- `bridge_release`. -/
def bridgeRelease (p : Priv) (file : Nat) : Output × Priv :=
  ({ p with readers := p.readers.filter (·.1 ≠ file) } : Priv).reply .none

/-- The condition under which `bridge_poll` reports readiness. -/
def pollReady (p : Priv) (reader : Reader) : Bool :=
  (p.scan.isSome && p.sequence ≠ reader.scan) ||
    (p.connection.operation ≠ .none && p.connection.sequence ≠ reader.connection)

/-- `bridge_poll`. -/
def bridgePoll (p : Priv) (file : Nat) (capable : Bool) : Output × Priv :=
  if !capable then p.reply .pollError
  else p.reply (.ready ((p.readers.lookup file).any p.pollReady))

/-! ### The network devices -/

/-- `stop_device`.  The stack has cleared the running flag; the workers are waited for after the
mutex is released. -/
def stopDevice (p : Priv) : Output × Priv :=
  let p := { p with running := false }
  let (scans, p) := p.finishScan true
  let (connections, p) := p.finishConnection statusUnspecifiedFailure none
  let (drops, p) :=
    if p.connected then
      ([Call.disconnected reasonDeauthLeaving true], { p with connected := false })
    else ([], p)
  let p := { p with signalValid := false, carrier := false }
  (⟨.ok .none, scans ++ connections ++ drops ++
    [.cancelDelayedWork .timeout, .cancelDelayedWork .connectionTimeout]⟩, p)

end Priv

/-- The notifications of the lower device. -/
inductive NetdevEvent where
  | up | down | change | unregister | other
deriving DecidableEq

namespace Priv

/-- `detach_lower`. -/
def detachLower (p : Priv) : Priv :=
  if p.lower.isNone then p else { p with lower := none, carrier := false }

/-- `lower_event`, for the lower device, whose state is now `lower`. -/
def lowerEvent (p : Priv) (event : NetdevEvent) (lower : Lower) : Output × Priv :=
  if p.lower.isNone then p.reply .none
  else
    let p := { p with lower := some lower }
    match event with
    | .unregister => p.detachLower.reply .none
    | .change | .down | .up =>
        ({ p with carrier := p.connected && lower.running && lower.carrier } : Priv).reply .none
    | .other => p.reply .none

end Priv

/-! ### Runs -/

inductive Event where
  | startScan (request : Nat) (jiffies : UInt64)
  | abortScan
  | connectNetwork (sme : ConnectParams) (jiffies : UInt64)
  | disconnectNetwork (reason : UInt16) (jiffies : UInt64)
  | getStation (mac : Address) (jiffies : UInt64)
  | dumpStation (idx : Nat) (jiffies : UInt64)
  | scanTimeout (jiffies later : UInt64)
  | connectionTimeout (jiffies later : UInt64)
  | control (file : Nat) (capable copied : Bool) (jiffies : UInt64) (cmd : Command)
  | publish (capable copied : Bool) (buffer : Data) (informed : Bool)
  | bridgeOpen (file : Nat) (capable : Bool)
  | bridgeRelease (file : Nat)
  | bridgePoll (file : Nat) (capable : Bool)
  /-- The stack sets the netdev's running flag; the module has no part in it. -/
  | openDevice
  | stopDevice
  | lowerEvent (event : NetdevEvent) (lower : Lower)

/-- An entry point, on a kernel of `hz` ticks a second. -/
def Priv.step (hz : UInt64) (p : Priv) : Event → Output × Priv
  | .startScan request jiffies => p.startScan hz request jiffies
  | .abortScan => p.abortScan
  | .connectNetwork sme jiffies => p.connectNetwork hz sme jiffies
  | .disconnectNetwork reason jiffies => p.disconnectNetwork hz reason jiffies
  | .getStation mac jiffies => p.getStation hz mac jiffies
  | .dumpStation idx jiffies => p.dumpStation hz idx jiffies
  | .scanTimeout jiffies later => p.scanTimeout jiffies later
  | .connectionTimeout jiffies later => p.connectionTimeout jiffies later
  | .control file capable copied jiffies cmd => p.control file capable copied jiffies cmd
  | .publish capable copied buffer informed => p.publish capable copied buffer informed
  | .bridgeOpen file capable => p.bridgeOpen file capable
  | .bridgeRelease file => p.bridgeRelease file
  | .bridgePoll file capable => p.bridgePoll file capable
  | .openDevice => ({ p with running := true } : Priv).reply .none
  | .stopDevice => p.stopDevice
  | .lowerEvent event lower => p.lowerEvent event lower

end Ashacky.Wifi
