import Ashacky.Control.Json
import Ashacky.Support.Base64
import Ashacky.Wifi.Elements

/-!
# Wi-Fi — Records

The guest's view of an access point: `parse_bss` and `frequency` of `wifi_scan.py`, which turn an
entry of a host scan into a record, and `compatible` of `wifi_link.py`, which holds a record to
the open or WPA2/CCMP/PSK contract.

An exception is the error it raises.  `uuid.UUID` is given by the strings it accepts.
-/

namespace Ashacky.Wifi
open Ashacky.Support Ashacky.Control

/-- What the guest's code raises. -/
inductive Raised where
  | valueError (text : String)
  /-- `binascii.Error`, or the `ValueError` for a string that is not ASCII. -/
  | decodeError
  | keyError (key : String)
  /-- A `TypeError` or an `AttributeError`: the value is not of the type that is used. -/
  | typeError
  | runtimeError (text : String)
  /-- An `OSError` of a system call. -/
  | osError (errno : Errno)
deriving DecidableEq

/-- `wifi_scan.BSS`. -/
structure BSS where
  networkId : String
  ssid : Data
  bssid : Address
  frequencyMhz : Nat
  signalMbm : Int
  informationElements : Data
  isOpen : Bool
deriving DecidableEq

/-! ### Values of an entry -/

/-- `entry[key]`. -/
def item (entry : Object) (key : String) : Except Raised Json :=
  match entry.lookup key with
  | some value => .ok value
  | none => .error (.keyError key)

/-- `base64.b64decode(value, validate=True)`. -/
def b64decode : Json → Except Raised Data
  | .str s =>
      match Base64.decode s.toList with
      | some d => .ok d
      | none => .error .decodeError
  | _ => .error .typeError

/-- `uuid.UUID(value)`, for its check. -/
def checkUUID (isUUID : String → Bool) : Json → Except Raised String
  | .str s =>
      if isUUID s then .ok s else .error (.valueError "badly formed hexadecimal UUID string")
  | _ => .error .typeError

/-- The value of a hexadecimal digit, in either case. -/
def hexValue (c : Char) : Option Nat :=
  if 48 ≤ c.toNat ∧ c.toNat ≤ 57 then some (c.toNat - 48)
  else if 97 ≤ c.toNat ∧ c.toNat ≤ 102 then some (c.toNat - 87)
  else if 65 ≤ c.toNat ∧ c.toNat ≤ 70 then some (c.toNat - 55)
  else none

/-- The bytes of `n` pairs of digits, each with a colon after it, and a last pair: what
`(?:[0-9a-fA-F]{2}:){n}[0-9a-fA-F]{2}` matches. -/
def hexPairs : Nat → List Char → Option Data
  | 0, [a, b] => do
      let a ← hexValue a
      let b ← hexValue b
      return [UInt8.ofNat (a * 16 + b)]
  | n + 1, a :: b :: ':' :: rest => do
      let a ← hexValue a
      let b ← hexValue b
      let tail ← hexPairs n rest
      return UInt8.ofNat (a * 16 + b) :: tail
  | _, _ => none

/-- A value that passes a check. -/
def ensure {α : Type} (check : α → Bool) (text : String) (value : α) : Except Raised α :=
  if check value then .ok value else .error (.valueError text)

/-- The address that the text of a BSSID stands for. -/
def parseAddress : Json → Except Raised Address
  | .str s =>
      match hexPairs 5 s.toList with
      | some d => .ok (Vector.ofFn fun i => d.getD i 0)
      | none => .error (.valueError "Invalid BSSID")
  | _ => .error (.valueError "Invalid BSSID")

/-- `type(signal) is int and -127 <= signal <= 0`. -/
def parseSignal : Json → Except Raised Int
  | .int n => if -127 ≤ n ∧ n ≤ 0 then .ok n else .error (.valueError "Invalid signal strength")
  | _ => .error (.valueError "Invalid signal strength")

/-- `frequency`, in MHz. -/
def frequency : Json → Json → Except Raised Nat
  | .int band, .int channel =>
      if band = 1 ∧ 1 ≤ channel ∧ channel ≤ 13 then .ok (2407 + 5 * channel).toNat
      else if band = 1 ∧ channel = 14 then .ok 2484
      else if band = 2 ∧ 1 ≤ channel ∧ channel ≤ 177 then .ok (5000 + 5 * channel).toNat
      else if band = 3 ∧ channel = 2 then .ok 5935
      else if band = 3 ∧ 1 ≤ channel ∧ channel ≤ 233 then .ok (5950 + 5 * channel).toNat
      else .error (.valueError "Unsupported channel/band")
  | _, _ => .error (.valueError "Non-integer channel")

/-! ### A record -/

/-- One turn of the loop of `parse_bss`: the SSID element stands at most once and is the entry's
SSID. -/
def visitSsid (ssid : Data) (seen : Bool) (e : Element) : Except Raised Bool :=
  if e.id = 0 then
    if seen ∨ e.body ≠ ssid then .error (.valueError "Conflicting SSID information") else .ok true
  else .ok seen

/-- The element `bytes([0, len(ssid)]) + ssid`. -/
def ssidElement (ssid : Data) : Data := 0 :: UInt8.ofNat ssid.length :: ssid

/-- The information elements of a record: those of the entry, with the SSID in front if it is not
among them. -/
def parseElements (ssid ies : Data) : Except Raised Data := do
  let seen ← walk (.valueError "Truncated information element") (visitSsid ssid) ies false
  return if seen then ies else ssidElement ssid ++ ies

/-- `entry.get('open')`. -/
def classification (entry : Object) : Except Raised Bool :=
  match entry.lookup "open" with
  | some (.bool b) => .ok b
  | _ => .error (.valueError "Host omitted network security classification")

/-- `parse_bss`. -/
def parseBss (isUUID : String → Bool) : Json → Except Raised BSS
  | .obj entry => do
      let isOpen ← classification entry
      let networkId ← item entry "networkID" >>= checkUUID isUUID
      let ssid ← item entry "ssidBase64" >>= b64decode >>=
        ensure (·.length ≤ 32) "SSID exceeds IEEE 802.11 limit"
      let bssid ← item entry "bssid" >>= parseAddress >>=
        ensure Address.isValid "BSSID is not a unicast address"
      let signal ← item entry "signalDBm" >>= parseSignal
      let ies ← item entry "informationElementsBase64" >>= b64decode >>=
        ensure (·.length ≤ 4096) "Oversized information elements"
      let ies ← parseElements ssid ies
      let band ← item entry "channelBand"
      let channel ← item entry "channel"
      let frequencyMhz ← frequency band channel
      return ⟨networkId, ssid, bssid, frequencyMhz, signal * 100, ies, isOpen⟩
  | _ => .error .typeError

/-! ### Security -/

/-- What `compatible` collects: the bodies of the RSN elements, and whether a WPA element was
seen. -/
structure Collected where
  rsns : List Data
  wpa : Bool

def visitCompatible (c : Collected) (e : Element) : Except Unit Collected :=
  .ok
    { rsns := if e.id = 48 then c.rsns ++ [e.body] else c.rsns
      wpa := if e.id = 221 ∧ ouiWpa.isPrefixOf e.body then true else c.wpa }

/-- `[value[i:i + 4] for i in range(offset, offset + count * 4, 4)]`. -/
def suites (value : Data) (offset count : Nat) : List Data :=
  (List.range count).map fun i => slice value (offset + 4 * i) (offset + 4 * i + 4)

/-- One turn of `for required in (CCMP, PSK)`: the offset after the suites, or `return False`. -/
def requireSuite (value required : Data) (offset : Nat) : Option Nat :=
  if offset + 2 > value.length then none
  else
    let count := leNat (slice value offset (offset + 2))
    let offset := offset + 2
    if count = 0 ∨ count > (value.length - offset) / 4 then none
    else if !(suites value offset count).contains required then none
    else some (offset + count * 4)

/-- The part of `compatible` after the RSN element of a private network is found. -/
def compatibleValue (value : Data) : Bool :=
  if value.length < 18 ∨ slice value 0 2 ≠ [1, 0] ∨ slice value 2 6 ≠ ccmp then false
  else
    match requireSuite value ccmp 6 with
    | none => false
    | some offset =>
        match requireSuite value psk offset with
        | none => false
        | some offset =>
            offset = value.length ||
              (value.length - offset ≥ 2 && leNat (slice value offset (offset + 2)) &&& 64 = 0)

/-- `compatible`. -/
def compatible (record : BSS) (isPrivate : Bool) : Bool :=
  match walk () visitCompatible record.informationElements ⟨[], false⟩ with
  | .error _ => false
  | .ok c =>
      if !isPrivate then record.isOpen && c.rsns.isEmpty && !c.wpa
      else if record.isOpen ∨ c.rsns.length ≠ 1 then false
      else compatibleValue (c.rsns.headD [])

/-- `1 | (0 if record.open else 16)`, the capability that is reported for a record. -/
def BSS.capability (record : BSS) : UInt16 := 1 ||| (if record.isOpen then 0 else 16)

end Ashacky.Wifi
