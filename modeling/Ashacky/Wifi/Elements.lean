import Ashacky.Support.Elements

/-!
# Wi-Fi — Elements

What the kernel module checks of the bytes it is given: addresses, channels, the walk over a
report's information elements, and `compatible_security`, which holds a BSS to the open or
WPA2/CCMP/PSK contract.  `cfg80211_find_ie` and `cfg80211_find_vendor_ie` return the first
matching element of a buffer.
-/

namespace Ashacky.Wifi
open Ashacky.Support

/-- The errors an entry point returns, as `-errno`. -/
inductive Errno where
  | EPERM | EFAULT | EINVAL | ENETDOWN | EBUSY | EOPNOTSUPP | ESTALE | ENOTTY | ENOMEM | ENOENT
deriving DecidableEq

/-! ### Addresses -/

/-- `u8[ETH_ALEN]`. -/
abbrev Address := Vector UInt8 6

namespace Address

def zero : Address := Vector.replicate 6 0

/-- `is_zero_ether_addr`. -/
def isZero (a : Address) : Bool := a = zero

/-- `is_multicast_ether_addr`. -/
def isMulticast (a : Address) : Bool := a[0] &&& 1 ≠ 0

/-- `is_valid_ether_addr`. -/
def isValid (a : Address) : Bool := !a.isMulticast && !a.isZero

end Address

/-- Two locally administered addresses. -/
def firstBssid : Address := #v[2, 0, 0, 0, 0, 1]

@[inherit_doc firstBssid]
def secondBssid : Address := #v[2, 0, 0, 0, 0, 2]

/-- `u8[32]`, the size of a network name and of a key. -/
abbrev Block := Vector UInt8 32

namespace Block

def zero : Block := Vector.replicate 32 0

/-- `memcpy` of a byte string over a zeroed block. -/
def copy (d : Data) : Block := Vector.ofFn fun i => d.getD i 0

/-- The first bytes of a block, which `memcmp` compares. -/
def front (b : Block) (n : Nat) : Data := b.toList.take n

/-- What was copied stands at the front. -/
theorem front_copy {d : Data} (h : d.length ≤ 32) : (copy d).front d.length = d := by
  apply List.ext_getElem
  · simp [front, h]
  · intro i hi hi'
    have hlt : i < d.length := hi'
    simp [front, copy, List.getElem_take, List.getElem?_eq_getElem hlt]

end Block

/-! ### Channels -/

/-- The centre frequencies of `channels2`, in MHz. -/
def channels2 : List Nat := (List.range 14).map fun i => if i = 13 then 2484 else 2412 + i * 5

def five : List Nat :=
  [36, 40, 44, 48, 52, 56, 60, 64, 100, 104, 108, 112, 116, 120, 124, 128, 132, 136, 140, 144,
    149, 153, 157, 161, 165, 169, 173, 177]

/-- The centre frequencies of `channels5`. -/
def channels5 : List Nat := five.map fun c => 5000 + c * 5

/-- `ieee80211_get_channel`: the channel of the registered bands with that centre frequency. -/
def getChannel (frequency : UInt32) : Option Nat :=
  (channels2 ++ channels5).find? (· = frequency.toNat)

/-! ### Information elements -/

/-- `WLAN_EID_SSID`. -/
def eidSsid : UInt8 := 0

/-- `WLAN_EID_RSN`. -/
def eidRsn : UInt8 := 48

/-- `WLAN_EID_VENDOR_SPECIFIC`. -/
def eidVendor : UInt8 := 221

/-- `WLAN_OUI_MICROSOFT` and `WLAN_OUI_TYPE_MICROSOFT_WPA`. -/
def ouiWpa : Data := [0x00, 0x50, 0xf2, 1]

/-- `cfg80211_find_ie`. -/
def findIe (eid : UInt8) (ies : Data) : Option Element := (elements ies).find? (·.id = eid)

/-- `cfg80211_find_vendor_ie` for the WPA element. -/
def findWpaIe (ies : Data) : Option Element :=
  (elements ies).find? fun e => e.id = eidVendor ∧ ouiWpa.isPrefixOf e.body

/-- `get_unaligned_le16`. -/
def le16 (d : Data) (cursor : Nat) : Nat := leNat (slice d cursor (cursor + 2))

def ccmp : Data := [0x00, 0x0f, 0xac, 4]

def psk : Data := [0x00, 0x0f, 0xac, 2]

/-- `for (i = 0; i < count; ++i, cursor += 4) if (!memcmp(cursor, suite, 4)) found = true;` -/
def findSuite (body suite : Data) : Nat → Nat → Bool → Bool × Nat
  | 0, cursor, found => (found, cursor)
  | count + 1, cursor, found =>
      findSuite body suite count (cursor + 4)
        (if slice body cursor (cursor + 4) = suite then true else found)

/-- What `compatible_security` asks of the RSN element of a private network.  The cursor runs
over the body, whose end is `rsn[1]`. -/
def compatibleRsn (body : Data) : Bool :=
  let finish := body.length
  if finish < 18 then false
  else if le16 body 0 ≠ 1 ∨ slice body 2 6 ≠ ccmp then false
  else
    let count := le16 body 6
    if count = 0 ∨ count > (finish - 8) / 4 then false
    else
      let (found, cursor) := findSuite body ccmp count 8 false
      if !found ∨ finish - cursor < 2 then false
      else
        let count := le16 body cursor
        let cursor := cursor + 2
        if count = 0 ∨ count > (finish - cursor) / 4 then false
        else
          let (found, cursor) := findSuite body psk count cursor false
          -- BIT(6) of the RSN capabilities: management frame protection required.
          found && (cursor = finish ||
            (finish - cursor ≥ 2 && le16 body cursor &&& 64 = 0))

/-- `WLAN_CAPABILITY_ESS` is set. -/
def isEss (capability : UInt16) : Bool := capability &&& 1 ≠ 0

/-- `WLAN_CAPABILITY_PRIVACY` is set. -/
def isPrivate (capability : UInt16) : Bool := capability &&& 0x10 ≠ 0

/-- `compatible_security`. -/
def compatibleSecurity (ies : Data) (privacy : Bool) (capability : UInt16) : Bool :=
  let rsn := findIe eidRsn ies
  if isPrivate capability ≠ privacy then false
  else if !privacy then rsn.isNone && (findWpaIe ies).isNone
  else
    match rsn with
    | none => false
    | some rsn => compatibleRsn rsn.body

/-- The counters of the walk in `report_link`. -/
structure Seen where
  ssids : Nat
  rsns : Nat
deriving DecidableEq

/-- One turn of the walk: the SSID element stands once and is the one of the association, and
the RSN element does not stand twice. -/
def visitReport (ssid : Block) (ssidLength : UInt8) (seen : Seen) (e : Element) :
    Except Errno Seen :=
  let ssids := if e.id = eidSsid then seen.ssids + 1 else seen.ssids
  if e.id = eidSsid ∧ (ssids ≠ 1 ∨ e.body.length ≠ ssidLength.toNat ∨
      e.body.take ssidLength.toNat ≠ ssid.front ssidLength.toNat) then .error .EINVAL
  else
    let rsns := if e.id = eidRsn then seen.rsns + 1 else seen.rsns
    if e.id = eidRsn ∧ rsns > 1 then .error .EINVAL
    else .ok ⟨ssids, rsns⟩

/-- The element loop of `report_link`. -/
def walkReport (ssid : Block) (ssidLength : UInt8) (ies : Data) : Except Errno Seen :=
  walk .EINVAL (visitReport ssid ssidLength) ies ⟨0, 0⟩

/-- The element loop of `publish`, which only looks at the lengths. -/
def walkRecord (ies : Data) : Except Errno Unit := walk .EINVAL (fun _ _ => .ok ()) ies ()

theorem walkRecord_error {ies : Data} {x : Errno} (h : walkRecord ies = .error x) :
    x = .EINVAL :=
  walk_error Errno.EINVAL _ (P := fun y => y = .EINVAL) rfl (fun _ _ _ hv => by cases hv) h

end Ashacky.Wifi
