import Mathlib.Algebra.Group.Action.Defs
import Mathlib.Algebra.Order.BigOperators.Group.List
import Mathlib.Data.Nat.Log
import Ashacky.Control.Serialization
import Ashacky.Wifi.Visibility

/-!
# Wi-Fi — the text of a page

A page of a scan goes to the guest as a line of JSON, and both readers on the way take lines of fewer
than 16384 bytes.  A page has two networks at most, each with at most 4096 bytes of information
elements; but in Base64 six ones are a slash, and each slash is escaped.  So what a page takes is
`pageRoom`, by the lengths of what it says, and a byte for each group of six ones in the SSIDs and
elements.

* `length_pageText`: the size of the text.
* `page_passes_iff`: which pages come through.
* `pageRoom_le`: the room of a page with usual names and numbers.
* `page_too_long`.
-/

namespace Ashacky.Wifi
open Ashacky.Support Ashacky.Control

/-! ### The line -/

/-- What `sendJSON` writes for a page, without the newline. -/
def pageText (snapshot : Snapshot) (offset : Nat) (age : Int) : Data :=
  serialize (.obj (scanPage snapshot offset age))

/-- `while bytes.count < 16384` of `receiveJSON`, with this many turns left. -/
def receiveLine : Nat → Data → Data → Option Data
  | 0, _, _ => none
  | _ + 1, _, [] => none
  | n + 1, bytes, byte :: rest => if byte = 10 then some bytes else receiveLine n (bytes ++ [byte]) rest

/-- The line is shorter than the limit, and `receiveJSON` and `readline(16384)` take all of it. -/
def Passes (text : Data) : Prop :=
  text.length < 16384 ∧ receiveLine 16384 [] (text ++ [10]) = some text ∧
    (readline (text ++ [10])).getLast? = some 10

/-- The readers take a line exactly when there are turns for all of its bytes. -/
theorem receiveLine_iff {text : Data} (h : 10 ∉ text) {n : Nat} (bytes : Data) :
    receiveLine n bytes (text ++ [10]) = some (bytes ++ text) ↔ text.length < n := by
  induction text generalizing n bytes with
  | nil =>
      cases n with
      | zero => simp [receiveLine]
      | succ n => simp [receiveLine]
  | cons b rest ih =>
      have hb : b ≠ 10 := fun heq => h (heq ▸ List.mem_cons_self)
      have hrest : 10 ∉ rest := fun hmem => h (List.mem_cons_of_mem b hmem)
      cases n with
      | zero => simp [receiveLine]
      | succ n =>
          have hnext := ih hrest (n := n) (bytes ++ [b])
          rw [List.append_assoc] at hnext
          rw [List.cons_append, receiveLine, if_neg hb, List.length_cons, Nat.succ_lt_succ_iff]
          exact hnext

/-- A printable line passes exactly when it is shorter than the limit. -/
theorem passes_iff {text : Data} (h : Printable text) : Passes text ↔ text.length < 16384 := by
  refine ⟨fun hpass => hpass.1, fun hlt => ⟨hlt, ?_, ?_⟩⟩
  · exact (receiveLine_iff h.newline []).mpr hlt
  · rw [readline, List.take_of_length_le (by rw [List.length_append, List.length_singleton]; omega),
      List.getLast?_concat]

/-! ### The networks of a snapshot -/

/-- A network with an SSID, under its identifier. -/
structure Listed where
  id : String
  ssid : Data
  network : CWNetwork

def Listed.entry (x : Listed) : Json := scanEntry x.id x.ssid x.network

/-- The networks of `scanEntries`. -/
def listed (uuidString : Nat → String) : Nat → List CWNetwork → List Listed
  | _, [] => []
  | drawn, network :: rest =>
      match network.ssidData with
      | none => listed uuidString drawn rest
      | some ssid => ⟨uuidString drawn, ssid, network⟩ :: listed uuidString (drawn + 1) rest

/-- The entries of a scan are those of the networks that are listed. -/
theorem scanEntries_eq_map (uuidString : Nat → String) (drawn : Nat) (found : List CWNetwork) :
    scanEntries uuidString drawn found = (listed uuidString drawn found).map Listed.entry := by
  induction found generalizing drawn with
  | nil => rfl
  | cons network rest ih =>
      cases h : network.ssidData with
      | none => simp only [scanEntries, listed, h, ih]
      | some ssid => simp only [scanEntries, listed, h, ih, List.map_cons, Listed.entry]

/-- The networks that `wifi-scan` lists. -/
def scanned (uuidString : Nat → String) (drawn : Nat) (found : List CWNetwork) : List Listed :=
  listed uuidString (drawn + 1) ((found.insertionSort fun a b => a.rssiValue ≥ b.rssiValue).take 256)

/-! ### Sizes -/

/-- The room of a character in a text: some are written with a backslash, or as `\\u00..`. -/
def charRoom (c : Char) : Nat :=
  if c = '"' ∨ c = '\\' ∨ c = '/' ∨ c.toNat = 8 ∨ c.toNat = 9 ∨ c.toNat = 10 ∨ c.toNat = 12 ∨ c.toNat = 13
  then 2
  else if c.toNat < 32 then 6
  else c.utf8Size

/-- The room of a text with its quotes. -/
def textRoom (s : String) : Nat := (s.toList.map charRoom).sum + 2

/-- The room of a number: its digits, and a sign. -/
def intRoom (n : Int) : Nat := Nat.log 10 n.natAbs + 1 + if n < 0 then 1 else 0

def flagRoom (b : Bool) : Nat := if b then 4 else 5

/-- The room of bytes in Base64 with its quotes, but for the backslashes. -/
def bytesRoom (d : Data) : Nat := (d.length + 2) / 3 * 4 + 2

/-- The elements that an entry carries. -/
def Listed.elements (x : Listed) : Option Data :=
  x.network.informationElementData.filter fun data => data.length ≤ 4096

/-- The room of an entry, but for the backslashes in Base64. -/
def Listed.room (x : Listed) : Nat :=
  86 + textRoom x.id + bytesRoom x.ssid + intRoom x.network.rssiValue +
    intRoom ((x.network.wlanChannel.map (·.channelNumber)).getD 0) +
    flagRoom x.network.enterprise + flagRoom x.network.supportsNone + flagRoom x.network.personal +
    ((x.network.bssid.map fun bssid => 9 + textRoom bssid).getD 0 +
      (x.network.wlanChannel.map fun channel => 15 + intRoom channel.channelBand).getD 0 +
      (x.elements.map fun data => 29 + bytesRoom data).getD 0)

/-- The groups of six ones in the SSID and the elements of an entry. -/
def Listed.ones (x : Listed) : Nat := Base64.ones x.ssid + (x.elements.map Base64.ones).getD 0

/-- The networks of a page. -/
def paged (networks : List Listed) (offset : Nat) : List Listed := (networks.drop offset).take 2

/-- The groups of six ones in a page. -/
def pageOnes (networks : List Listed) (offset : Nat) : Nat := ((paged networks offset).map Listed.ones).sum

/-- The room of a page of a snapshot with this identifier, but for the backslashes in Base64. -/
def pageRoom (id : String) (networks : List Listed) (truncated : Bool) (offset : Nat) (age : Int) : Nat :=
  76 + textRoom id + max 1 ((paged networks offset).map fun x => x.room + 1).sum +
    intRoom networks.length + flagRoom truncated + intRoom (max 0 (60 - age)) +
    if offset + 2 < networks.length then 14 + intRoom (offset + 2) else 0

/-- An escaped character takes the room that is reckoned for it. -/
theorem length_escaped (c : Char) : (escaped c).length = charRoom c := by
  have hand : ∀ {p q : Prop} [Decidable p] [Decidable q] {a b : Nat},
      (if p then a else if q then a else b) = if p ∨ q then a else b := by
    intro p q _ _ a b
    by_cases hp : p <;> by_cases hq : q <;> simp [hp, hq]
  rw [escaped, charRoom]
  simp only [apply_ite List.length, List.length_cons, List.length_nil, List.length_append, asciiBytes,
    List.length_map, String.toList_ofList, String.length_utf8EncodeChar, hand]

theorem length_quoted (s : String) : (quoted s).length = textRoom s := by
  rw [quoted, textRoom, List.length_cons, List.length_append, List.length_singleton, List.length_flatMap]
  simp only [length_escaped]

/-- A number has one digit more than its logarithm. -/
theorem length_toDigits (n : Nat) : (Nat.toDigits 10 n).length = Nat.log 10 n + 1 := by
  have hle : ∀ k, (Nat.toDigits 10 n).length ≤ k ↔ Nat.log 10 n + 1 ≤ k := by
    intro k
    cases k with
    | zero =>
        have hpos : 0 < (Nat.toDigits 10 n).length := Nat.length_toDigits_pos
        omega
    | succ k =>
        rw [Nat.length_toDigits_le_iff (by decide) (Nat.succ_pos k), Nat.succ_le_succ_iff,
          ← Nat.lt_succ_iff]
        exact ⟨Nat.log_lt_of_lt_pow' (Nat.succ_ne_zero k), Nat.lt_pow_of_log_lt (by decide)⟩
  exact Nat.le_antisymm ((hle _).mpr (Nat.le_refl _)) ((hle _).mp (Nat.le_refl _))

/-- A number takes the room that is reckoned for it. -/
theorem length_decimal (n : Int) : (decimal n).length = intRoom n := by
  cases n with
  | ofNat n =>
      have hsign : ¬ (Int.ofNat n) < 0 := by simp
      rw [decimal, intRoom, if_neg hsign, asciiBytes, List.length_map, String.toList_ofList,
        length_toDigits]
      rfl
  | negSucc n =>
      rw [decimal, intRoom, if_pos (Int.negSucc_lt_zero n), List.length_cons, asciiBytes, List.length_map,
        String.toList_ofList, length_toDigits]
      rfl

/-- A Base64 digit takes one byte, and the slash one more. -/
theorem length_escaped_digit (n : Nat) :
    (escaped (Base64.digit n)).length = 1 + if Base64.digit n = '/' then 1 else 0 := by
  by_cases h : n < 64
  · revert n
    decide
  · have hdigit : Base64.digit n = '/' := by
      rw [Base64.digit, if_neg (by omega), if_neg (by omega), if_neg (by omega), if_neg (by omega)]
    rw [hdigit]
    decide

/-- A text in which only slashes are escaped. -/
theorem length_escaped_slashes {l : List Char}
    (h : ∀ c ∈ l, (escaped c).length = 1 + if c = '/' then 1 else 0) :
    (l.flatMap escaped).length = l.length + l.count '/' := by
  induction l with
  | nil => rfl
  | cons c l ih =>
      have hc := h c List.mem_cons_self
      have hl := ih fun x hx => h x (List.mem_cons_of_mem c hx)
      rw [List.flatMap_cons, List.length_append, hc, hl, List.length_cons, List.count_cons]
      simp only [beq_iff_eq]
      omega

/-- Escaping Base64 text adds a byte for each slash. -/
theorem length_escaped_base64 (d : Data) :
    ((Base64.encode d).flatMap escaped).length = (Base64.encode d).length + Base64.ones d := by
  rw [← Base64.count_slash_encode]
  refine length_escaped_slashes fun c hc => ?_
  obtain rfl | ⟨n, rfl⟩ := Base64.mem_encode d c hc
  · decide
  · exact length_escaped_digit n

/-- Quoted Base64 text takes its room, and a byte for each slash. -/
theorem length_quoted_base64 (d : Data) :
    (quoted (base64EncodedString d)).length = bytesRoom d + Base64.ones d := by
  rw [quoted, base64EncodedString, String.toList_ofList, List.length_cons, List.length_append,
    List.length_singleton, length_escaped_base64, Base64.length_encode, bytesRoom]
  omega

theorem length_serialize_bool (b : Bool) : (serialize (.bool b)).length = flagRoom b := by
  cases b <;> decide

theorem length_serialize_str (s : String) : (serialize (.str s)).length = textRoom s := length_quoted s

theorem length_serialize_int (n : Int) : (serialize (.int n)).length = intRoom n := length_decimal n

/-- The size of the texts of a list, with their commas. -/
theorem length_texts (networks : List Listed) :
    (serialize (.arr (networks.map Listed.entry))).length =
      1 + max 1 (networks.map fun x => (serialize x.entry).length + 1).sum := by
  cases networks with
  | nil => rfl
  | cons x rest =>
      rw [length_serialize_arr (by simp), List.map_map]
      simp only [List.map_cons, List.sum_cons, Function.comp_apply]
      rw [max_eq_right (by omega), Nat.add_comm]
      rfl

/-- A member that is there or not. -/
theorem sum_toList {α : Type} (o : Option α) (f : α → String × Json) :
    ((o.map f).toList.map memberSize).sum = (o.map fun a => memberSize (f a)).getD 0 := by
  cases o <;> simp

/-- The size of an entry. -/
theorem length_serialize_entry (x : Listed) : (serialize x.entry).length = x.room + x.ones := by
  have hkeys : (quoted "networkID").length = 11 ∧ (quoted "ssidBase64").length = 12 ∧
      (quoted "signalDBm").length = 11 ∧ (quoted "channel").length = 9 ∧
      (quoted "enterprise").length = 12 ∧ (quoted "open").length = 6 ∧
      (quoted "personal").length = 10 := by decide +kernel
  have hoptional : (quoted "bssid").length = 7 ∧ (quoted "channelBand").length = 13 ∧
      (quoted "informationElementsBase64").length = 27 := by decide +kernel
  have hbssid : ∀ bssid, memberSize ("bssid", .str bssid) = 9 + textRoom bssid := by
    intro bssid
    rw [memberSize, length_serialize_str, hoptional.1]
    omega
  have hband : ∀ channel : CWChannel,
      memberSize ("channelBand", .int channel.channelBand) = 15 + intRoom channel.channelBand := by
    intro channel
    rw [memberSize, length_serialize_int, hoptional.2.1]
    omega
  have hbytes : ∀ data, (serialize (.str (base64EncodedString data))).length =
      bytesRoom data + Base64.ones data := fun data => length_quoted_base64 data
  have helements : ∀ data, memberSize ("informationElementsBase64", .str (base64EncodedString data)) =
      29 + (bytesRoom data + Base64.ones data) := by
    intro data
    rw [memberSize, hbytes, hoptional.2.2]
    omega
  have hkept : (x.network.informationElementData.bind fun data =>
      if data.length ≤ 4096 then some ("informationElementsBase64", Json.str (base64EncodedString data))
      else none) = x.elements.map fun data =>
        ("informationElementsBase64", Json.str (base64EncodedString data)) := by
    rw [Listed.elements]
    cases x.network.informationElementData with
    | none => rfl
    | some data => by_cases h : data.length ≤ 4096 <;> simp [Option.filter, h]
  have hsum : (x.elements.map fun data => 29 + (bytesRoom data + Base64.ones data)).getD 0 =
      (x.elements.map fun data => 29 + bytesRoom data).getD 0 +
        (x.elements.map Base64.ones).getD 0 := by
    cases x.elements with
    | none => rfl
    | some data => exact (Nat.add_assoc 29 _ _).symm
  rw [Listed.entry, scanEntry, length_serialize_obj (by simp), hkept]
  simp only [List.map_append, List.sum_append, sum_toList, hbssid, hband, helements, hsum]
  simp only [List.map_cons, List.map_nil, List.sum_cons, List.sum_nil, memberSize, hkeys, hbytes,
    length_serialize_str, length_serialize_int, length_serialize_bool, Listed.room, Listed.ones]
  omega

/-- The entries of a page, wherever it begins. -/
theorem take_drop_min {α : Type} (xs : List α) (offset : Nat) :
    (xs.drop (min offset xs.length)).take
        (min (min offset xs.length + 2) xs.length - min offset xs.length) =
      (xs.drop offset).take 2 := by
  rcases Nat.le_total offset xs.length with h | h
  · rw [Nat.min_eq_left h, List.take_eq_take_iff, List.length_drop]
    omega
  · rw [Nat.min_eq_right h, List.drop_length, List.drop_of_length_le h, List.take_nil, List.take_nil]

/-- The commas and the entries of a page. -/
theorem sum_entries (page : List Listed) :
    max 1 (page.map fun x => x.room + x.ones + 1).sum =
      max 1 (page.map fun x => x.room + 1).sum + (page.map Listed.ones).sum := by
  cases page with
  | nil => rfl
  | cons x rest =>
      have hsum : ((x :: rest).map fun x => x.room + x.ones + 1).sum =
          ((x :: rest).map fun x => x.room + 1).sum + ((x :: rest).map Listed.ones).sum := by
        rw [← List.sum_map_add]
        exact congrArg List.sum (List.map_congr_left fun x _ => Nat.add_right_comm _ _ _)
      rw [hsum]
      simp only [List.map_cons, List.sum_cons]
      omega

/-- **The size of a page.** -/
theorem length_pageText (uuidString : Nat → String) (drawn : Nat) (found : List CWNetwork) (offset : Nat)
    (age : Int) :
    (pageText (wifiScan uuidString drawn found) offset age).length =
      pageRoom (uuidString drawn) (scanned uuidString drawn found) (found.length > 256) offset age +
        pageOnes (scanned uuidString drawn found) offset := by
  have hkeys : (quoted "ok").length = 4 ∧ (quoted "scanID").length = 8 ∧
      (quoted "networks").length = 10 ∧ (quoted "total").length = 7 ∧
      (quoted "truncated").length = 11 ∧ (quoted "expiresInSeconds").length = 18 := by decide +kernel
  have hkey : (quoted "nextOffset").length = 12 := by decide +kernel
  have hentries : (wifiScan uuidString drawn found).entries =
      (scanned uuidString drawn found).map Listed.entry := scanEntries_eq_map _ _ _
  have hid : (wifiScan uuidString drawn found).id = uuidString drawn := rfl
  have htruncated : (wifiScan uuidString drawn found).truncated = decide (found.length > 256) := rfl
  generalize scanned uuidString drawn found = xs at hentries ⊢
  have hnext : ((if min (min offset xs.length + 2) xs.length < xs.length then
      [("nextOffset", Json.int (min (min offset xs.length + 2) xs.length : Nat))] else []).map
        memberSize).sum =
      if offset + 2 < xs.length then 14 + intRoom (offset + 2) else 0 := by
    by_cases hmore : offset + 2 < xs.length
    · have hfinish : min (min offset xs.length + 2) xs.length = offset + 2 := by omega
      rw [hfinish, if_pos hmore, if_pos hmore]
      simp only [List.map_cons, List.map_nil, List.sum_cons, List.sum_nil, memberSize, hkey,
        length_serialize_int]
      push_cast
      omega
    · rw [if_neg (by omega), if_neg hmore]
      rfl
  have hnetworks := length_texts ((xs.drop offset).take 2)
  simp only [length_serialize_entry, sum_entries] at hnetworks
  rw [pageText, scanPage, length_serialize_obj (by simp), hentries, hid, htruncated]
  simp only [List.length_map, ← List.map_drop, ← List.map_take, take_drop_min, List.map_append,
    List.sum_append, hnext]
  simp only [List.map_cons, List.map_nil, List.sum_cons, List.sum_nil, memberSize, hkeys, hnetworks,
    length_serialize_str, length_serialize_int, length_serialize_bool, flagRoom, if_true, pageRoom,
    pageOnes, paged]
  omega

theorem printable_bool (b : Bool) : Printable (serialize (.bool b)) := by
  cases b with
  | false => exact .of_all (by decide)
  | true => exact .of_all (by decide)

theorem printable_int (n : Int) : Printable (serialize (.int n)) := printable_decimal n

/-- An entry is printable, whatever the network is called. -/
theorem printable_entry (x : Listed) : Printable (serialize x.entry) := by
  refine printable_obj fun e he => ?_
  simp only [List.mem_append, List.mem_cons, List.not_mem_nil, or_false, Option.mem_toList,
    Option.map_eq_some_iff, Option.bind_eq_some_iff] at he
  rcases he with (((rfl | rfl | rfl | rfl | rfl | rfl | rfl) | ⟨bssid, -, rfl⟩) | ⟨channel, -, rfl⟩) |
    ⟨data, -, h⟩
  · exact printable_quoted _
  · exact printable_quoted _
  · exact printable_int _
  · exact printable_int _
  · exact printable_bool _
  · exact printable_bool _
  · exact printable_bool _
  · exact printable_quoted _
  · exact printable_int _
  · obtain rfl := Option.some.inj (Option.ite_none_right_eq_some.mp h).2
    exact printable_quoted _

/-- A page is printable. -/
theorem printable_pageText (uuidString : Nat → String) (drawn : Nat) (found : List CWNetwork)
    (offset : Nat) (age : Int) : Printable (pageText (wifiScan uuidString drawn found) offset age) := by
  refine printable_obj fun e he => ?_
  rw [scanPage, List.mem_append] at he
  rcases he with he | he
  · simp only [List.mem_cons, List.not_mem_nil, or_false] at he
    rcases he with rfl | rfl | rfl | rfl | rfl | rfl
    · exact printable_bool _
    · exact printable_quoted _
    · refine printable_arr fun v hv => ?_
      have hentries : v ∈ (wifiScan uuidString drawn found).entries :=
        List.mem_of_mem_drop (List.mem_of_mem_take hv)
      rw [wifiScan, scanEntries_eq_map] at hentries
      obtain ⟨x, -, rfl⟩ := List.mem_map.mp hentries
      exact printable_entry x
    · exact printable_int _
    · exact printable_bool _
    · exact printable_int _
  · split at he
    · obtain rfl := List.mem_singleton.mp he
      exact printable_int _
    · cases he

/-- **A page passes exactly when it has few groups of six ones**: fewer than the limit leaves beside the
room of what the page says. -/
theorem page_passes_iff (uuidString : Nat → String) (drawn : Nat) (found : List CWNetwork) (offset : Nat)
    (age : Int) :
    Passes (pageText (wifiScan uuidString drawn found) offset age) ↔
      pageOnes (scanned uuidString drawn found) offset +
        pageRoom (uuidString drawn) (scanned uuidString drawn found) (found.length > 256) offset age <
      16384 := by
  rw [passes_iff (printable_pageText uuidString drawn found offset age), length_pageText, Nat.add_comm]

/-! ### Usual pages -/

/-- A network whose identifier and BSSID have the usual sizes, and whose numbers are of 64 bits. -/
structure Listed.Usual (x : Listed) : Prop where
  id : textRoom x.id ≤ 38
  ssid : x.ssid.length ≤ 32
  rssi : intRoom x.network.rssiValue ≤ 20
  channel : ∀ channel ∈ x.network.wlanChannel,
    intRoom channel.channelNumber ≤ 20 ∧ intRoom channel.channelBand ≤ 20
  bssid : ∀ bssid ∈ x.network.bssid, textRoom bssid ≤ 19

/-- A usual network takes at most 5783 bytes of a page. -/
theorem Listed.Usual.room_le {x : Listed} (U : x.Usual) : x.room ≤ 5783 := by
  have hssid : bytesRoom x.ssid ≤ 46 := by
    have := U.ssid
    rw [bytesRoom]
    omega
  have hflag : ∀ b, flagRoom b ≤ 5 := by decide
  have hchannel : intRoom ((x.network.wlanChannel.map (·.channelNumber)).getD 0) ≤ 20 ∧
      (x.network.wlanChannel.map fun channel => 15 + intRoom channel.channelBand).getD 0 ≤ 35 := by
    cases h : x.network.wlanChannel with
    | none => exact ⟨by simp [intRoom], Nat.zero_le _⟩
    | some channel =>
        obtain ⟨hnumber, hband⟩ := U.channel channel h
        exact ⟨hnumber, Nat.add_le_add_left hband 15⟩
  have hbssid : (x.network.bssid.map fun bssid => 9 + textRoom bssid).getD 0 ≤ 28 := by
    cases h : x.network.bssid with
    | none => exact Nat.zero_le _
    | some bssid => exact Nat.add_le_add_left (U.bssid bssid h) 9
  have helements : (x.elements.map fun data => 29 + bytesRoom data).getD 0 ≤ 5495 := by
    cases h : x.elements with
    | none => exact Nat.zero_le _
    | some data =>
        have hlength : data.length ≤ 4096 := of_decide_eq_true (Option.filter_eq_some_iff.mp h).2
        simp only [Option.map_some, Option.getD_some, bytesRoom]
        omega
  have hid := U.id
  have hrssi := U.rssi
  have h₁ := hflag x.network.enterprise
  have h₂ := hflag x.network.supportsNone
  have h₃ := hflag x.network.personal
  rw [Listed.room]
  omega

/-- A number below a thousand. -/
theorem intRoom_le {n : Int} (h : 0 ≤ n) (h' : n < 1000) : intRoom n ≤ 3 := by
  have hlog : Nat.log 10 n.natAbs < 3 := Nat.log_lt_of_lt_pow' (by decide) (by omega)
  rw [intRoom, if_neg (by omega)]
  omega

/-- The room of a page of usual networks: there are 4673 bytes for groups of six ones. -/
theorem pageRoom_le {id : String} {networks : List Listed} (hid : textRoom id ≤ 38)
    (hnetworks : ∀ x ∈ networks, x.Usual) (hlength : networks.length ≤ 256) (truncated : Bool) (offset : Nat)
    {age : Int} (hage : 0 ≤ age) : pageRoom id networks truncated offset age ≤ 11710 := by
  have hentries : ((paged networks offset).map fun x => x.room + 1).sum ≤ 2 * 5784 := by
    have hpage : (paged networks offset).length ≤ 2 := List.length_take_le _ _
    have hroom : ∀ n ∈ (paged networks offset).map fun x => x.room + 1, n ≤ 5784 := by
      intro n hn
      obtain ⟨x, hx, rfl⟩ := List.mem_map.mp hn
      exact Nat.succ_le_succ (hnetworks x (List.mem_of_mem_drop (List.mem_of_mem_take hx))).room_le
    calc ((paged networks offset).map fun x => x.room + 1).sum
        ≤ ((paged networks offset).map fun x => x.room + 1).length * 5784 := by
          rw [← smul_eq_mul]
          exact List.sum_le_card_nsmul _ _ hroom
      _ ≤ 2 * 5784 := Nat.mul_le_mul_right _ (by rwa [List.length_map])
  have htotal : intRoom networks.length ≤ 3 := intRoom_le (by omega) (by omega)
  have hflag : flagRoom truncated ≤ 5 := by cases truncated <;> decide
  have hrest : intRoom (max 0 (60 - age)) ≤ 3 := intRoom_le (by omega) (by omega)
  have hnext : (if offset + 2 < networks.length then 14 + intRoom (offset + 2) else 0) ≤ 17 := by
    split
    · have hoffset : intRoom (offset + 2) ≤ 3 := intRoom_le (by omega) (by omega)
      omega
    · omega
  rw [pageRoom]
  omega

/-! ### A page that is too long -/

/-- A vendor's element. -/
def vendorElement (n : Nat) : Data := 221 :: UInt8.ofNat n :: List.replicate n 255

/-- The elements of a beacon, 4096 bytes that end where an element ends. -/
def slashBeacon : Data :=
  [0, 2, 65, 80] ++ (List.replicate 15 (vendorElement 255)).flatten ++ vendorElement 235

/-- A network that sends them. -/
def slashNetwork : CWNetwork where
  ssidData := some [65, 80]
  bssid := some "02:00:00:00:00:01"
  rssiValue := -60
  wlanChannel := some ⟨1, 1⟩
  informationElementData := some slashBeacon
  enterprise := false
  supportsNone := true
  personal := false

/-- Its elements are ones for the most part. -/
theorem ones_slashBeacon : slashBeacon.length = 4096 ∧ 5000 ≤ Base64.ones slashBeacon := by
  rw [← Base64.count_slash_encode]
  decide +kernel

/-- The entries of a page take at least what each of them does. -/
theorem entries_le (id : String) {x y : Listed} {n : Nat} (hx : n ≤ x.room + x.ones)
    (hy : n ≤ y.room + y.ones) (truncated : Bool) (age : Int) :
    2 * n ≤ pageRoom id [x, y] truncated 0 age + pageOnes [x, y] 0 := by
  simp only [pageRoom, pageOnes, paged, List.drop_zero, List.take_succ_cons, List.take_zero,
    List.map_cons, List.map_nil, List.sum_cons, List.sum_nil]
  omega

/-- **A page may be too long**: two networks, each with 4096 bytes of elements. -/
theorem page_too_long :
    ¬ ∀ (uuidString : Nat → String) (drawn : Nat) (found : List CWNetwork) (offset : Nat) (age : Int),
      (∀ network ∈ found, (∀ ssid, network.ssidData = some ssid → ssid.length ≤ 32) ∧
        ∀ data, network.informationElementData = some data → data.length ≤ 4096) →
      Passes (pageText (wifiScan uuidString drawn found) offset age) := by
  intro hall
  have hlimits : ∀ network ∈ [slashNetwork, slashNetwork],
      (∀ ssid, network.ssidData = some ssid → ssid.length ≤ 32) ∧
        ∀ data, network.informationElementData = some data → data.length ≤ 4096 := by
    intro network hmem
    obtain rfl : network = slashNetwork := by simpa using hmem
    refine ⟨fun ssid hssid => ?_, fun data hdata => ?_⟩
    · cases hssid
      decide
    · obtain rfl : slashBeacon = data := Option.some.inj hdata
      exact ones_slashBeacon.1.le
  have hpasses := hall exampleUUID 0 [slashNetwork, slashNetwork] 0 0 hlimits
  have hshort := hpasses.1
  have hscanned : scanned exampleUUID 0 [slashNetwork, slashNetwork] =
      [⟨exampleUUID 1, [65, 80], slashNetwork⟩, ⟨exampleUUID 2, [65, 80], slashNetwork⟩] := rfl
  -- the elements of the two networks are too long by themselves
  have hsize : ∀ id, 10400 ≤ (Listed.mk id [65, 80] slashNetwork).room +
      (Listed.mk id [65, 80] slashNetwork).ones := by
    intro id
    have hdata : (Listed.mk id [65, 80] slashNetwork).elements = some slashBeacon := by
      simp [Listed.elements, slashNetwork, Option.filter, ones_slashBeacon.1]
    have hroom : 5400 ≤ (Listed.mk id [65, 80] slashNetwork).room := by
      simp only [Listed.room, hdata, Option.map_some, Option.getD_some, bytesRoom, ones_slashBeacon.1]
      omega
    have hones : 5000 ≤ (Listed.mk id [65, 80] slashNetwork).ones := by
      rw [Listed.ones, hdata, Option.map_some, Option.getD_some]
      exact ones_slashBeacon.2.trans (Nat.le_add_left _ _)
    exact Nat.add_le_add hroom hones
  have hpage := entries_le (exampleUUID 0) (hsize (exampleUUID 1)) (hsize (exampleUUID 2)) false 0
  have htruncated : decide ([slashNetwork, slashNetwork].length > 256) = false := rfl
  rw [length_pageText, hscanned, htruncated] at hshort
  omega

end Ashacky.Wifi
