import Ashacky.Support.Effect
import Ashacky.Wifi.Bridge
import Ashacky.Wifi.Security

/-!
# Wi-Fi — Visibility

Whether one access point can hide the others.

* `Record.unpack_pack`: the kernel reads the header that the bridge packs.
* `publish_packet`: a record of `parse_bss` is published exactly when its elements fit and its
  frequency is that of a channel of the module.
* `scan_eq_ok`: the guest reads a snapshot exactly when it is complete, every page fits into a
  line and every entry is parsed.
* `none_hidden_iff`: no access point hides another, exactly when there is none that is rejected.
-/

namespace Ashacky.Wifi
open Ashacky.Support Ashacky.Control

/-! ### A packet -/

/-- A packed record has the size of the kernel's structure. -/
@[simp] theorem Record.length_pack (r : Record) : r.pack.length = Record.size := by
  simp [Record.pack, Record.size]

/-- The fields of a header stand where the kernel reads them. -/
theorem Record.slices (r : Record) (rest : Data) :
    slice (r.pack ++ rest) 0 4 = leBytes 4 r.sequence.toNat ∧
    slice (r.pack ++ rest) 4 8 = leBytes 4 r.frequency.toNat ∧
    slice (r.pack ++ rest) 8 12 = leBytes 4 r.signal.toUInt32.toNat ∧
    slice (r.pack ++ rest) 12 14 = leBytes 2 r.capability.toNat ∧
    slice (r.pack ++ rest) 14 16 = leBytes 2 r.beaconInterval.toNat ∧
    slice (r.pack ++ rest) 16 22 = r.bssid.toList ∧
    slice (r.pack ++ rest) 22 24 = leBytes 2 r.ieLength.toNat := by
  refine ⟨?_, ?_, ?_, ?_, ?_, ?_, ?_⟩ <;>
    simp [slice, Record.pack, List.drop_append, List.drop_of_length_le]

/-- The header is read back from the front of a packet. -/
theorem Record.unpack_pack (r : Record) (rest : Data) : Record.unpack (r.pack ++ rest) = r := by
  obtain ⟨h₁, h₂, h₃, h₄, h₅, h₆, h₇⟩ := r.slices rest
  have hbssid : (Vector.ofFn fun i : Fin 6 => r.bssid.toList.getD i 0) = r.bssid := by
    ext i hi
    simp
  rw [Record.unpack, h₁, h₂, h₃, h₄, h₅, h₆, h₇, hbssid]
  simp only [leNat_leBytes_uint32, leNat_leBytes_uint16, Int32.toInt32_toUInt32]

/-- The scan with this number is pending. -/
def Current (number : UInt32) (p : Priv) : Prop := p.scan.isSome ∧ p.sequence = number

/-- The kernel's `publish` accepts the record, whenever the scan is pending. -/
def Publishes (K : Kernel) (number : UInt32) (bss : BSS) : Prop :=
  ∀ p, Current number p →
    (p.publish true true (bss.packet number) (K.informs (bss.packet number))).1.result =
      .ok (.count (bss.packet number).length)

/-- What `publish` asks of a record of `parse_bss`: at most 4096 bytes of elements, with the SSID
among them, the frequency of a channel, and a BSS from `cfg80211_inform_bss`. -/
def Fits (K : Kernel) (number : UInt32) (bss : BSS) : Prop :=
  bss.informationElements.length ≤ 4096 ∧
    (getChannel (UInt32.ofNat bss.frequencyMhz)).isSome ∧ K.informs (bss.packet number)

/-- A signal in range survives its 32 bits. -/
theorem toInt_ofInt_signal {n : Int} (h : -12700 ≤ n) (h' : n ≤ 0) : (Int32.ofInt n).toInt = n := by
  apply Int32.toInt_ofInt_of_le
  · have hmin : Int32.minValue.toInt = -2147483648 := rfl
    omega
  · have hmax : Int32.maxValue.toInt = 2147483647 := rfl
    omega

/-- A record of `parse_bss` grows by at most the SSID element. -/
theorem parseBss_length {isUUID : String → Bool} {entry : Json} {bss : BSS}
    (h : parseBss isUUID entry = .ok bss) : bss.informationElements.length ≤ 4130 := by
  obtain ⟨hssid, -, -, -, ⟨ies, hlength, hies⟩, -⟩ := parseBss_eq_ok h
  obtain ⟨seen, -, hout⟩ := except_bind_eq_ok.mp hies
  rw [← Except.ok.inj hout]
  cases seen
  · simp [ssidElement]
    omega
  · simp
    omega

/-- **Publishing.**  The kernel takes a record of `parse_bss` for the pending scan exactly when it
fits, and the driver's state is not changed. -/
theorem publish_packet {K : Kernel} {number : UInt32} {isUUID : String → Bool} {entry : Json}
    {bss : BSS} (h : parseBss isUUID entry = .ok bss) {p : Priv} (hp : Current number p) :
    (p.publish true true (bss.packet number) (K.informs (bss.packet number))).2 = p ∧
    ((p.publish true true (bss.packet number) (K.informs (bss.packet number))).1.result =
        .ok (.count (bss.packet number).length) ∧ Fits K number bss ∨
      (∃ e, (p.publish true true (bss.packet number) (K.informs (bss.packet number))).1.result =
        .error e) ∧ ¬Fits K number bss) := by
  obtain ⟨-, hvalid, hlow, hhigh, -, -⟩ := parseBss_eq_ok h
  obtain ⟨es, hes, -⟩ := parseBss_elements h
  have hlength := parseBss_length h
  have hsize : (bss.packet number).length = Record.size + bss.informationElements.length := by
    simp [BSS.packet]
  have hrecord : Record.unpack (bss.packet number) = bss.header number := Record.unpack_pack _ _
  have hbody : (bss.packet number).drop Record.size = bss.informationElements := by
    rw [BSS.packet, ← (bss.header number).length_pack, List.drop_left]
  have hie : (bss.header number).ieLength.toNat = bss.informationElements.length := by
    show (UInt16.ofNat _).toNat = _
    rw [UInt16.toNat_ofNat', Nat.mod_eq_of_lt (by omega)]
  have hsignal : (bss.header number).signal.toInt = bss.signalMbm := toInt_ofInt_signal hlow hhigh
  -- `parse_bss` has walked the same elements.
  have hwalk : walkRecord bss.informationElements = .ok () := by
    rw [walkRecord, hes, walk_flatMap]
    clear hes
    induction es with
    | nil => rfl
    | cons e es ih => exact ih
  have hcurrent : ¬(p.scan.isNone ∨ p.sequence ≠ (bss.header number).sequence) := by
    have hne : p.scan.isNone = false := by simpa using hp.1
    simp [hne, hp.2, BSS.header]
  unfold Priv.publish
  simp only [Bool.not_true, Bool.false_eq_true, if_false, hrecord, hbody, hwalk]
  by_cases hlong : bss.informationElements.length > 4096
  · rw [if_pos (.inr (by omega))]
    exact ⟨rfl, .inr ⟨⟨_, rfl⟩, fun hfits => absurd hfits.1 (by omega)⟩⟩
  rw [if_neg (by omega), if_neg, if_neg hcurrent]
  · cases hchannel : getChannel (bss.header number).frequency with
    | none =>
        refine ⟨rfl, .inr ⟨⟨_, rfl⟩, fun hfits => ?_⟩⟩
        have hsome := hfits.2.1
        rw [show UInt32.ofNat bss.frequencyMhz = (bss.header number).frequency from rfl,
          hchannel] at hsome
        cases hsome
    | some channel =>
        cases hinforms : K.informs (bss.packet number) with
        | false =>
            exact ⟨rfl, .inr ⟨⟨_, rfl⟩, fun hfits => absurd hfits.2.2 (by simp [hinforms])⟩⟩
        | true =>
            exact ⟨rfl, .inl ⟨rfl, by omega, Option.isSome_of_eq_some hchannel, hinforms⟩⟩
  · simp only [hie, hsize, hsignal, ne_eq, not_true, false_or, not_or]
    have hunicast : (bss.header number).bssid.isValid := hvalid
    exact ⟨by simp [hunicast], by omega, by omega⟩

/-- A record of `parse_bss` is accepted on its own when it fits. -/
theorem publishes_of_fits {K : Kernel} {number : UInt32} {isUUID : String → Bool} {entry : Json}
    {bss : BSS} (h : parseBss isUUID entry = .ok bss) (hfits : Fits K number bss) :
    Publishes K number bss := by
  intro p hp
  rcases (publish_packet (K := K) h hp).2 with ⟨hresult, -⟩ | ⟨-, hnot⟩
  · exact hresult
  · exact absurd hfits hnot

/-! ### The pages of a snapshot -/

section Pages
variable (snapshot : Snapshot) (offset : Nat) (age : Int)

/-- A page says that it is fine. -/
theorem lookup_ok : (scanPage snapshot offset age).lookup "ok" = some (.bool true) := by
  simp [scanPage]

/-- A page carries the identifier of its scan. -/
theorem lookup_scanID :
    (scanPage snapshot offset age).lookup "scanID" = some (.str snapshot.id) := by
  simp [scanPage, List.lookup_cons]

/-- A page says how many entries the scan has. -/
theorem lookup_total :
    (scanPage snapshot offset age).lookup "total" = some (.int snapshot.entries.length) := by
  simp [scanPage, List.lookup_cons]

/-- A page says whether entries were left out. -/
theorem lookup_truncated :
    (scanPage snapshot offset age).lookup "truncated" = some (.bool snapshot.truncated) := by
  simp [scanPage, List.lookup_cons]

/-- The entries of a page: two, or what is left. -/
theorem lookup_networks (h : offset ≤ snapshot.entries.length) :
    (scanPage snapshot offset age).lookup "networks" =
      some (.arr ((snapshot.entries.drop offset).take 2)) := by
  have hstart : min offset snapshot.entries.length = offset := Nat.min_eq_left h
  have htake : (snapshot.entries.drop offset).take
      (min (offset + 2) snapshot.entries.length - offset) =
      (snapshot.entries.drop offset).take 2 := by
    rw [List.take_eq_take_iff, List.length_drop]
    omega
  simp [scanPage, List.lookup_cons, hstart, htake]

/-- A page names the next offset while entries are left. -/
theorem lookup_nextOffset (h : offset ≤ snapshot.entries.length) :
    (scanPage snapshot offset age).lookup "nextOffset" =
      if offset + 2 < snapshot.entries.length then some (.int (offset + 2)) else none := by
  have hstart : min offset snapshot.entries.length = offset := Nat.min_eq_left h
  by_cases hmore : offset + 2 < snapshot.entries.length
  · have hfinish : min (offset + 2) snapshot.entries.length = offset + 2 := by omega
    simp [scanPage, List.lookup_cons, hstart, hfinish, hmore]
  · have hfinish : min (offset + 2) snapshot.entries.length = snapshot.entries.length := by omega
    simp [scanPage, List.lookup_cons, hstart, hfinish, hmore]

end Pages

/-- The line of a page is not longer than what the guest reads. -/
def Short (W : Wire) (page : Object) : Prop := (W.text page).length < 16384

/-- A page comes through exactly when it is short. -/
theorem rpc_eq_ok {P : Python} {W : Wire} {snapshot : Snapshot} {offset : Nat} {age : Int}
    (hreads : W.Reads (scanPage snapshot offset age)) {reply : Object} :
    rpc P W (scanPage snapshot offset age) = .ok reply ↔
      Short W (scanPage snapshot offset age) ∧ reply = scanPage snapshot offset age := by
  by_cases hshort : Short W (scanPage snapshot offset age)
  · have hline : readline (W.text (scanPage snapshot offset age) ++ [10]) =
        W.text (scanPage snapshot offset age) ++ [10] := by
      apply List.take_of_length_le
      simpa using Nat.succ_le_of_lt hshort
    have hrpc : rpc P W (scanPage snapshot offset age) = .ok (scanPage snapshot offset age) := by
      have hloads : W.loads (W.text (scanPage snapshot offset age) ++ [10]) =
          some (scanPage snapshot offset age) := hreads
      simp [rpc, hline, hloads, lookup_ok, Python.truthy]
    rw [hrpc]
    simp [hshort, eq_comm]
  · have hlast : (readline (W.text (scanPage snapshot offset age) ++ [10])).getLast? ≠ some 10 := by
      intro h
      rw [readline, List.take_append_of_le_length (Nat.le_of_not_lt hshort)] at h
      exact W.line _ (List.mem_of_mem_take (List.mem_of_getLast? h))
    simp [rpc, hlast, hshort]

section Reading
variable {P : Python} {W : Wire} {snapshot : Snapshot} {age : Nat → Int}

/-- The checks of a page of the snapshot pass. -/
theorem pageEntries_scanPage {offset : Nat} (h : offset ≤ snapshot.entries.length) (age : Int) :
    pageEntries P snapshot.id snapshot.entries.length (scanPage snapshot offset age) =
      .ok ((snapshot.entries.drop offset).take 2) := by
  have hlength : ¬((snapshot.entries.drop offset).take 2).length > 2 := by
    rw [List.length_take]
    omega
  simp only [pageEntries, item, lookup_scanID, lookup_total, lookup_networks _ _ _ h]
  simp [except_bind_eq_ok, Python.equals]

/-- From a page on, the loop ends with the records of all later entries, exactly when each of
them is parsed and each later page comes through. -/
theorem scanLoop_eq_ok
    (hreads : ∀ k, 2 * k < snapshot.entries.length → W.Reads (scanPage snapshot (2 * k) (age (2 * k))))
    {fuel k : Nat} (hk : 2 * k ≤ snapshot.entries.length)
    (hfuel : snapshot.entries.length < fuel + 2 * k) {records out : List BSS} :
    scanLoop P (askHost P W snapshot age) snapshot.id snapshot.entries.length fuel
        (scanPage snapshot (2 * k) (age (2 * k))) (2 * k) records = .ok out ↔
      (∀ j, k < j → 2 * j < snapshot.entries.length →
        Short W (scanPage snapshot (2 * j) (age (2 * j)))) ∧
      ∃ rs, (snapshot.entries.drop (2 * k)).mapM (parseBss P.isUUID) = .ok rs ∧
        out = records ++ rs := by
  induction fuel generalizing k records with
  | zero => omega
  | succ fuel ih =>
      rw [scanLoop, lookup_nextOffset _ _ _ hk]
      simp only [except_bind_eq_ok, pageEntries_scanPage hk, Except.ok.injEq, exists_eq_left']
      by_cases hmore : 2 * k + 2 < snapshot.entries.length
      · -- A full page: the host names the next one, and the guest asks for it.
        have htwo : ((snapshot.entries.drop (2 * k)).take 2).length = 2 := by
          rw [List.length_take, List.length_drop]
          omega
        have hnonempty : ((snapshot.entries.drop (2 * k)).take 2).isEmpty = false := by
          rw [List.isEmpty_eq_false_iff_exists_mem]
          exact List.exists_mem_of_length_pos (by omega)
        have hsplit : ∀ {rs}, (snapshot.entries.drop (2 * k)).mapM (parseBss P.isUUID) = .ok rs ↔
            ∃ us, ((snapshot.entries.drop (2 * k)).take 2).mapM (parseBss P.isUUID) = .ok us ∧
            ∃ vs, (snapshot.entries.drop (2 * (k + 1))).mapM (parseBss P.isUUID) = .ok vs ∧
              rs = us ++ vs := by
          intro rs
          rw [← mapM_append_eq_ok, show 2 * (k + 1) = 2 * k + 2 by omega, ← List.drop_drop,
            List.take_append_drop]
        have hnext := fun records' => @ih (k + 1) (by omega) (by omega) records'
        have hrpc := fun reply => @rpc_eq_ok P W _ _ _ (hreads (k + 1) (by omega)) reply
        have hguard : ¬(((2 * k : Nat) : Int) + 2 ≠ (2 * k + 2 : Nat) ∨
            (false : Bool) = true ∨ ((2 * k : Nat) : Int) + 2 ≥ snapshot.entries.length) := by
          simp only [Bool.false_eq_true, false_or, not_or, not_not]
          omega
        simp only [hmore, if_true, htwo, hnonempty, if_neg hguard]
        simp only [except_bind_eq_ok, askHost, show 2 * k + 2 = 2 * (k + 1) by omega, hrpc,
          and_assoc, exists_and_left, exists_eq_left, hnext, hsplit]
        constructor
        · rintro ⟨rs, hrs, hshort, hshorts, rs', hrs', rfl⟩
          refine ⟨fun j hj hlt => ?_, rs ++ rs', ⟨rs, hrs, rs', hrs', rfl⟩, by simp⟩
          obtain rfl | hne := eq_or_ne j (k + 1)
          · exact hshort
          · exact hshorts j (by omega) hlt
        · rintro ⟨hshorts, _, ⟨rs, hrs, rs', hrs', rfl⟩, rfl⟩
          exact ⟨rs, hrs, hshorts (k + 1) (by omega) (by omega),
            fun j hj => hshorts j (by omega), rs', hrs', by simp⟩
      · -- The last page: what is left of the snapshot.
        have hlast : (snapshot.entries.drop (2 * k)).take 2 = snapshot.entries.drop (2 * k) := by
          apply List.take_of_length_le
          rw [List.length_drop]
          omega
        have htotal : 2 * k + (snapshot.entries.drop (2 * k)).length = snapshot.entries.length := by
          rw [List.length_drop]
          omega
        simp only [hlast, hmore, if_false, htotal, ne_eq, not_true]
        constructor
        · rintro ⟨rs, hrs, hout⟩
          exact ⟨fun j hj hlt => by omega, rs, hrs, (Except.ok.inj hout).symm⟩
        · rintro ⟨-, rs, hrs, rfl⟩
          exact ⟨rs, hrs, rfl⟩
/-- The size of the snapshot is taken when the host found no more than 256 networks. -/
theorem scanSize_eq_ok {offset : Nat} {age total : Int} :
    scanSize P (scanPage snapshot offset age) = .ok total ↔
      snapshot.entries.length ≤ 256 ∧ snapshot.truncated = false ∧
        total = snapshot.entries.length := by
  simp only [scanSize, item, lookup_total, lookup_truncated, except_bind_eq_ok, Except.ok.injEq,
    exists_eq_left', Option.any_some, Python.truthy]
  split_ifs with h
  · simp only [Except.ok.injEq, @eq_comm _ total]
    exact ⟨fun heq => ⟨by omega, by simpa using h.2.2, heq⟩, fun hall => hall.2.2⟩
  · refine ⟨nofun, fun hall => absurd ⟨by omega, by omega, by simp [hall.2.1]⟩ h⟩

/-- **Reading.**  The guest gets a record for each entry of the snapshot, exactly when the snapshot
is complete, each page comes through and each entry is parsed. -/
theorem scan_eq_ok (huuid : P.isUUID snapshot.id)
    (hreads : ∀ k, 2 * k < max 1 snapshot.entries.length →
      W.Reads (scanPage snapshot (2 * k) (age (2 * k)))) {out : List BSS} :
    scan P (askHost P W snapshot age) = .ok out ↔
      snapshot.entries.length ≤ 256 ∧ snapshot.truncated = false ∧
      (∀ k, 2 * k < max 1 snapshot.entries.length →
        Short W (scanPage snapshot (2 * k) (age (2 * k)))) ∧
      snapshot.entries.map (parseBss P.isUUID) = out.map .ok := by
  have hpage := fun reply => @rpc_eq_ok P W snapshot 0 (age 0) (hreads 0 (by omega)) reply
  have hid : ∀ {id}, checkUUID P.isUUID (.str snapshot.id) = .ok id ↔ id = snapshot.id := by
    simp [checkUUID, huuid, eq_comm]
  have hloop := @scanLoop_eq_ok P W snapshot age (fun k hk => hreads k (by omega))
    (snapshot.entries.length + 1) 0 (by omega) (by omega) [] out
  simp only [Nat.mul_zero, List.drop_zero, List.nil_append, mapM_eq_ok, exists_eq_right'] at hloop
  rw [scan]
  simp only [except_bind_eq_ok, askHost, hpage, and_assoc, exists_and_left, exists_eq_left, item,
    lookup_scanID, Except.ok.injEq, exists_eq_left', hid, scanSize_eq_ok, Int.toNat_natCast, hloop]
  constructor
  · rintro ⟨hfirst, hcount, hcomplete, hlater, hparsed⟩
    refine ⟨hcount, hcomplete, fun k hk => ?_, hparsed⟩
    cases k with
    | zero => exact hfirst
    | succ k => exact hlater (k + 1) (by omega) (by omega)
  · rintro ⟨hcount, hcomplete, hshort, hparsed⟩
    exact ⟨hshort 0 (by omega), hcount, hcomplete, fun k _ hk => hshort k (by omega), hparsed⟩

end Reading

/-! ### The records and the end of the scan -/

section Serving
variable {K : Kernel} {number : UInt32}

/-- **Writing.**  While the scan stays pending, all records of `parse_bss` are published, or one
of them does not fit and the bridge raises. -/
theorem writeRecords_spec {isUUID : String → Bool}
    (hbetween : ∀ n p, Current number p → Current number (K.between n p)) {records : List BSS}
    (hrecords : ∀ bss ∈ records, ∃ entry, parseBss isUUID entry = .ok bss) {calls : Nat} {p : Priv}
    (hp : Current number p) :
    Current number (writeRecords K number records calls p).state ∧
    ((writeRecords K number records calls p).raised = none ∧
        (writeRecords K number records calls p).published = records ∧
        (∀ bss ∈ records, Fits K number bss) ∨
      (writeRecords K number records calls p).raised.isSome ∧
        ∃ bss ∈ records, ¬Fits K number bss) := by
  induction records generalizing calls p with
  | nil => exact ⟨hp, .inl ⟨rfl, rfl, nofun⟩⟩
  | cons bss rest ih =>
      obtain ⟨entry, hentry⟩ := hrecords bss (by simp)
      have hq := hbetween calls p hp
      obtain ⟨hstate, hpublished⟩ := publish_packet (K := K) hentry hq
      have hrest : ∀ bss ∈ rest, ∃ entry, parseBss isUUID entry = .ok bss :=
        fun bss hbss => hrecords bss (List.mem_cons_of_mem _ hbss)
      obtain ⟨hw, hend⟩ := @ih hrest (calls + 1) _ hq
      rw [writeRecords]
      rcases hpublished with ⟨hresult, hfits⟩ | ⟨⟨e, hresult⟩, hfits⟩
      · simp only [hresult, hstate, ne_eq, not_true, if_false]
        refine ⟨hw, ?_⟩
        rcases hend with ⟨hraised, hall, hfit⟩ | ⟨hraised, bad, hbad, hnot⟩
        · exact .inl ⟨hraised, by rw [hall], by simpa [hfits] using hfit⟩
        · exact .inr ⟨hraised, bad, by simp [hbad], hnot⟩
      · simp only [hresult, hstate]
        exact ⟨hq, .inr ⟨rfl, bss, by simp, hfits⟩⟩

/-- The pending scan is completed, in either way. -/
theorem completes_eq_true {p : Priv} (hp : Current number p) (abort : Bool) :
    completes p number abort = true := by
  have hpending : ¬(p.scan.isNone ∨ number ≠ p.sequence) := by
    have hne : p.scan.isNone = false := by simpa using hp.1
    simp [hne, hp.2]
  rw [completes, Priv.completeScan, if_neg hpending]

/-- The networks without an SSID are left out of the snapshot. -/
theorem length_scanEntries_le (uuidString : Nat → String) (drawn : Nat) (found : List CWNetwork) :
    (scanEntries uuidString drawn found).length ≤ found.length := by
  induction found generalizing drawn with
  | nil => simp [scanEntries]
  | cons network rest ih =>
      cases hssid : network.ssidData with
      | none =>
          simp only [scanEntries, hssid, List.length_cons]
          exact (ih drawn).trans (Nat.le_succ _)
      | some ssid =>
          simp only [scanEntries, hssid, List.length_cons]
          exact Nat.succ_le_succ (ih (drawn + 1))

/-- What the bridge makes of the records it read: it finishes the scan when all of them fit. -/
theorem serveScan_of_ok {P : Python} {ask : Request → Except Raised Object}
    (hbetween : ∀ n p, Current number p → Current number (K.between n p)) {records : List BSS}
    (hrecords : ∀ bss ∈ records, ∃ entry, parseBss P.isUUID entry = .ok bss)
    (hscan : scan P ask = .ok records) {p : Priv} (hp : Current number p) :
    (∀ bss ∈ records, Fits K number bss) ∧ serveScan P K ask number p = ⟨records, true, false⟩ ∨
    (∃ bss ∈ records, ¬Fits K number bss) ∧ (serveScan P K ask number p).finished = false := by
  obtain ⟨hcurrent, hend⟩ := @writeRecords_spec K number _ hbetween _ hrecords 0 p hp
  rw [serveScan, hscan]
  rcases hend with ⟨hraised, hpublished, hfits⟩ | ⟨hraised, hbad⟩
  · have hfinish := completes_eq_true
      (hbetween (writeRecords K number records 0 p).calls _ hcurrent) false
    refine .inl ⟨hfits, ?_⟩
    simp only [hraised, Option.isSome_none, Bool.false_eq_true, if_false, hfinish, if_true,
      hpublished]
  · refine .inr ⟨hbad, ?_⟩
    simp only [hraised, if_true, abortServed]

/-- **No access point hides another**, when the bridge serves the pending scan, exactly when the
host found no more networks than it can hand out, each page comes through, and there is no entry
that `parse_bss` or the kernel rejects. -/
theorem none_hidden_iff (P : Python) (W : Wire) (K : Kernel) (uuidString : Nat → String)
    (huuid : ∀ n, P.isUUID (uuidString n)) (drawn : Nat) (found : List CWNetwork)
    (age : Nat → Int)
    (hreads : ∀ k, 2 * k < max 1 (wifiScan uuidString drawn found).entries.length →
      W.Reads (scanPage (wifiScan uuidString drawn found) (2 * k) (age (2 * k))))
    (number : UInt32) (hbetween : ∀ n p, Current number p → Current number (K.between n p))
    (p : Priv) (hp : Current number p) :
    let snapshot := wifiScan uuidString drawn found
    let served := serveScan P K (askHost P W snapshot age) number p
    ((∀ entry ∈ snapshot.entries, ∀ bss, parseBss P.isUUID entry = .ok bss →
        Publishes K number bss → bss ∈ served.published) ∧
      served.finished = true ∧ served.aborted = false) ↔
    found.length ≤ 256 ∧
      (∀ k, 2 * k < max 1 snapshot.entries.length →
        Short W (scanPage snapshot (2 * k) (age (2 * k)))) ∧
      ∀ entry ∈ snapshot.entries, ∃ bss, parseBss P.isUUID entry = .ok bss ∧
        Fits K number bss := by
  intro snapshot served
  have hscan := fun out => @scan_eq_ok P W snapshot age (huuid drawn) hreads out
  have htruncated : snapshot.truncated = false ↔ found.length ≤ 256 := by
    show decide (found.length > 256) = false ↔ _
    rw [decide_eq_false_iff_not, Nat.not_lt]
  have hlength : snapshot.entries.length ≤ 256 := by
    refine (length_scanEntries_le _ _ _).trans ?_
    rw [List.length_take]
    omega
  have hrecords : ∀ {records : List BSS}, snapshot.entries.map (parseBss P.isUUID) = records.map .ok →
      ∀ bss ∈ records, ∃ entry, parseBss P.isUUID entry = .ok bss := by
    intro records hparsed bss hbss
    obtain ⟨entry, -, heq⟩ := (mem_of_map_eq_ok hparsed).mp hbss
    exact ⟨entry, heq⟩
  constructor
  -- A scan that is finished has got all pages, and the kernel has taken every record.
  · rintro ⟨-, hfinished, -⟩
    cases hresult : scan P (askHost P W snapshot age) with
    | error e => simp [served, serveScan, hresult, abortServed] at hfinished
    | ok records =>
        obtain ⟨-, hcomplete, hshort, hparsed⟩ := (hscan records).mp hresult
        rcases serveScan_of_ok hbetween (hrecords hparsed) hresult hp with
          ⟨hfits, -⟩ | ⟨-, hunfinished⟩
        · refine ⟨htruncated.mp hcomplete, hshort, fun entry hentry => ?_⟩
          obtain ⟨bss, hbss, heq⟩ := List.mem_map.mp (hparsed ▸ List.mem_map_of_mem hentry)
          exact ⟨bss, heq.symm, hfits bss hbss⟩
        · exact absurd hfinished (by simp [served, hunfinished])
  -- With nothing to reject, the scan returns all records and each is published.
  · rintro ⟨hcount, hshort, haccepted⟩
    obtain ⟨records, hparsed⟩ := exists_map_eq_ok
      fun entry hentry => (haccepted entry hentry).imp fun bss h => h.1
    have hresult := (hscan records).mpr ⟨hlength, htruncated.mpr hcount, hshort, hparsed⟩
    rcases serveScan_of_ok hbetween (hrecords hparsed) hresult hp with
      ⟨-, hserved⟩ | ⟨⟨bss, hbss, hnot⟩, -⟩
    · rw [show served = ⟨records, true, false⟩ from hserved]
      refine ⟨fun entry hentry bss hbss _ => ?_, rfl, rfl⟩
      exact (mem_of_map_eq_ok hparsed).mpr ⟨entry, hentry, hbss⟩
    · obtain ⟨entry, hentry, heq⟩ := (mem_of_map_eq_ok hparsed).mp hbss
      obtain ⟨bss', heq', hfits⟩ := haccepted entry hentry
      rw [heq] at heq'
      cases heq'
      exact absurd hfits hnot

end Serving

/-! ### Two access points -/

/-- Three UUIDs: that of a scan, and those of its networks. -/
def exampleUUID : Nat → String
  | 0 => "00000000-0000-4000-8000-000000000000"
  | 1 => "00000000-0000-4000-8000-000000000001"
  | _ => "00000000-0000-4000-8000-000000000002"

def examplePython : Python := ⟨fun s => s.length = 36, fun _ _ => false⟩

def exampleKernel : Kernel := ⟨fun _ p => p, fun _ => true⟩

/-- The driver with its first scan pending. -/
def examplePending : Priv := ((Priv.init none).startScan 250 7 0).2

/-- An open network on a channel of the 2.4 GHz band. -/
def exampleNetwork : CWNetwork where
  ssidData := some [65]
  bssid := some "02:00:00:00:00:01"
  rssiValue := -60
  wlanChannel := some ⟨1, 1⟩
  informationElementData := some [0, 1, 65]
  enterprise := false
  supportsNone := true
  personal := false

/-- A nearer one on a channel of the 6 GHz band. -/
def sixGHzNetwork : CWNetwork where
  ssidData := some [66]
  bssid := some "02:00:00:00:00:02"
  rssiValue := -30
  wlanChannel := some ⟨5, 3⟩
  informationElementData := some [0, 1, 66]
  enterprise := false
  supportsNone := true
  personal := false

/-- The bytes of a text in ASCII. -/
def ascii (s : String) : Data := s.toList.map fun c => UInt8.ofNat c.toNat

/-- The bytes of an ASCII text are the codes of its characters. -/
theorem ascii_ofList (l : List Char) :
    ascii (String.ofList l) = l.map fun c => UInt8.ofNat c.toNat := by
  rw [ascii, String.toList_ofList]

/-- A short part of a line. -/
def IsPart (s : String) : Prop := 10 ∉ ascii s ∧ (ascii s).length ≤ 90

/-- A line of short parts is short. -/
theorem length_parts_le {parts : List String} (h : ∀ s ∈ parts, IsPart s) :
    (parts.flatMap ascii).length ≤ 90 * parts.length := by
  induction parts with
  | nil => simp
  | cons s parts ih =>
      have hs := (h s (by simp)).2
      have hrest := ih fun s' hs' => h s' (List.mem_cons_of_mem _ hs')
      rw [List.flatMap_cons, List.length_append, List.length_cons]
      omega

/-- A wire with one page on it. -/
def pageWire (parts : List String) (h : ∀ s ∈ parts, IsPart s) (page : Object) : Wire where
  text _ := parts.flatMap ascii
  loads line := if line = parts.flatMap ascii ++ [10] then some page else none
  line _ := by
    rw [List.mem_flatMap]
    rintro ⟨s, hs, hmem⟩
    exact (h s hs).1 hmem

/-- The wire made of parts reads as the page. -/
theorem pageWire_reads (parts : List String) (h : ∀ s ∈ parts, IsPart s) (page : Object) :
    (pageWire parts h page).Reads page := if_pos rfl

/-- The text of the page with both networks, the nearer one first. -/
def bothParts : List String :=
  ["\x7b\"ok\":true,\"scanID\":\"00000000-0000-4000-8000-000000000000\",\"networks\":[",
    "\x7b\"networkID\":\"00000000-0000-4000-8000-000000000001\",\"ssidBase64\":\"Qg==\",",
    "\"signalDBm\":-30,\"channel\":5,\"enterprise\":false,\"open\":true,\"personal\":false,",
    "\"bssid\":\"02:00:00:00:00:02\",\"channelBand\":3,",
    "\"informationElementsBase64\":\"AAFC\"\x7d,",
    "\x7b\"networkID\":\"00000000-0000-4000-8000-000000000002\",\"ssidBase64\":\"QQ==\",",
    "\"signalDBm\":-60,\"channel\":1,\"enterprise\":false,\"open\":true,\"personal\":false,",
    "\"bssid\":\"02:00:00:00:00:01\",\"channelBand\":1,",
    "\"informationElementsBase64\":\"AAFB\"\x7d],",
    "\"total\":2,\"truncated\":false,\"expiresInSeconds\":60\x7d"]

/-- The parts of the sample with two networks are parts. -/
theorem isPart_bothParts : ∀ s ∈ bothParts, IsPart s := by
  simp only [bothParts, List.forall_mem_cons]
  refine ⟨?_, ?_, ?_, ?_, ?_, ?_, ?_, ?_, ?_, ?_, nofun⟩ <;>
  · rw [IsPart, ascii_ofList]
    decide +kernel

/-- The scan that finds both. -/
def bothSnapshot : Snapshot := wifiScan exampleUUID 0 [exampleNetwork, sixGHzNetwork]

/-- What the bridge makes of it. -/
def bothServed : Served :=
  serveScan examplePython exampleKernel (askHost examplePython
    (pageWire bothParts isPart_bothParts (scanPage bothSnapshot 0 0)) bothSnapshot fun _ => 0) 1
    examplePending

def nearRecord : BSS where
  networkId := "00000000-0000-4000-8000-000000000001"
  ssid := [66]
  bssid := secondBssid
  frequencyMhz := 5975
  signalMbm := -3000
  informationElements := [0, 1, 66]
  isOpen := true

def farRecord : BSS where
  networkId := "00000000-0000-4000-8000-000000000002"
  ssid := [65]
  bssid := firstBssid
  frequencyMhz := 2412
  signalMbm := -6000
  informationElements := [0, 1, 65]
  isOpen := true

/-- The two networks of the sample parse. -/
theorem bothSnapshot_parsed :
    bothSnapshot.entries.map (parseBss examplePython.isUUID) =
      [nearRecord, farRecord].map .ok := rfl

/-- The sample scan publishes both networks, hides none and is finished. -/
theorem bothServed_eq : bothServed = ⟨[], false, true⟩ := by
  have hscan : scan examplePython (askHost examplePython
      (pageWire bothParts isPart_bothParts (scanPage bothSnapshot 0 0)) bothSnapshot fun _ => 0) =
      .ok [nearRecord, farRecord] := by
    have hcount : bothSnapshot.entries.length = 2 := rfl
    have hparts : bothParts.length = 10 := rfl
    have hshort := length_parts_le isPart_bothParts
    refine (scan_eq_ok (by decide) fun k hk => ?_).mpr
      ⟨by omega, rfl, fun k hk => hshort.trans_lt (by omega), bothSnapshot_parsed⟩
    obtain rfl : k = 0 := by omega
    exact pageWire_reads _ _ _
  rw [bothServed, serveScan, hscan]
  rfl

/-- The guest has a frequency for the 6 GHz network and the kernel no channel: its record is refused,
the scan is aborted, and the record after it, which the kernel would take, is not published. -/
theorem sixGHz_hides_other :
    Current 1 examplePending ∧
    (∃ entry ∈ bothSnapshot.entries, ∃ bss, parseBss examplePython.isUUID entry = .ok bss ∧
      Publishes exampleKernel 1 bss ∧ bss ∉ bothServed.published) ∧
    bothServed.finished = false ∧ bothServed.aborted = true := by
  have hmem : farRecord ∈ [nearRecord, farRecord] := by simp
  obtain ⟨entry, hentry, hparsed⟩ := (mem_of_map_eq_ok bothSnapshot_parsed).mp hmem
  have hfits : Fits exampleKernel 1 farRecord := ⟨by decide, by decide, rfl⟩
  rw [bothServed_eq]
  exact ⟨⟨rfl, rfl⟩, ⟨entry, hentry, farRecord, hparsed, publishes_of_fits hparsed hfits, nofun⟩,
    rfl, rfl⟩

/-- The nearer network on a channel of the 2.4 GHz band. -/
def nearNetwork : CWNetwork := { sixGHzNetwork with wlanChannel := some ⟨6, 1⟩ }

/-- The text of the page with both networks of that band. -/
def pairParts : List String :=
  ["\x7b\"ok\":true,\"scanID\":\"00000000-0000-4000-8000-000000000000\",\"networks\":[",
    "\x7b\"networkID\":\"00000000-0000-4000-8000-000000000001\",\"ssidBase64\":\"Qg==\",",
    "\"signalDBm\":-30,\"channel\":6,\"enterprise\":false,\"open\":true,\"personal\":false,",
    "\"bssid\":\"02:00:00:00:00:02\",\"channelBand\":1,",
    "\"informationElementsBase64\":\"AAFC\"\x7d,",
    "\x7b\"networkID\":\"00000000-0000-4000-8000-000000000002\",\"ssidBase64\":\"QQ==\",",
    "\"signalDBm\":-60,\"channel\":1,\"enterprise\":false,\"open\":true,\"personal\":false,",
    "\"bssid\":\"02:00:00:00:00:01\",\"channelBand\":1,",
    "\"informationElementsBase64\":\"AAFB\"\x7d],",
    "\"total\":2,\"truncated\":false,\"expiresInSeconds\":60\x7d"]

/-- The parts of the sample with a hidden network are parts. -/
theorem isPart_pairParts : ∀ s ∈ pairParts, IsPart s := by
  simp only [pairParts, List.forall_mem_cons]
  refine ⟨?_, ?_, ?_, ?_, ?_, ?_, ?_, ?_, ?_, ?_, nofun⟩ <;>
  · rw [IsPart, ascii_ofList]
    decide +kernel

def pairSnapshot : Snapshot := wifiScan exampleUUID 0 [exampleNetwork, nearNetwork]

/-- What the bridge makes of it. -/
def pairServed : Served :=
  serveScan examplePython exampleKernel (askHost examplePython
    (pageWire pairParts isPart_pairParts (scanPage pairSnapshot 0 0)) pairSnapshot fun _ => 0) 1
    examplePending

def pairRecords : List BSS := [{ nearRecord with frequencyMhz := 2437 }, farRecord]

/-- The scan that finds two networks of the 2.4 GHz band is finished, with the records of both. -/
theorem none_hidden_pair :
    (∀ bss ∈ pairRecords, bss ∈ pairServed.published) ∧ pairServed.finished = true ∧
      pairServed.aborted = false := by
  have hcount : pairSnapshot.entries.length = 2 := rfl
  have hparts : pairParts.length = 10 := rfl
  have hshort := length_parts_le isPart_pairParts
  have hparsed : pairSnapshot.entries.map (parseBss examplePython.isUUID) =
      pairRecords.map .ok := rfl
  have hfits : ∀ bss ∈ pairRecords, Fits exampleKernel 1 bss := by
    simp only [pairRecords, List.forall_mem_cons]
    exact ⟨⟨by decide, by decide, rfl⟩, ⟨by decide, by decide, rfl⟩, nofun⟩
  have huuid : ∀ n, examplePython.isUUID (exampleUUID n) = true
    | 0 => by decide
    | 1 => by decide
    | n + 2 => (by decide : examplePython.isUUID (exampleUUID 2) = true)
  have hreads : ∀ k, 2 * k < max 1 pairSnapshot.entries.length →
      (pageWire pairParts isPart_pairParts (scanPage pairSnapshot 0 0)).Reads
        (scanPage pairSnapshot (2 * k) 0) := by
    intro k hk
    obtain rfl : k = 0 := by omega
    exact pageWire_reads _ _ _
  have hnone := none_hidden_iff examplePython _ exampleKernel exampleUUID huuid 0
    [exampleNetwork, nearNetwork] (fun _ => 0) hreads 1 (fun _ _ h => h) examplePending ⟨rfl, rfl⟩
  obtain ⟨hpublished, hfinished, haborted⟩ := hnone.mpr
    ⟨by decide, fun k hk => hshort.trans_lt (by omega), fun e he => by
      obtain ⟨bss, hmem, heq⟩ := List.mem_map.mp (hparsed ▸ List.mem_map_of_mem he)
      exact ⟨bss, heq.symm, hfits bss hmem⟩⟩
  refine ⟨fun bss hbss => ?_, hfinished, haborted⟩
  obtain ⟨entry, hentry, heq⟩ := (mem_of_map_eq_ok hparsed).mp hbss
  exact hpublished entry hentry bss heq (publishes_of_fits heq (hfits bss hbss))

end Ashacky.Wifi
