import Ashacky.Support.Effect
import Ashacky.Wifi.Records

/-!
# Wi-Fi — Security

The guest's `compatible` and the kernel's element walk with `compatible_security` are two readers
of the same bytes, and they accept the same records.

* `compatibleRsn_eq`: the two readers of an RSN element agree on every byte string.
* `foldlM_visitSsid`, `parseBss_elements`: a record of `parse_bss` is a concatenation of elements
  in which the SSID stands once.
* `security_agrees`: the guest and the kernel agree on every record.
-/

namespace Ashacky.Wifi
open Ashacky.Support Ashacky.Control

/-! ### The RSN element -/

/-- The kernel's loop over the suites finds what is in the guest's list of them. -/
theorem findSuite_eq (body suite : Data) (count cursor : Nat) (found : Bool) :
    findSuite body suite count cursor found =
      (found || decide (suite ∈ suites body cursor count), cursor + 4 * count) := by
  induction count generalizing cursor found with
  | zero => simp [findSuite, suites]
  | succ count ih =>
      have hsuites : suites body cursor (count + 1) =
          slice body cursor (cursor + 4) :: suites body (cursor + 4) count := by
        simp only [suites, List.range_succ_eq_map, List.map_cons, List.map_map]
        refine congrArg₂ _ (by simp) (List.map_congr_left fun i _ => ?_)
        simp only [Function.comp, Nat.succ_eq_add_one]
        congr 1 <;> omega
      rw [findSuite, ih, hsuites]
      refine Prod.ext ?_ (by simp; omega)
      by_cases h : slice body cursor (cursor + 4) = suite
      · simp [h]
      · simp [h, Ne.symm h]

/-- Two bytes are the version 1. -/
theorem le16_eq_one {d : Data} (h : 2 ≤ d.length) : le16 d 0 = 1 ↔ slice d 0 2 = [1, 0] := by
  match d, h with
  | a :: b :: rest, _ =>
      have hslice : slice (a :: b :: rest) 0 2 = [a, b] := rfl
      have ha : a.toNat < 256 := a.toNat_lt
      have hvalue : leNat [a, b] = b.toNat * 256 + a.toNat := by simp [leNat, beNat]
      rw [le16, hslice, hvalue]
      constructor
      · intro h
        have ha1 : a = 1 := by
          apply UInt8.toNat_inj.mp
          show a.toNat = 1
          omega
        have hb0 : b = 0 := by
          apply UInt8.toNat_inj.mp
          show b.toNat = 0
          omega
        rw [ha1, hb0]
      · intro h
        cases h
        rfl

/-- A turn of the guest's loop that goes on. -/
theorem requireSuite_eq_some {value required : Data} {offset next : Nat} :
    requireSuite value required offset = some next ↔
      offset + 2 ≤ value.length ∧ le16 value offset ≠ 0 ∧
      le16 value offset ≤ (value.length - (offset + 2)) / 4 ∧
      required ∈ suites value (offset + 2) (le16 value offset) ∧
      next = offset + 2 + le16 value offset * 4 := by
  unfold requireSuite
  rw [show leNat (slice value offset (offset + 2)) = le16 value offset from rfl]
  dsimp only
  split
  · rename_i h
    exact ⟨nofun, fun h' => absurd h'.1 (by omega)⟩
  split
  · rename_i h
    exact ⟨nofun, fun h' => absurd h (by omega)⟩
  split
  · rename_i h
    exact ⟨nofun, fun h' => absurd h'.2.2.2.1 (by simpa using h)⟩
  · rename_i h₁ h₂ h₃
    rw [Option.some_inj]
    constructor
    · rintro rfl
      exact ⟨by omega, by omega, by omega, by simpa using h₃, rfl⟩
    · exact fun h => h.2.2.2.2.symm

/-- What the guest asks of an RSN element. -/
theorem compatibleValue_iff {value : Data} :
    compatibleValue value = true ↔
      18 ≤ value.length ∧ slice value 0 2 = [1, 0] ∧ slice value 2 6 = ccmp ∧
      ∃ next, requireSuite value ccmp 6 = some next ∧
      ∃ last, requireSuite value psk next = some last ∧
        (last = value.length ∨ (2 ≤ value.length - last ∧ le16 value last &&& 64 = 0)) := by
  unfold compatibleValue
  split
  · rename_i h
    exact ⟨nofun, fun h' => absurd h (by simp [h'.2.1, h'.2.2.1]; omega)⟩
  rename_i h
  simp only [not_or, not_lt, not_not] at h
  cases h₁ : requireSuite value ccmp 6 with
  | none => simp
  | some next =>
      cases h₂ : requireSuite value psk next with
      | none => simp [h₂]
      | some last => simp [h, h₂, le16]

/-- What the kernel asks of it, in the same words. -/
theorem compatibleRsn_iff {body : Data} :
    compatibleRsn body = true ↔
      18 ≤ body.length ∧ slice body 0 2 = [1, 0] ∧ slice body 2 6 = ccmp ∧
      ∃ next, requireSuite body ccmp 6 = some next ∧
      ∃ last, requireSuite body psk next = some last ∧
        (last = body.length ∨ (2 ≤ body.length - last ∧ le16 body last &&& 64 = 0)) := by
  unfold compatibleRsn
  simp only [findSuite_eq, Bool.false_or]
  constructor
  · intro h
    split at h
    · cases h
    rename_i hlong
    split at h
    · cases h
    rename_i hfront
    split at h
    · cases h
    rename_i hcount
    split at h
    · cases h
    rename_i hccmp
    split at h
    · cases h
    rename_i hcount'
    simp only [not_or, not_not, not_lt, Bool.not_eq_true', decide_eq_false_iff_not] at hfront hccmp
    simp only [Bool.and_eq_true, Bool.or_eq_true, decide_eq_true_eq] at h
    have hnext : 6 + 2 + le16 body 6 * 4 = 8 + 4 * le16 body 6 := by omega
    refine ⟨by omega, (le16_eq_one (by omega)).mp hfront.1, hfront.2, _,
      requireSuite_eq_some.mpr ⟨by omega, by omega, by omega, hccmp.1, rfl⟩, _,
      requireSuite_eq_some.mpr ⟨?_, ?_, ?_, ?_, rfl⟩, ?_⟩
    all_goals rw [hnext]
    · omega
    · omega
    · omega
    · exact h.1
    · rw [Nat.mul_comm _ 4]
      exact h.2
  · rintro ⟨hlong, hversion, hgroup, next, hnext, last, hlast, hend⟩
    obtain ⟨h₁, h₂, h₃, h₄, rfl⟩ := requireSuite_eq_some.mp hnext
    obtain ⟨h₅, h₆, h₇, h₈, rfl⟩ := requireSuite_eq_some.mp hlast
    have hcursor : 6 + 2 + le16 body 6 * 4 = 8 + 4 * le16 body 6 := by omega
    rw [hcursor] at h₅ h₆ h₇ h₈ hend
    rw [if_neg (by omega), if_neg (by simp [(le16_eq_one (by omega)).mpr hversion, hgroup]),
      if_neg (by omega), if_neg (by simp [h₄]; omega), if_neg (by omega)]
    rw [Nat.mul_comm _ 4] at hend
    simpa [h₈] using hend

/-- **Two readers of one element.**  The kernel's cursor arithmetic and the guest's slices accept
the same RSN elements. -/
theorem compatibleRsn_eq (body : Data) : compatibleRsn body = compatibleValue body := by
  rw [Bool.eq_iff_iff, compatibleRsn_iff, compatibleValue_iff]

/-! ### The elements of a record -/

/-- The bodies of the elements with an identifier, in order. -/
def bodies (id : UInt8) (es : List Element) : List Data := (es.filter (·.id = id)).map (·.body)

@[simp] theorem bodies_nil (id : UInt8) : bodies id [] = [] := rfl

theorem bodies_cons (id : UInt8) (e : Element) (es : List Element) :
    bodies id (e :: es) = if e.id = id then e.body :: bodies id es else bodies id es := by
  unfold bodies
  rw [List.filter_cons]
  split <;> simp_all

/-- The loop of `parse_bss` accepts one SSID element, and says whether it saw it. -/
theorem foldlM_visitSsid {ssid : Data} {es : List Element} {seen seen' : Bool}
    (h : es.foldlM (visitSsid ssid) seen = .ok seen') :
    (seen = true → seen' = true) ∧
      bodies 0 es = if seen' = true ∧ seen = false then [ssid] else [] := by
  induction es generalizing seen with
  | nil =>
      cases h
      cases seen' <;> simp
  | cons e es ih =>
      rw [List.foldlM_cons, visitSsid] at h
      rw [bodies_cons]
      by_cases hid : e.id = 0
      · rw [if_pos hid] at h ⊢
        split at h
        · cases h
        · rename_i hok
          simp only [not_or, not_not, Bool.not_eq_true] at hok
          obtain ⟨hkeep, hrest⟩ := ih h
          have hseen' := hkeep rfl
          simp [hseen', hok.1, hok.2, hrest]
      · rw [if_neg hid] at h ⊢
        exact ih h

/-- The element with the SSID. -/
def ssidOf (ssid : Data) (h : ssid.length ≤ 32) : Element := ⟨0, ssid, by omega⟩

/-- The elements of a record are complete, and the SSID stands once among them. -/
theorem parseElements_eq_ok {ssid ies out : Data} (hssid : ssid.length ≤ 32)
    (h : parseElements ssid ies = .ok out) :
    ∃ es : List Element, out = es.flatMap Element.encode ∧ bodies 0 es = [ssid] := by
  unfold parseElements at h
  cases hw : walk (.valueError "Truncated information element") (visitSsid ssid) ies false with
  | error x =>
      rw [hw] at h
      cases h
  | ok seen =>
      rw [hw] at h
      obtain ⟨es, rfl, hfold⟩ := (walk_eq_ok _ _).mp hw
      have hbodies := (foldlM_visitSsid hfold).2
      cases seen with
      | true =>
          cases h
          exact ⟨es, rfl, hbodies⟩
      | false =>
          cases h
          refine ⟨ssidOf ssid hssid :: es, ?_, ?_⟩
          · rfl
          · rw [bodies_cons, hbodies]
            rfl

theorem ensure_eq_ok {α : Type} {check : α → Bool} {text : String} {a b : α}
    (h : ensure check text a = .ok b) : check b ∧ a = b := by
  unfold ensure at h
  split at h
  · cases h
    exact ⟨‹_›, rfl⟩
  · cases h

theorem parseSignal_eq_ok {value : Json} {n : Int} (h : parseSignal value = .ok n) :
    -127 ≤ n ∧ n ≤ 0 := by
  unfold parseSignal at h
  split at h
  · split at h
    · cases h
      assumption
    · cases h
  · cases h

/-- What a record of `parse_bss` is: a unicast address, a signal in range, and the elements of
the entry with the SSID among them. -/
theorem parseBss_eq_ok {isUUID : String → Bool} {entry : Json} {record : BSS}
    (h : parseBss isUUID entry = .ok record) :
    record.ssid.length ≤ 32 ∧ record.bssid.isValid ∧
      -12700 ≤ record.signalMbm ∧ record.signalMbm ≤ 0 ∧
      (∃ ies, ies.length ≤ 4096 ∧ parseElements record.ssid ies = .ok record.informationElements) ∧
      ∃ band channel, frequency band channel = .ok record.frequencyMhz := by
  cases entry with
  | obj entry =>
      rw [parseBss] at h
      obtain ⟨isOpen, -, h⟩ := except_bind_eq_ok.mp h
      obtain ⟨networkId, -, h⟩ := except_bind_eq_ok.mp h
      obtain ⟨ssid, hssid, h⟩ := except_bind_eq_ok.mp h
      obtain ⟨bssid, hbssid, h⟩ := except_bind_eq_ok.mp h
      obtain ⟨signal, hsignal, h⟩ := except_bind_eq_ok.mp h
      obtain ⟨ies, hies, h⟩ := except_bind_eq_ok.mp h
      obtain ⟨out, hout, h⟩ := except_bind_eq_ok.mp h
      obtain ⟨band, -, h⟩ := except_bind_eq_ok.mp h
      obtain ⟨channel, -, h⟩ := except_bind_eq_ok.mp h
      obtain ⟨frequencyMhz, hfrequency, h⟩ := except_bind_eq_ok.mp h
      cases h
      obtain ⟨_, -, hssid⟩ := except_bind_eq_ok.mp hssid
      obtain ⟨_, -, hbssid⟩ := except_bind_eq_ok.mp hbssid
      obtain ⟨_, -, hsignal⟩ := except_bind_eq_ok.mp hsignal
      obtain ⟨_, -, hies⟩ := except_bind_eq_ok.mp hies
      have hrange := parseSignal_eq_ok hsignal
      refine ⟨by simpa using (ensure_eq_ok hssid).1, (ensure_eq_ok hbssid).1, ?_, ?_,
        ⟨ies, by simpa using (ensure_eq_ok hies).1, hout⟩, band, channel, hfrequency⟩
      · show -12700 ≤ signal * 100
        omega
      · show signal * 100 ≤ 0
        omega
  | _ => cases h

/-- The elements of a record are complete, and its SSID stands once among them. -/
theorem parseBss_elements {isUUID : String → Bool} {entry : Json} {record : BSS}
    (h : parseBss isUUID entry = .ok record) :
    ∃ es : List Element, record.informationElements = es.flatMap Element.encode ∧
      bodies 0 es = [record.ssid] := by
  obtain ⟨hssid, -, -, -, ⟨ies, -, hies⟩, -⟩ := parseBss_eq_ok h
  exact parseElements_eq_ok hssid hies

/-! ### The walks -/

/-- The walk of `report_link` over elements whose SSIDs are the one asked for: it counts, and
stops at a second RSN element. -/
theorem foldlM_visitReport {ssid : Data} (hssid : ssid.length ≤ 32) {es : List Element}
    {seen : Seen} (hes : ∀ b ∈ bodies 0 es, b = ssid)
    (hone : seen.ssids + (bodies 0 es).length ≤ 1) (hrsn : seen.rsns ≤ 1) :
    es.foldlM (visitReport (.copy ssid) (UInt8.ofNat ssid.length)) seen =
      if seen.rsns + (bodies 48 es).length ≤ 1 then
        .ok ⟨seen.ssids + (bodies 0 es).length, seen.rsns + (bodies 48 es).length⟩
      else .error .EINVAL := by
  have hlength : (UInt8.ofNat ssid.length).toNat = ssid.length := by
    rw [UInt8.toNat_ofNat', Nat.mod_eq_of_lt (by omega)]
  induction es generalizing seen with
  | nil => simp [hrsn, pure, Except.pure]
  | cons e es ih =>
      rw [bodies_cons] at hes hone
      by_cases h0 : e.id = 0
      · have h48 : e.id ≠ 48 := by simp [h0]
        rw [if_pos h0] at hes hone
        have hbody : e.body = ssid := hes e.body (by simp)
        have hseen : seen.ssids = 0 ∧ (bodies 0 es).length = 0 := by
          rw [List.length_cons] at hone
          omega
        have hvisit : visitReport (.copy ssid) (UInt8.ofNat ssid.length) seen e =
            .ok ⟨1, seen.rsns⟩ := by
          have hfront : (Block.copy ssid).front ssid.length = ssid := Block.front_copy hssid
          simp [visitReport, eidSsid, eidRsn, h0, hbody, hlength, hfront, hseen.1]
        rw [List.foldlM_cons, hvisit, bodies_cons, bodies_cons, if_pos h0, if_neg h48,
          List.length_cons, hseen.1]
        have hih := @ih ⟨1, seen.rsns⟩ (fun b hb => hes b (by simp [hb])) (by simp [hseen.2]) hrsn
        simpa [hseen.2, bind, Except.bind] using hih
      · rw [if_neg h0] at hes hone
        by_cases h48 : e.id = 48
        · rw [List.foldlM_cons, bodies_cons, bodies_cons, if_neg h0, if_pos h48, List.length_cons]
          by_cases hmore : seen.rsns = 0
          · have hvisit : visitReport (.copy ssid) (UInt8.ofNat ssid.length) seen e =
                .ok ⟨seen.ssids, 1⟩ := by
              simp [visitReport, eidSsid, eidRsn, h48, hmore]
            rw [hvisit]
            have hih := @ih ⟨seen.ssids, 1⟩ hes hone (Nat.le_refl 1)
            simpa [hmore, Nat.add_comm, bind, Except.bind] using hih
          · have hvisit : visitReport (.copy ssid) (UInt8.ofNat ssid.length) seen e =
                .error .EINVAL := by
              simp [visitReport, eidSsid, eidRsn, h48, hmore]
            rw [hvisit, if_neg (by omega)]
            rfl
        · have hvisit : visitReport (.copy ssid) (UInt8.ofNat ssid.length) seen e = .ok seen := by
            simp [visitReport, eidSsid, eidRsn, h0, h48]
          rw [List.foldlM_cons, hvisit, bodies_cons, bodies_cons, if_neg h0, if_neg h48]
          exact ih hes hone hrsn

/-- What `compatible` collects. -/
theorem foldlM_visitCompatible (es : List Element) (c : Collected) :
    es.foldlM visitCompatible c = .ok
      ⟨c.rsns ++ bodies 48 es,
        c.wpa || es.any fun e => e.id = 221 ∧ ouiWpa.isPrefixOf e.body⟩ := by
  induction es generalizing c with
  | nil => simp [pure, Except.pure]
  | cons e es ih =>
      rw [List.foldlM_cons, visitCompatible]
      refine (ih _).trans ?_
      rw [bodies_cons]
      by_cases h48 : e.id = 48
      · simp [h48]
      · by_cases h221 : e.id = 221 ∧ ouiWpa.isPrefixOf e.body
        · rw [if_neg h48, if_neg h48, if_pos h221, List.any_cons, decide_eq_true h221]
          simp
        · simp only [h48, h221, if_false, List.any_cons, decide_false, Bool.false_or]

/-- The kernel accepts the security of a record: the element walk of `report_link`, with the
record's SSID as the one asked for, and then `compatible_security`. -/
def kernelCompatible (record : BSS) (privacy : Bool) : Bool :=
  match walkReport (.copy record.ssid) (UInt8.ofNat record.ssid.length)
      record.informationElements with
  | .error _ => false
  | .ok seen => seen.ssids = 1 &&
      compatibleSecurity record.informationElements privacy record.capability

theorem isPrivate_capability (record : BSS) : isPrivate record.capability = !record.isOpen := by
  unfold BSS.capability
  cases record.isOpen <;> decide

/-- The first RSN element is the first of their bodies. -/
theorem findIe_rsn (es : List Element) :
    (findIe eidRsn (es.flatMap Element.encode)).map (·.body) = (bodies 48 es).head? := by
  rw [findIe, elements_flatMap, bodies, List.head?_map, List.head?_filter]
  rfl

theorem findWpaIe_isNone (es : List Element) :
    (findWpaIe (es.flatMap Element.encode)).isNone =
      !es.any fun e => e.id = 221 ∧ ouiWpa.isPrefixOf e.body := by
  rw [findWpaIe, elements_flatMap, Bool.eq_iff_iff, Option.isNone_iff_eq_none, List.find?_eq_none]
  simp [eidVendor]

/-- **Guest and kernel agree.**  For every record of `parse_bss`, of any length, and each kind of
network, the guest's `compatible` is true exactly when the kernel's element walk and
`compatible_security` accept the record. -/
theorem security_agrees (isUUID : String → Bool) (entry : Json) (record : BSS)
    (h : parseBss isUUID entry = .ok record) (privacy : Bool) :
    compatible record privacy = kernelCompatible record privacy := by
  obtain ⟨hssid, -⟩ := parseBss_eq_ok h
  obtain ⟨es, hes, hone⟩ := parseBss_elements h
  have hguest : walk () visitCompatible record.informationElements ⟨[], false⟩ =
      .ok ⟨bodies 48 es, es.any fun e => e.id = 221 ∧ ouiWpa.isPrefixOf e.body⟩ := by
    rw [hes, walk_flatMap, foldlM_visitCompatible]
    rfl
  have hkernel : walkReport (.copy record.ssid) (UInt8.ofNat record.ssid.length)
      record.informationElements =
      if (bodies 48 es).length ≤ 1 then .ok ⟨1, (bodies 48 es).length⟩ else .error .EINVAL := by
    rw [walkReport, hes, walk_flatMap,
      foldlM_visitReport hssid (by simp [hone]) (by simp [hone]) (Nat.zero_le 1)]
    simp [hone]
  have hrsn := findIe_rsn es
  have hwpa := findWpaIe_isNone es
  rw [← hes] at hrsn hwpa
  unfold compatible kernelCompatible compatibleSecurity
  rw [hguest, hkernel, isPrivate_capability, hwpa]
  -- No RSN element, one, or several: the guest counts them, the kernel walks over them.
  match hb : bodies 48 es with
  | [] =>
      rw [hb, List.head?_nil, Option.map_eq_none_iff] at hrsn
      cases privacy <;> cases record.isOpen <;> simp [hrsn]
  | [b] =>
      rw [hb, List.head?_cons, Option.map_eq_some_iff] at hrsn
      obtain ⟨rsn, hfind, rfl⟩ := hrsn
      cases privacy <;> cases record.isOpen <;> simp [hfind, compatibleRsn_eq]
  | b :: b' :: rest =>
      cases privacy <;> cases record.isOpen <;> simp

/-- An entry for a WPA2 network. -/
def exampleEntry : Json :=
  .obj [("networkID", .str "00000000-0000-4000-8000-000000000001"),
    ("ssidBase64", .str "RXhhbXBsZQ=="), ("signalDBm", .int (-60)), ("channel", .int 1),
    ("enterprise", .bool false), ("open", .bool false), ("personal", .bool true),
    ("bssid", .str "02:00:00:00:00:01"), ("channelBand", .int 1),
    ("informationElementsBase64", .str "AAdFeGFtcGxlMBQBAAAPrAQBAAAPrAQBAAAPrAIAAA==")]

def exampleRecord : BSS where
  networkId := "00000000-0000-4000-8000-000000000001"
  ssid := [69, 120, 97, 109, 112, 108, 101]
  bssid := firstBssid
  frequencyMhz := 2412
  signalMbm := -6000
  informationElements := [0, 7, 69, 120, 97, 109, 112, 108, 101, 48, 20, 1, 0, 0, 15, 172, 4, 1, 0,
    0, 15, 172, 4, 1, 0, 0, 15, 172, 2, 0, 0]
  isOpen := false

theorem security_agrees_example :
    compatible exampleRecord true = true ∧ kernelCompatible exampleRecord true = true := by
  have h := security_agrees (fun id => id = "00000000-0000-4000-8000-000000000001") exampleEntry
    exampleRecord rfl true
  have hguest : compatible exampleRecord true = true := by decide
  exact ⟨hguest, h ▸ hguest⟩

end Ashacky.Wifi
