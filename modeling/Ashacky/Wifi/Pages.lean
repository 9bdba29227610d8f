import Mathlib.Algebra.Order.Ring.Rat
import Ashacky.Wifi.Visibility
import Ashacky.Wifi.Execution

/-!
# Wi-Fi — the pages of a scan

The host keeps a few snapshots for a minute and hands them out in pages of two; the guest's `scan`
asks for one page after the other.  Both compute the offsets, each on its own.

The host's clock and its cache may be anything at each request, as other readers scan too, as long as
the snapshot that is read is still there.

* `scanTurns_snapshot`: from a page of the snapshot on, the guest gets the rest of it, with a request
  for each page.
* `scanTurns_bounded`: whatever the pages are, a page that is followed by another brings the guest
  forward.
* `scan_pages`.
-/

namespace Ashacky.Wifi
open Ashacky.Support Ashacky.Control

/-! ### The host's cache -/

/-- A snapshot, and when it was taken. -/
structure Stored where
  created : ℚ
  snapshot : Snapshot

/-- `snapshots`. -/
abbrev Snapshots := List (String × Stored)

/-- `expireSnapshots`. -/
def expireSnapshots (now : ℚ) (snapshots : Snapshots) : Snapshots :=
  snapshots.filter fun s => now - s.2.created < 60

/-- A page at some time. -/
def Stored.page (s : Stored) (now : ℚ) (offset : Nat) : Object :=
  scanPage s.snapshot offset (now - s.created).floor

/-- `wifi-scan-page`, with its part of `validate`.  `parses` is `UUID(uuidString:)`. -/
def wifiScanPage (parses : String → Bool) (now : ℚ) (snapshots : Snapshots) (scanID : String)
    (offset : Nat) : Except Raised Object :=
  if !parses scanID ∨ 256 < offset then .error (.runtimeError "Invalid Wi-Fi request")
  else
    match (expireSnapshots now snapshots).lookup scanID with
    | none => .error (.runtimeError "Scan expired; scan again before connecting")
    | some s => .ok (s.page now offset)

/-- The host while a snapshot is read: its clock and its cache, after the guest's requests so far. -/
structure Backend where
  parses : String → Bool
  now : List HostRequest → ℚ
  snapshots : List HostRequest → Snapshots

/-- The host's answers, for a scan that takes this snapshot. -/
def Backend.host (B : Backend) (s : Stored) : Host := fun asked request =>
  match request with
  | .scan .wifiScan => .ok (s.page s.created 0)
  | .scan (.wifiScanPage scanID offset) =>
      wifiScanPage B.parses (B.now asked) (B.snapshots asked) scanID offset
  | _ => .error (.runtimeError "Invalid Wi-Fi request")

/-- The snapshot is neither expired nor evicted while it is read. -/
def Backend.Keeps (B : Backend) (s : Stored) : Prop :=
  B.parses s.snapshot.id = true ∧
    ∀ asked, (expireSnapshots (B.now asked) (B.snapshots asked)).lookup s.snapshot.id = some s

section Reading
variable {P : Python} {B : Backend} {s : Stored}

theorem Backend.host_page (hkeeps : B.Keeps s) {asked : List HostRequest} {offset : Nat}
    (h : offset ≤ 256) :
    B.host s asked (.scan (.wifiScanPage s.snapshot.id offset)) = .ok (s.page (B.now asked) offset) := by
  have hvalid : ¬ ((!B.parses s.snapshot.id) = true ∨ 256 < offset) := by
    simp [hkeeps.1, h]
  simp only [Backend.host, wifiScanPage, if_neg hvalid, hkeeps.2]

/-- From a page of the snapshot on, the guest gets the records of the entries that are left, with a
request for each later page. -/
theorem scanTurns_snapshot (hkeeps : B.Keeps s) (hsize : s.snapshot.entries.length ≤ 256)
    {fuel k : Nat} (hk : 2 * k ≤ s.snapshot.entries.length)
    (hfuel : s.snapshot.entries.length < fuel + 2 * k) {now : ℚ} {records parsed : List BSS}
    (hparsed : (s.snapshot.entries.drop (2 * k)).mapM (parseBss P.isUUID) = .ok parsed) (d : Doings) :
    wp (scanTurns P (B.host s) s.snapshot.id s.snapshot.entries.length fuel (s.page now (2 * k)) (2 * k)
        records)
      (fun found d' => found = records ++ parsed ∧
        d'.asked.length = d.asked.length + ((s.snapshot.entries.length + 1) / 2 - (k + 1)))
      (fun _ _ => False) d := by
  induction fuel generalizing k now records parsed d with
  | zero => omega
  | succ fuel ih =>
      have hentries : pageEntries P s.snapshot.id s.snapshot.entries.length (s.page now (2 * k)) =
          .ok ((s.snapshot.entries.drop (2 * k)).take 2) := pageEntries_scanPage hk _
      have hnext : (s.page now (2 * k)).lookup "nextOffset" =
          if 2 * k + 2 < s.snapshot.entries.length then some (.int ((2 * k : Nat) + 2)) else none :=
        lookup_nextOffset _ _ _ hk
      rw [← List.take_append_drop 2 (s.snapshot.entries.drop (2 * k)), mapM_append_eq_ok] at hparsed
      obtain ⟨us, hus, vs, hvs, rfl⟩ := hparsed
      simp only [scanTurns, wp_bind, hentries, hus, fromExcept, wp_pure]
      by_cases hmore : 2 * k + 2 < s.snapshot.entries.length
      · -- a full page: the host names the next one, and the guest asks for it
        have htwo : ((s.snapshot.entries.drop (2 * k)).take 2).length = 2 := by
          rw [List.length_take, List.length_drop]
          omega
        have hnonempty : ((s.snapshot.entries.drop (2 * k)).take 2).isEmpty = false := by
          rw [List.isEmpty_eq_false_iff_exists_mem]
          exact List.exists_mem_of_length_pos (by omega)
        have hguard : ¬(((2 * k : Nat) : Int) + 2 ≠ (2 * k + 2 : Nat) ∨
            (false : Bool) = true ∨ ((2 * k : Nat) : Int) + 2 ≥ s.snapshot.entries.length) := by
          simp only [Bool.false_eq_true, false_or, not_or, not_not]
          omega
        rw [hnext, if_pos hmore]
        simp only [htwo, hnonempty, if_neg hguard]
        refine wp_bind.mpr (wp_rpc (fun page hpage => ?_) fun e he => ?_)
        · rw [Backend.host_page hkeeps (by omega)] at hpage
          cases hpage
          have hrest : (s.snapshot.entries.drop (2 * (k + 1))).mapM (parseBss P.isUUID) = .ok vs := by
            rwa [Nat.mul_succ, ← List.drop_drop]
          refine wp_mono (ih (by omega) (by omega) hrest _) ?_ fun _ _ h => h
          rintro _ d' ⟨rfl, hasked⟩
          refine ⟨by simp, ?_⟩
          rw [hasked, Doings.ask, List.length_append, List.length_singleton]
          omega
        · rw [Backend.host_page hkeeps (by omega)] at he
          cases he
      · -- the last page: what is left of the snapshot
        have hlast : (s.snapshot.entries.drop (2 * k)).drop 2 = [] := by
          rw [List.drop_drop, List.drop_eq_nil_of_le (by omega)]
        have htotal : 2 * k + ((s.snapshot.entries.drop (2 * k)).take 2).length =
            s.snapshot.entries.length := by
          rw [List.length_take, List.length_drop]
          omega
        rw [hlast, List.mapM_nil] at hvs
        obtain rfl : [] = vs := Except.ok.inj hvs
        rw [hnext, if_neg hmore]
        simp only [htotal, ne_eq, not_true, if_false]
        refine ⟨by rw [List.append_nil], ?_⟩
        omega

/-- **The whole scan of a snapshot.** -/
theorem scanRecords_snapshot (hkeeps : B.Keeps s) (hsize : s.snapshot.entries.length ≤ 256)
    (hcomplete : s.snapshot.truncated = false) (huuid : P.isUUID s.snapshot.id = true)
    {parsed : List BSS} (hparsed : s.snapshot.entries.mapM (parseBss P.isUUID) = .ok parsed)
    (d : Doings) :
    wp (scanRecords P (B.host s))
      (fun found d' => found = parsed ∧
        d'.asked.length = d.asked.length + max 1 ((s.snapshot.entries.length + 1) / 2))
      (fun _ _ => False) d := by
  have hid : (item (s.page s.created 0) "scanID" >>= checkUUID P.isUUID) = .ok s.snapshot.id := by
    have hitem : item (s.page s.created 0) "scanID" = .ok (.str s.snapshot.id) := by
      rw [item, Stored.page, lookup_scanID]
    rw [hitem]
    change checkUUID P.isUUID (.str s.snapshot.id) = _
    simp [checkUUID, huuid]
  have htotal : scanSize P (s.page s.created 0) = .ok s.snapshot.entries.length :=
    scanSize_eq_ok.mpr ⟨hsize, hcomplete, rfl⟩
  rw [scanRecords, wp_bind]
  refine wp_rpc (fun page hpage => ?_) fun e he => by cases he
  cases hpage
  simp only [wp_bind, hid, htotal, fromExcept, wp_pure]
  refine wp_mono (scanTurns_snapshot hkeeps hsize (k := 0) (Nat.zero_le _) ?_ hparsed _) ?_
    fun _ _ h => h
  · rw [Int.toNat_natCast]
    omega
  · rintro _ d' ⟨rfl, hasked⟩
    refine ⟨rfl, ?_⟩
    rw [hasked, Doings.ask, List.length_append, List.length_singleton]
    omega

end Reading

/-! ### Any host -/

section Bounded
variable {P : Python} {host : Host}

/-- Whatever the pages are: a page that is followed by another brings the guest forward, so there is a
request for each entry at most, and as many records as entries at the end. -/
theorem scanTurns_bounded {scanID : String} {total : Int} {fuel : Nat} {page : Object} {offset : Nat}
    {records : List BSS} (hrecords : records.length = offset) (d : Doings) :
    wp (scanTurns P host scanID total fuel page offset records)
      (fun found d' => (found.length : Int) = total ∧
        d'.asked.length ≤ d.asked.length + (total.toNat - 1 - offset))
      (fun _ d' => d'.asked.length ≤ d.asked.length + (total.toNat - 1 - offset)) d := by
  induction fuel generalizing page offset records d with
  | zero => exact Nat.le_add_right _ _
  | succ fuel ih =>
      simp only [scanTurns, wp_bind]
      refine wp_fromExcept (fun entries _ => ?_) fun _ _ => Nat.le_add_right _ _
      refine wp_fromExcept (fun parsed hparsed => ?_) fun _ _ => Nat.le_add_right _ _
      have hlength : (records ++ parsed).length = offset + entries.length := by
        have hmap := congrArg List.length (mapM_eq_ok.mp hparsed)
        rw [List.length_map, List.length_map] at hmap
        rw [List.length_append, hrecords, hmap]
      have hend : wp (if ((offset + entries.length : Nat) : Int) ≠ total then
          throw (.valueError "Incomplete scan") else pure (records ++ parsed) : Errand (List BSS))
          (fun found d' => (found.length : Int) = total ∧
            d'.asked.length ≤ d.asked.length + (total.toNat - 1 - offset))
          (fun _ d' => d'.asked.length ≤ d.asked.length + (total.toNat - 1 - offset)) d := by
        refine wp_ite (fun _ => Nat.le_add_right _ _) fun heq => ?_
        exact ⟨by rw [hlength]; exact not_not.mp heq, Nat.le_add_right _ _⟩
      split
      · exact hend
      · exact hend
      · refine wp_ite (fun _ => Nat.le_add_right _ _) fun hcursor => ?_
        simp only [not_or, not_not, List.isEmpty_iff] at hcursor
        obtain ⟨rfl, hne, hlt⟩ := hcursor
        have hpos : 0 < entries.length := List.length_pos_iff.mpr hne
        -- the request for the next page, and those after it
        have hbound : ∀ d' : Doings,
            d'.asked.length ≤ (d.ask (.scan (.wifiScanPage scanID (offset + entries.length)))).asked.length +
              (total.toNat - 1 - (offset + entries.length)) →
            d'.asked.length ≤ d.asked.length + (total.toNat - 1 - offset) := by
          intro d' hd'
          rw [Doings.ask, List.length_append, List.length_singleton] at hd'
          omega
        rw [wp_bind]
        refine wp_rpc (fun page _ => ?_) fun _ _ => hbound _ (Nat.le_add_right _ _)
        exact wp_mono (ih hlength _) (fun _ d' h => ⟨h.1, hbound d' h.2⟩) fun _ d' h => hbound d' h
      · exact Nat.le_add_right _ _

/-- The size that the host announces with the first page. -/
def announced (P : Python) (host : Host) (asked : List HostRequest) : Nat :=
  match host asked (.scan .wifiScan) with
  | .ok page =>
      match scanSize P page with
      | .ok total => total.toNat
      | .error _ => 0
  | .error _ => 0

theorem scanSize_nonneg {page : Object} {total : Int} (h : scanSize P page = .ok total) : 0 ≤ total := by
  obtain ⟨value, -, h⟩ := except_bind_eq_ok.mp h
  cases value with
  | int n =>
      dsimp only at h
      split at h
      · next hgood =>
          cases h
          exact hgood.1
      · cases h
  | null | bool _ | float _ | str _ | arr _ | obj _ => cases h

/-- **Any scan** ends, after as many requests as there are entries announced, and with as many
records. -/
theorem scanRecords_bounded (P : Python) (host : Host) (d : Doings) :
    wp (scanRecords P host)
      (fun found d' => found.length = announced P host d.asked ∧
        d'.asked.length ≤ d.asked.length + max 1 (announced P host d.asked))
      (fun _ d' => d'.asked.length ≤ d.asked.length + max 1 (announced P host d.asked)) d := by
  have hask : (d.ask (.scan .wifiScan)).asked.length = d.asked.length + 1 := by
    rw [Doings.ask, List.length_append, List.length_singleton]
  have hone : (d.ask (.scan .wifiScan)).asked.length ≤
      d.asked.length + max 1 (announced P host d.asked) := by
    omega
  rw [scanRecords, wp_bind]
  refine wp_rpc (fun page hpage => ?_) fun _ _ => hone
  simp only [wp_bind]
  refine wp_fromExcept (fun scanID _ => wp_fromExcept (fun total htotal => ?_) fun _ _ => hone)
    fun _ _ => hone
  have hannounced : announced P host d.asked = total.toNat := by
    rw [announced, hpage]
    dsimp only
    rw [htotal]
  have hnonneg := scanSize_nonneg htotal
  rw [hannounced]
  refine wp_mono (scanTurns_bounded (List.length_nil : ([] : List BSS).length = 0) _) ?_ ?_
  · rintro found d' ⟨hfound, hasked⟩
    exact ⟨by omega, by omega⟩
  · intro _ d' hasked
    omega

end Bounded

/-- **Pagination is exact.**  A snapshot that the host keeps while it is read, and whose entries are all
parsed, comes to the guest entry by entry and in order, in pages of two.  Whatever the host's answers are,
a scan makes as many requests as there are entries announced and returns as many records or raises; and
more turns of its loop would change nothing. -/
theorem scan_pages (P : Python) :
    (∀ (B : Backend) (s : Stored) (parsed : List BSS), B.Keeps s → s.snapshot.entries.length ≤ 256 →
      s.snapshot.truncated = false → P.isUUID s.snapshot.id = true →
      s.snapshot.entries.mapM (parseBss P.isUUID) = .ok parsed →
      ∃ d, (scanRecords P (B.host s)).run ⟨[], []⟩ = .ok parsed d ∧
        d.asked.length = max 1 ((s.snapshot.entries.length + 1) / 2)) ∧
    ∀ host : Host,
      wp (scanRecords P host)
        (fun found d => found.length = announced P host [] ∧ d.asked.length ≤ max 1 (announced P host []))
        (fun _ d => d.asked.length ≤ max 1 (announced P host [])) ⟨[], []⟩ ∧
      ∀ scanID (total : Int) fuel page, total.toNat < fuel →
        scanTurns P host scanID total fuel page 0 [] =
          scanTurns P host scanID total (total.toNat + 1) page 0 [] := by
  refine ⟨fun B s parsed hkeeps hsize hcomplete huuid hparsed => ?_, fun host => ⟨?_, ?_⟩⟩
  · have hscan := scanRecords_snapshot hkeeps hsize hcomplete huuid hparsed ⟨[], []⟩
    cases hrun : (scanRecords P (B.host s)).run ⟨[], []⟩ with
    | ok found d =>
        obtain ⟨rfl, hasked⟩ := hscan.ok hrun
        exact ⟨d, rfl, by simpa using hasked⟩
    | error e d => exact (hscan.error hrun).elim
  · simpa using scanRecords_bounded P host ⟨[], []⟩
  · intro scanID total fuel page hfuel
    induction fuel, hfuel using Nat.le_induction with
    | base => rfl
    | succ fuel hle ih => rw [← ih, ← scanTurns_enough (by omega)]

/-- A snapshot of three entries for the one access point. -/
def threeEntries : Stored :=
  ⟨0, "00000000-0000-4000-8000-000000000002", [accessPoint, accessPoint, accessPoint], false⟩

/-- A host that keeps it. -/
def keepsThree : Backend :=
  ⟨fun text => text.length = 36, fun _ => 0, fun _ => [(threeEntries.snapshot.id, threeEntries)]⟩

def pointRecord : BSS :=
  ⟨"00000000-0000-4000-8000-000000000001", [65, 80], firstBssid, 2412, -6000, [0, 2, 65, 80], true⟩

theorem keeps_keepsThree : keepsThree.Keeps threeEntries := by
  refine ⟨by decide +kernel, fun asked => ?_⟩
  have hfresh : expireSnapshots 0 [(threeEntries.snapshot.id, threeEntries)] =
      [(threeEntries.snapshot.id, threeEntries)] := by
    rw [expireSnapshots, List.filter_cons_of_pos (by decide +kernel), List.filter_nil]
  change (expireSnapshots 0 [(threeEntries.snapshot.id, threeEntries)]).lookup _ = _
  rw [hfresh]
  exact List.lookup_cons_self

/-- Three entries come in two pages. -/
theorem scan_pages_three :
    ∃ d, (scanRecords plainPython (keepsThree.host threeEntries)).run ⟨[], []⟩ =
      .ok [pointRecord, pointRecord, pointRecord] d ∧ d.asked.length = 2 :=
  (scan_pages plainPython).1 keepsThree threeEntries _ keeps_keepsThree (by decide) rfl
    (by decide +kernel) (by decide +kernel)

end Ashacky.Wifi
