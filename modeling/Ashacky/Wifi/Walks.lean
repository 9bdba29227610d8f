import Ashacky.Support.Access
import Ashacky.Wifi.Security

/-!
# Wi-Fi — Walks

The element loops of `publish` and `report_link` and the cursor of `compatible_security`, byte by byte:
each reads only where it may, and what it makes of the bytes is what `Elements.lean` says.

A comparison reads all of its bytes.  Offsets do not wrap: the buffers are of 4096 bytes at most.

* `elementLoop_reads`: a loop over elements is a walk, and reads within the buffer.
* `rsnReads_reads`: the cursor stays within the RSN element, whatever it counts.
* `walkReport_iff`: what the loop of `report_link` accepts.
* `walks_in_bounds`: the above, together.
-/

namespace Ashacky.Wifi
open Ashacky.Support Access

variable {σ : Type}

/-! ### The loops -/

/-- The loop over the elements; a turn moves the offset on by two at least. -/
def elementLoop (ies : Data) (visit : Nat → σ → Access Errno σ) (offset : Nat) (s : σ) : Access Errno σ :=
  if h : offset < ies.length then
    if offset + 2 > ies.length then fail .EINVAL
    else do
      let length ← load ies (offset + 1)
      if offset + 2 + length.toNat > ies.length then fail .EINVAL
      else do
        let s ← visit offset s
        let length ← load ies (offset + 1)
        elementLoop ies visit (offset + 2 + length.toNat) s
  else pure s
termination_by ies.length - offset
decreasing_by omega

/-- The loop of `publish`. -/
def publishLoop (ies : Data) : Access Errno Unit := elementLoop ies (fun _ _ => pure ()) 0 ()

/-- The checks of `report_link` on an SSID element. -/
def ssidReads (ies : Data) (ssid : Block) (ssidLength : UInt8) (offset : Nat) (seen : Seen) :
    Access Errno Seen :=
  if seen.ssids + 1 ≠ 1 then fail .EINVAL
  else do
    let length ← load ies (offset + 1)
    if length ≠ ssidLength then fail .EINVAL
    else do
      let body ← loads ies (offset + 2) ssidLength.toNat
      if body ≠ ssid.front ssidLength.toNat then fail .EINVAL
      else pure ⟨seen.ssids + 1, seen.rsns⟩

/-- A turn of the loop of `report_link`. -/
def reportReads (ies : Data) (ssid : Block) (ssidLength : UInt8) (offset : Nat) (seen : Seen) :
    Access Errno Seen := do
  let id ← load ies offset
  let seen ← if id = eidSsid then ssidReads ies ssid ssidLength offset seen else pure seen
  let id ← load ies offset
  if id = eidRsn then
    if seen.rsns + 1 > 1 then fail .EINVAL else pure ⟨seen.ssids, seen.rsns + 1⟩
  else pure seen

/-- The loop of `report_link`. -/
def reportLoop (ssid : Block) (ssidLength : UInt8) (ies : Data) : Access Errno Seen :=
  elementLoop ies (reportReads ies ssid ssidLength) 0 ⟨0, 0⟩

/-! ### `compatible_security` -/

/-- `get_unaligned_le16`. -/
def le16Reads (ies : Data) (cursor : Nat) : Access Errno Nat := do
  let d ← loads ies cursor 2
  return leNat d

/-- The loops over the suites. -/
def suiteReads (ies suite : Data) : Nat → Nat → Bool → Access Errno (Bool × Nat)
  | 0, cursor, found => pure (found, cursor)
  | count + 1, cursor, found => do
      let d ← loads ies cursor 4
      suiteReads ies suite count (cursor + 4) (if d = suite then true else found)

/-- A list of suites: whether it holds the suite, and where it ends. -/
def suitesReads (ies suite : Data) (cursor finish : Nat) : Access Errno (Option Nat) := do
  let count ← le16Reads ies cursor
  if count = 0 ∨ count > (finish - (cursor + 2)) / 4 then pure none
  else do
    let (found, cursor) ← suiteReads ies suite count (cursor + 2) false
    pure (if found then some cursor else none)

/-- What stands behind the lists. -/
def capabilitiesReads (ies : Data) (cursor finish : Nat) : Access Errno Bool :=
  if cursor = finish then pure true
  else if finish - cursor < 2 then pure false
  else do
    let capabilities ← le16Reads ies cursor
    pure (capabilities &&& 64 = 0)

/-- What `compatible_security` asks of the RSN element that starts there. -/
def rsnReads (ies : Data) (rsn : Nat) : Access Errno Bool := do
  let length ← load ies (rsn + 1)
  if length.toNat < 18 then pure false
  else do
    let length ← load ies (rsn + 1)
    let cursor := rsn + 2
    let finish := cursor + length.toNat
    let version ← le16Reads ies cursor
    if version ≠ 1 then pure false
    else do
      let group ← loads ies (cursor + 2) 4
      if group ≠ ccmp then pure false
      else
        match ← suitesReads ies ccmp (cursor + 6) finish with
        | none => pure false
        | some cursor =>
            if finish - cursor < 2 then pure false
            else
              match ← suitesReads ies psk cursor finish with
              | none => pure false
              | some cursor => capabilitiesReads ies cursor finish

/-- `compatible_security`; `rsn` and `wpa` are what `cfg80211_find_ie` and `cfg80211_find_vendor_ie`
return, an address in the buffer or not. -/
def securityReads (ies : Data) (rsn : Option Nat) (wpa privacy : Bool) (capability : UInt16) :
    Access Errno Bool :=
  if isPrivate capability ≠ privacy then pure false
  else if !privacy then pure (rsn.isNone && !wpa)
  else
    match rsn with
    | none => pure false
    | some rsn => rsnReads ies rsn

/-! ### Elements in a buffer -/

/-- The element starts at this address of the buffer, and is complete. -/
def ElementAt (ies : Data) (start : Nat) (e : Element) : Prop := e.encode <+: ies.drop start

instance (ies : Data) (start : Nat) (e : Element) : Decidable (ElementAt ies start e) :=
  inferInstanceAs (Decidable (e.encode <+: ies.drop start))

namespace ElementAt

variable {ies : Data} {start : Nat} {e : Element}

/-- The first byte of an element is its identifier. -/
theorem id (h : ElementAt ies start e) : ies[start]? = some e.id := by
  obtain ⟨rest, hrest⟩ := h
  have hget := congrArg (·[0]?) hrest
  rw [List.getElem?_drop] at hget
  exact hget.symm

/-- The second byte of an element is its length. -/
theorem length (h : ElementAt ies start e) : ies[start + 1]? = some (UInt8.ofNat e.body.length) := by
  obtain ⟨rest, hrest⟩ := h
  have hget := congrArg (·[1]?) hrest
  rw [List.getElem?_drop] at hget
  exact hget.symm

/-- The body lies inside the elements. -/
theorem fits (h : ElementAt ies start e) : start + 2 + e.body.length ≤ ies.length := by
  have hle := h.length_le
  rw [Element.length_encode, List.length_drop] at hle
  omega

/-- A part of the body is the part of the elements at its place. -/
theorem slice (h : ElementAt ies start e) (i : Nat) {j : Nat} (hj : j ≤ e.body.length) :
    Support.slice ies (start + 2 + i) (start + 2 + j) = Support.slice e.body i j := by
  obtain ⟨rest, hrest⟩ := h
  have hdrop : ies.drop (start + 2) = e.body ++ rest := by
    rw [← List.drop_drop, ← hrest]
    rfl
  have hbody : Support.slice ies (start + 2 + i) (start + 2 + j) = Support.slice (e.body ++ rest) i j := by
    rw [Support.slice, Support.slice, ← hdrop, List.drop_drop, Nat.add_sub_add_left]
  rw [hbody, slice_append_left rest hj]

/-- The address determines the element. -/
theorem unique {f : Element} (h : ElementAt ies start e) (hf : ElementAt ies start f) : e = f := by
  obtain ⟨rest, hrest⟩ := h
  obtain ⟨rest', hrest'⟩ := hf
  have hnext := Element.next_encode e rest
  rw [hrest, ← hrest', Element.next_encode] at hnext
  exact (Prod.mk.inj (Option.some.inj hnext)).1.symm

end ElementAt

/-- What the walk takes next stands where the walk is. -/
theorem elementAt_of_next {ies rest : Data} {start : Nat} {e : Element}
    (h : Element.next (ies.drop start) = some (e, rest)) : ElementAt ies start e :=
  ⟨rest, (Element.next_eq_some h).symm⟩

section Next
variable {ies : Data} {offset : Nat} {b : UInt8}

/-- Without two bytes there is no next element. -/
theorem next_short (h : ies.length < offset + 2) : Element.next (ies.drop offset) = none := by
  have hshort : (ies.drop offset).length < 2 := by
    rw [List.length_drop]
    omega
  rcases hd : ies.drop offset with _ | ⟨x, _ | ⟨y, d⟩⟩
  · rfl
  · rfl
  · rw [hd, List.length_cons, List.length_cons] at hshort
    omega

/-- With a length byte there is an identifier before it. -/
theorem drop_two (hb : ies[offset + 1]? = some b) :
    ∃ x, ies.drop offset = x :: b :: ies.drop (offset + 2) := by
  obtain ⟨hlt, rfl⟩ := List.getElem?_eq_some_iff.mp hb
  exact ⟨_, by rw [List.drop_eq_getElem_cons (by omega), List.drop_eq_getElem_cons hlt]⟩

/-- An element that claims more than is left is none. -/
theorem next_long (hb : ies[offset + 1]? = some b) (h : ies.length < offset + 2 + b.toNat) :
    Element.next (ies.drop offset) = none := by
  obtain ⟨x, hd⟩ := drop_two hb
  rw [hd, Element.next, if_neg]
  rw [List.length_drop]
  have hlt := (List.getElem?_eq_some_iff.mp hb).1
  omega

/-- An element that fits is taken, and the walk goes on behind it. -/
theorem next_complete (hb : ies[offset + 1]? = some b) (h : offset + 2 + b.toNat ≤ ies.length) :
    ∃ e, Element.next (ies.drop offset) = some (e, ies.drop (offset + 2 + b.toNat)) := by
  obtain ⟨x, hd⟩ := drop_two hb
  have hfits : b.toNat ≤ (ies.drop (offset + 2)).length := by
    rw [List.length_drop]
    omega
  rw [hd, Element.next, if_pos hfits, List.drop_drop]
  exact ⟨_, rfl⟩

end Next

/-- **A loop over elements is a walk**, and reads within the buffer, if its turns do. -/
theorem elementLoop_reads {ies : Data} {visit : Nat → σ → Access Errno σ}
    {turn : σ → Element → Except Errno σ}
    (hvisit : ∀ offset s e, ElementAt ies offset e → ReadsIn 0 ies.length (visit offset s) (turn s e))
    (offset : Nat) (s : σ) :
    ReadsIn 0 ies.length (elementLoop ies visit offset s) (walk .EINVAL turn (ies.drop offset) s) := by
  rw [elementLoop]
  split
  · next hin =>
      have hne : ies.drop offset ≠ [] := by
        rw [Ne, List.drop_eq_nil_iff]
        omega
      rw [walk_next _ _ hne]
      split
      · next hshort =>
          rw [next_short hshort]
          exact readsIn_fail _
      · next hlong =>
          have hlt : offset + 1 < ies.length := by omega
          obtain ⟨b, hb⟩ : ∃ b, ies[offset + 1]? = some b := ⟨_, List.getElem?_eq_getElem hlt⟩
          refine (readsIn_load (Nat.zero_le _) hlt hb).bind ?_
          split
          · next hcut =>
              rw [next_long hb hcut]
              exact readsIn_fail _
          · next hfits =>
              obtain ⟨e, he⟩ := next_complete hb (Nat.le_of_not_lt hfits)
              rw [he]
              refine (hvisit _ _ _ (elementAt_of_next he)).andThen fun s' _ => ?_
              exact (readsIn_load (Nat.zero_le _) hlt hb).bind (elementLoop_reads hvisit _ s')
  · next hout =>
      rw [List.drop_eq_nil_of_le (Nat.le_of_not_lt hout)]
      exact readsIn_pure s
termination_by ies.length - offset

/-- The walk of `publish` reads inside the elements and answers as the walk of the list. -/
theorem publishLoop_reads (ies : Data) : ReadsIn 0 ies.length (publishLoop ies) (walkRecord ies) :=
  elementLoop_reads (fun _ _ _ _ => readsIn_pure _) 0 ()

/-- A network name must be the first, and that of the report. -/
theorem visitReport_ssid {ssid : Block} {ssidLength : UInt8} {seen : Seen} {e : Element}
    (h : e.id = eidSsid) :
    visitReport ssid ssidLength seen e =
      if seen.ssids + 1 ≠ 1 ∨ e.body.length ≠ ssidLength.toNat ∨
          e.body.take ssidLength.toNat ≠ ssid.front ssidLength.toNat then .error .EINVAL
      else .ok ⟨seen.ssids + 1, seen.rsns⟩ := by
  have hrsn : e.id ≠ eidRsn := h ▸ (by decide)
  simp only [visitReport, h, if_true, true_and, (h ▸ hrsn : eidSsid ≠ eidRsn), false_and, if_false]

/-- The walk of a report counts RSN elements, and passes over the rest. -/
theorem visitReport_other {ssid : Block} {ssidLength : UInt8} {seen : Seen} {e : Element}
    (h : e.id ≠ eidSsid) :
    visitReport ssid ssidLength seen e =
      if e.id = eidRsn then
        if seen.rsns + 1 > 1 then .error .EINVAL else .ok ⟨seen.ssids, seen.rsns + 1⟩
      else .ok seen := by
  by_cases hrsn : e.id = eidRsn
  · have hne : eidRsn ≠ eidSsid := by decide
    simp only [visitReport, hrsn, hne, false_and, if_false, if_true, true_and]
  · simp only [visitReport, h, hrsn, false_and, if_false]

/-- The SSID element is compared within its body. -/
theorem ssidReads_reads {ies : Data} (ssid : Block) (ssidLength : UInt8) {offset : Nat} (seen : Seen)
    {e : Element} (he : ElementAt ies offset e) (hid : e.id = eidSsid) :
    ReadsIn 0 ies.length (ssidReads ies ssid ssidLength offset seen) (visitReport ssid ssidLength seen e) := by
  have hfits := he.fits
  have hlength : (UInt8.ofNat e.body.length).toNat = e.body.length := by
    rw [UInt8.toNat_ofNat', Nat.mod_eq_of_lt e.short]
  rw [visitReport_ssid hid, ssidReads]
  by_cases hfirst : seen.ssids + 1 ≠ 1
  · rw [if_pos hfirst, if_pos (.inl hfirst)]
    exact readsIn_fail _
  · rw [if_neg hfirst]
    refine (readsIn_load (Nat.zero_le _) (by omega) he.length).bind ?_
    by_cases hlong : UInt8.ofNat e.body.length ≠ ssidLength
    · have hne : e.body.length ≠ ssidLength.toNat := fun heq => hlong (UInt8.toNat_inj.mp (hlength.trans heq))
      rw [if_pos hlong, if_pos (.inr (.inl hne))]
      exact readsIn_fail _
    · have heq : e.body.length = ssidLength.toNat := hlength.symm.trans (congrArg _ (not_not.mp hlong))
      have hbody : slice ies (offset + 2) (offset + 2 + ssidLength.toNat) = e.body.take ssidLength.toNat := by
        have hslice := he.slice 0 heq.ge
        rw [Nat.add_zero] at hslice
        rw [hslice, slice, List.drop_zero, Nat.sub_zero]
      rw [if_neg hlong]
      refine (readsIn_loads (Nat.zero_le _) (by omega) (by omega)).bind ?_
      rw [hbody]
      by_cases hother : e.body.take ssidLength.toNat ≠ ssid.front ssidLength.toNat
      · rw [if_pos hother, if_pos (.inr (.inr hother))]
        exact readsIn_fail _
      · rw [if_neg hother, if_neg]
        · exact readsIn_pure _
        · rintro (h | h | h)
          · exact hfirst h
          · exact h heq
          · exact hother h

/-- A turn of the loop of `report_link`. -/
theorem reportReads_reads {ies : Data} (ssid : Block) (ssidLength : UInt8) (offset : Nat) (seen : Seen)
    (e : Element) (he : ElementAt ies offset e) :
    ReadsIn 0 ies.length (reportReads ies ssid ssidLength offset seen) (visitReport ssid ssidLength seen e) := by
  have hfits := he.fits
  have hload : ReadsIn 0 ies.length (load ies offset : Access Errno UInt8) (.ok e.id) :=
    readsIn_load (Nat.zero_le _) (by omega) he.id
  refine hload.bind ?_
  by_cases hid : e.id = eidSsid
  · rw [if_pos hid]
    have hssid := ssidReads_reads ssid ssidLength seen he hid
    cases hvisit : visitReport ssid ssidLength seen e with
    | error x => exact ReadsIn.fails (hvisit ▸ hssid)
    | ok seen' =>
        -- An SSID element is none of the RSN elements.
        refine ReadsIn.bind (hvisit ▸ hssid) (hload.bind ?_)
        rw [if_neg (by rw [hid]; decide)]
        exact readsIn_pure _
  · rw [if_neg hid, visitReport_other hid]
    refine (readsIn_pure seen).bind (hload.bind ?_)
    split
    · split
      · exact readsIn_fail _
      · exact readsIn_pure _
    · exact readsIn_pure _

/-- The walk of a report reads inside the elements and answers as the walk of the list. -/
theorem reportLoop_reads (ssid : Block) (ssidLength : UInt8) (ies : Data) :
    ReadsIn 0 ies.length (reportLoop ssid ssidLength ies) (walkReport ssid ssidLength ies) :=
  elementLoop_reads (reportReads_reads ssid ssidLength) 0 ⟨0, 0⟩

/-! ### The cursor -/

section Cursor
variable {ies : Data} {rsn : Nat} {e : Element}

/-- A 16-bit number is read inside the element. -/
theorem le16Reads_reads (he : ElementAt ies rsn e) {k : Nat} (hk : k + 2 ≤ e.body.length) :
    ReadsIn rsn (rsn + 2 + e.body.length) (le16Reads ies (rsn + 2 + k)) (.ok (le16 e.body k)) := by
  have hfits := he.fits
  have hslice := he.slice k hk
  refine (readsIn_loads (by omega) (by omega) (by omega)).bind ?_
  rw [Nat.add_assoc (rsn + 2), hslice]
  exact readsIn_pure _

/-- The suites are read inside the element, and searched for the one that is wanted. -/
theorem suiteReads_reads (he : ElementAt ies rsn e) (suite : Data) {count k : Nat} (found : Bool)
    (hk : k + 4 * count ≤ e.body.length) :
    ReadsIn rsn (rsn + 2 + e.body.length) (suiteReads ies suite count (rsn + 2 + k) found)
      (.ok ((findSuite e.body suite count k found).1, rsn + 2 + (k + 4 * count))) := by
  have hfits := he.fits
  induction count generalizing k found with
  | zero => exact readsIn_pure _
  | succ count ih =>
      have hslice := he.slice k (j := k + 4) (by omega)
      rw [suiteReads, findSuite]
      refine (readsIn_loads (by omega) (by omega) (by omega)).bind ?_
      rw [Nat.add_assoc (rsn + 2), hslice, show k + 4 * (count + 1) = k + 4 + 4 * count by omega]
      exact ih _ (by omega)

/-- A list of suites must be there, not be empty, fit and hold the suite that is wanted. -/
theorem requireSuite_eq (body suite : Data) {k : Nat} (hk : k + 2 ≤ body.length) :
    requireSuite body suite k =
      if le16 body k = 0 ∨ le16 body k > (body.length - (k + 2)) / 4 then none
      else if suite ∉ suites body (k + 2) (le16 body k) then none
      else some (k + 2 + 4 * le16 body k) := by
  rw [requireSuite, if_neg (Nat.not_lt.mpr hk), Nat.mul_comm 4]
  simp only [Bool.not_eq_true', List.contains_eq_mem, decide_eq_false_iff_not]
  rfl

/-- The list of suites is read up to its count, which fits into what is left. -/
theorem suitesReads_reads (he : ElementAt ies rsn e) (suite : Data) {k : Nat} (hk : k + 2 ≤ e.body.length) :
    ReadsIn rsn (rsn + 2 + e.body.length)
      (suitesReads ies suite (rsn + 2 + k) (rsn + 2 + e.body.length))
      (.ok ((requireSuite e.body suite k).map (rsn + 2 + ·))) := by
  have hroom : rsn + 2 + e.body.length - (rsn + 2 + k + 2) = e.body.length - (k + 2) := by omega
  refine (le16Reads_reads he hk).bind ?_
  rw [hroom, requireSuite_eq _ _ hk]
  by_cases hcount : le16 e.body k = 0 ∨ le16 e.body k > (e.body.length - (k + 2)) / 4
  · rw [if_pos hcount, if_pos hcount]
    exact readsIn_pure _
  · rw [if_neg hcount, if_neg hcount]
    have hin : k + 2 + 4 * le16 e.body k ≤ e.body.length := by omega
    refine (suiteReads_reads he suite false hin).bind ?_
    rw [findSuite_eq, Bool.false_or]
    by_cases hmem : suite ∈ suites e.body (k + 2) (le16 e.body k)
    · rw [if_neg (not_not.mpr hmem), decide_eq_true hmem]
      exact readsIn_pure _
    · rw [if_pos hmem, decide_eq_false hmem]
      exact readsIn_pure _

/-- What follows a list of suites starts inside the element. -/
theorem requireSuite_le {body suite : Data} {k next : Nat} (h : requireSuite body suite k = some next) :
    next ≤ body.length := by
  obtain ⟨hin, -, hcount, -, rfl⟩ := requireSuite_eq_some.mp h
  omega

/-- The capabilities are read inside the element, where there are any. -/
theorem capabilitiesReads_reads (he : ElementAt ies rsn e) {k : Nat} (hk : k ≤ e.body.length) :
    ReadsIn rsn (rsn + 2 + e.body.length)
      (capabilitiesReads ies (rsn + 2 + k) (rsn + 2 + e.body.length))
      (.ok (k = e.body.length || (e.body.length - k ≥ 2 && le16 e.body k &&& 64 = 0))) := by
  rw [capabilitiesReads, Nat.add_sub_add_left]
  by_cases hend : k = e.body.length
  · rw [if_pos (congrArg _ hend), decide_eq_true hend, Bool.true_or]
    exact readsIn_pure _
  · rw [if_neg (fun h => hend (Nat.add_left_cancel h)), decide_eq_false hend, Bool.false_or]
    by_cases hroom : e.body.length - k < 2
    · rw [if_pos hroom, decide_eq_false (Nat.not_le.mpr hroom), Bool.false_and]
      exact readsIn_pure _
    · rw [if_neg hroom, decide_eq_true (Nat.le_of_not_lt hroom), Bool.true_and]
      exact (le16Reads_reads he (by omega)).bind (readsIn_pure _)

/-- **The cursor stays within the RSN element**, whatever its bytes and the counts in them. -/
theorem rsnReads_reads (he : ElementAt ies rsn e) :
    ReadsIn rsn (rsn + 2 + e.body.length) (rsnReads ies rsn) (.ok (compatibleRsn e.body)) := by
  have hfits := he.fits
  have hlength : (UInt8.ofNat e.body.length).toNat = e.body.length := by
    rw [UInt8.toNat_ofNat', Nat.mod_eq_of_lt e.short]
  have hload : ReadsIn rsn (rsn + 2 + e.body.length) (load ies (rsn + 1) : Access Errno UInt8)
      (.ok (UInt8.ofNat e.body.length)) := readsIn_load (by omega) (by omega) he.length
  rw [compatibleRsn_eq, compatibleValue]
  refine hload.bind ?_
  rw [hlength]
  by_cases hshort : e.body.length < 18
  · rw [if_pos hshort, if_pos (.inl hshort)]
    exact readsIn_pure _
  rw [if_neg hshort]
  have hlong : 18 ≤ e.body.length := Nat.le_of_not_lt hshort
  refine hload.bind ?_
  rw [hlength]
  refine (le16Reads_reads he (k := 0) (by omega)).bind ?_
  have hversion : le16 e.body 0 ≠ 1 ↔ slice e.body 0 2 ≠ [1, 0] := not_congr (le16_eq_one (by omega))
  by_cases hother : le16 e.body 0 ≠ 1
  · rw [if_pos hother, if_pos (.inr (.inl (hversion.mp hother)))]
    exact readsIn_pure _
  rw [if_neg hother]
  have hgroup : slice ies (rsn + 2 + 2) (rsn + 2 + 2 + 4) = slice e.body 2 6 :=
    he.slice 2 (j := 6) (by omega)
  refine (readsIn_loads (by omega) (by omega) (by omega)).bind ?_
  rw [hgroup]
  by_cases hcipher : slice e.body 2 6 ≠ ccmp
  · rw [if_pos hcipher, if_pos (.inr (.inr hcipher))]
    exact readsIn_pure _
  rw [if_neg hcipher, if_neg (by tauto)]
  refine (suitesReads_reads he ccmp (k := 6) (by omega)).bind ?_
  cases hccmp : requireSuite e.body ccmp 6 with
  | none => exact readsIn_pure _
  | some next =>
      -- The list of key suites begins where that of the ciphers ends.
      have hnext := requireSuite_le hccmp
      rw [Option.map_some]
      dsimp only
      rw [Nat.add_sub_add_left]
      by_cases hroom : e.body.length - next < 2
      · -- No room for a count: the guest's reader says so where it reads one.
        have hnone : requireSuite e.body psk next = none := by rw [requireSuite, if_pos (by omega)]
        rw [if_pos hroom, hnone]
        exact readsIn_pure _
      · rw [if_neg hroom]
        refine (suitesReads_reads he psk (k := next) (by omega)).bind ?_
        cases hpsk : requireSuite e.body psk next with
        | none => exact readsIn_pure _
        | some last => exact capabilitiesReads_reads he (requireSuite_le hpsk)

/-- `compatible_security`, where the lookup found the element. -/
theorem securityReads_some (he : ElementAt ies rsn e) (wpa privacy : Bool) (capability : UInt16) :
    ReadsIn rsn (rsn + 2 + e.body.length) (securityReads ies (some rsn) wpa privacy capability)
      (.ok (isPrivate capability = privacy && privacy && compatibleRsn e.body)) := by
  rw [securityReads]
  by_cases hprivate : isPrivate capability = privacy
  · rw [if_neg (not_not.mpr hprivate), decide_eq_true hprivate, Bool.true_and]
    cases privacy with
    | true => exact rsnReads_reads he
    | false => exact readsIn_pure _
  · rw [if_pos hprivate, decide_eq_false hprivate]
    exact readsIn_pure _

/-- Where it found none, no byte is read. -/
theorem securityReads_none (wpa privacy : Bool) (capability : UInt16) :
    ReadsIn 0 0 (securityReads ies none wpa privacy capability)
      (.ok (isPrivate capability = privacy && !privacy && !wpa)) := by
  rw [securityReads]
  by_cases hprivate : isPrivate capability = privacy
  · rw [if_neg (not_not.mpr hprivate), decide_eq_true hprivate, Bool.true_and]
    cases privacy <;> exact readsIn_pure _
  · rw [if_pos hprivate, decide_eq_false hprivate]
    exact readsIn_pure _

/-- Where `cfg80211_find_ie` finds that element, the answer is that of `compatibleSecurity`. -/
theorem securityReads_eq (he : ElementAt ies rsn e) (hfind : findIe eidRsn ies = some e) (wpa privacy : Bool)
    (capability : UInt16) :
    ReadsIn rsn (rsn + 2 + e.body.length) (securityReads ies (some rsn) wpa privacy capability)
      (.ok (compatibleSecurity ies privacy capability)) := by
  have hanswer : compatibleSecurity ies privacy capability =
      (isPrivate capability = privacy && privacy && compatibleRsn e.body) := by
    rw [compatibleSecurity, hfind]
    by_cases hprivate : isPrivate capability = privacy
    · cases privacy <;> simp [hprivate]
    · simp [hprivate]
  rw [hanswer]
  exact securityReads_some he wpa privacy capability

end Cursor

/-! ### What the loops accept -/

/-- The byte string is a concatenation of complete elements. -/
def Complete (ies : Data) : Prop := ∃ es : List Element, ies = es.flatMap Element.encode

/-- The walk of `publish` ends well exactly when the elements are complete. -/
theorem walkRecord_iff {ies : Data} : (∃ s, walkRecord ies = .ok s) ↔ Complete ies := by
  have hvisits : ∀ es : List Element, es.foldlM (fun _ _ => .ok ()) () = (.ok () : Except Errno Unit) := by
    intro es
    induction es with
    | nil => rfl
    | cons e es ih => exact ih
  constructor
  · rintro ⟨s, h⟩
    obtain ⟨es, hies, -⟩ := (walk_eq_ok _ _).mp h
    exact ⟨es, hies⟩
  · rintro ⟨es, rfl⟩
    exact ⟨(), (walk_eq_ok _ _).mpr ⟨es, rfl, hvisits es⟩⟩

/-- The network name of an SSID element is the one the report is about. -/
def Names (ssid : Block) (ssidLength : UInt8) (name : Data) : Prop :=
  name.length = ssidLength.toNat ∧ name = ssid.front ssidLength.toNat

/-- The elements of a report: at most one SSID element, with that name, and at most one RSN
element. -/
def Reportable (ssid : Block) (ssidLength : UInt8) (ies : Data) : Prop :=
  ∃ es : List Element, ies = es.flatMap Element.encode ∧
    (bodies eidSsid es).length ≤ 1 ∧ (∀ name ∈ bodies eidSsid es, Names ssid ssidLength name) ∧
    (bodies eidRsn es).length ≤ 1

section Accepted
variable {ssid : Block} {ssidLength : UInt8}

/-- A turn on an SSID element. -/
theorem visitReport_ssid_ok {seen seen' : Seen} {e : Element} (h : e.id = eidSsid) :
    visitReport ssid ssidLength seen e = .ok seen' ↔
      seen.ssids = 0 ∧ Names ssid ssidLength e.body ∧ seen' = ⟨1, seen.rsns⟩ := by
  rw [visitReport_ssid h]
  split
  · next hbad =>
      refine ⟨nofun, ?_⟩
      rintro ⟨hfirst, ⟨hlength, hname⟩, -⟩
      rcases hbad with hbad | hbad | hbad
      · exact absurd (congrArg (· + 1) hfirst) hbad
      · exact absurd hlength hbad
      · exact absurd (by rw [← hlength, List.take_length, hlength, ← hname]) hbad
  · next hgood =>
      simp only [not_or, not_not] at hgood
      obtain ⟨hfirst, hlength, hname⟩ := hgood
      have hbody : e.body = ssid.front ssidLength.toNat := by
        rw [← hname, ← hlength, List.take_length]
      rw [hfirst]
      constructor
      · intro h
        cases h
        exact ⟨Nat.succ.inj hfirst, ⟨hlength, hbody⟩, rfl⟩
      · rintro ⟨-, -, rfl⟩
        rfl

/-- **What the loop of `report_link` accepts**, from given counts on. -/
theorem foldlM_visitReport_iff (es : List Element) (seen seen' : Seen) (hssids : seen.ssids ≤ 1)
    (hrsns : seen.rsns ≤ 1) :
    es.foldlM (visitReport ssid ssidLength) seen = .ok seen' ↔
      seen.ssids + (bodies eidSsid es).length ≤ 1 ∧ (∀ name ∈ bodies eidSsid es, Names ssid ssidLength name) ∧
      seen.rsns + (bodies eidRsn es).length ≤ 1 ∧
      seen' = ⟨seen.ssids + (bodies eidSsid es).length, seen.rsns + (bodies eidRsn es).length⟩ := by
  -- The counts grow along the list, and the loop fails where one would pass one.
  induction es generalizing seen with
  | nil =>
      rw [bodies_nil, bodies_nil]
      constructor
      · intro h
        cases h
        exact ⟨hssids, nofun, hrsns, rfl⟩
      · rintro ⟨-, -, -, rfl⟩
        rfl
  | cons e es ih =>
      have hne : eidSsid ≠ eidRsn := by decide
      rw [List.foldlM_cons, bodies_cons, bodies_cons, except_bind_eq_ok]
      by_cases hssid : e.id = eidSsid
      · rw [if_pos hssid, if_neg (hssid ▸ hne)]
        simp only [visitReport_ssid_ok hssid, List.length_cons, List.forall_mem_cons]
        have hlater := ih ⟨1, seen.rsns⟩ (Nat.le_refl 1) hrsns
        dsimp only at hlater
        constructor
        · rintro ⟨_, ⟨hfirst, hname, rfl⟩, hrest⟩
          obtain ⟨h₁, h₂, h₃, rfl⟩ := hlater.mp hrest
          exact ⟨by omega, ⟨hname, h₂⟩, h₃, by rw [hfirst]; congr 1; omega⟩
        · rintro ⟨h₁, ⟨hname, h₂⟩, h₃, rfl⟩
          refine ⟨_, ⟨by omega, hname, rfl⟩, hlater.mpr ⟨by omega, h₂, h₃, ?_⟩⟩
          congr 1
          omega
      · rw [if_neg hssid]
        simp only [visitReport_other hssid]
        by_cases hrsn : e.id = eidRsn
        · rw [if_pos hrsn]
          simp only [hrsn, if_true, List.length_cons]
          have hlater := ih ⟨seen.ssids, seen.rsns + 1⟩ hssids
          dsimp only at hlater
          constructor
          · rintro ⟨_, hvisit, hrest⟩
            split at hvisit
            · cases hvisit
            · next hfirst =>
                cases hvisit
                obtain ⟨h₁, h₂, h₃, rfl⟩ := (hlater (Nat.le_of_not_lt hfirst)).mp hrest
                exact ⟨h₁, h₂, by omega, by congr 1; omega⟩
          · rintro ⟨h₁, h₂, h₃, rfl⟩
            refine ⟨_, if_neg (by omega), (hlater (by omega)).mpr ⟨h₁, h₂, by omega, ?_⟩⟩
            congr 1
            omega
        · rw [if_neg hrsn]
          simp only [hrsn, if_false]
          constructor
          · rintro ⟨_, hvisit, hrest⟩
            cases hvisit
            exact (ih _ hssids hrsns).mp hrest
          · exact fun h => ⟨_, rfl, (ih _ hssids hrsns).mpr h⟩

/-- The walk of a report ends well exactly when the elements can be reported. -/
theorem walkReport_iff {ies : Data} :
    (∃ seen, walkReport ssid ssidLength ies = .ok seen) ↔ Reportable ssid ssidLength ies := by
  have hfold : ∀ (es : List Element) (seen : Seen),
      es.foldlM (visitReport ssid ssidLength) ⟨0, 0⟩ = .ok seen ↔ _ :=
    fun es seen => foldlM_visitReport_iff es ⟨0, 0⟩ seen (Nat.zero_le 1) (Nat.zero_le 1)
  simp only [Nat.zero_add] at hfold
  constructor
  · rintro ⟨seen, h⟩
    obtain ⟨es, hies, hes⟩ := (walk_eq_ok _ _).mp h
    obtain ⟨h₁, h₂, h₃, -⟩ := (hfold es seen).mp hes
    exact ⟨es, hies, h₁, h₂, h₃⟩
  · rintro ⟨es, hies, h₁, h₂, h₃⟩
    exact ⟨_, (walk_eq_ok _ _).mpr ⟨es, hies, (hfold es _).mpr ⟨h₁, h₂, h₃, rfl⟩⟩⟩

end Accepted

/-- **The walks stay in bounds.**  They end for all bytes, and read within the buffer.  The loop of
`publish` accepts the concatenations of complete elements, that of `report_link` those which name
the network and its security once at most; and `compatible_security` reads within the RSN element
that is found. -/
theorem walks_in_bounds (ies : Data) (ssid : Block) (ssidLength : UInt8) :
    (∃ r, ReadsIn 0 ies.length (publishLoop ies) r ∧ ((∃ s, r = .ok s) ↔ Complete ies)) ∧
    (∃ r, ReadsIn 0 ies.length (reportLoop ssid ssidLength ies) r ∧
      ((∃ s, r = .ok s) ↔ Reportable ssid ssidLength ies)) ∧
    ∀ (rsn : Option Nat) (wpa privacy : Bool) (capability : UInt16),
      (∀ start, rsn = some start → ∃ e, ElementAt ies start e) →
      ∃ answer, ReadsIn 0 ies.length (securityReads ies rsn wpa privacy capability) (.ok answer) ∧
        ∀ start e, rsn = some start → ElementAt ies start e →
          ReadsIn start (start + 2 + e.body.length) (securityReads ies rsn wpa privacy capability)
            (.ok answer) := by
  refine ⟨⟨_, publishLoop_reads ies, walkRecord_iff⟩, ⟨_, reportLoop_reads ssid ssidLength ies, walkReport_iff⟩, ?_⟩
  intro rsn wpa privacy capability hrsn
  cases rsn with
  | none =>
      exact ⟨_, (securityReads_none wpa privacy capability).mono (Nat.le_refl 0) (Nat.zero_le _), nofun⟩
  | some start =>
      obtain ⟨e, he⟩ := hrsn start rfl
      refine ⟨_, (securityReads_some he wpa privacy capability).mono (Nat.zero_le _) he.fits, ?_⟩
      rintro _ f ⟨⟩ hf
      rw [he.unique hf]
      exact securityReads_some hf wpa privacy capability

/-- A report with a name of one byte and an RSN element of the contract. -/
def homeReport : Data :=
  [0, 1, 104] ++ [48, 20, 1, 0, 0, 15, 172, 4, 1, 0, 0, 15, 172, 4, 1, 0, 0, 15, 172, 2, 0, 0]

/-- The walk of the sample report reads its 25 bytes and not one more. -/
theorem walks_in_bounds_home :
    ∃ answer, ReadsIn 0 25 (securityReads homeReport (some 3) false true 0x11) (.ok answer) ∧
      ∀ start e, some 3 = some start → ElementAt homeReport start e →
        ReadsIn start (start + 2 + e.body.length) (securityReads homeReport (some 3) false true 0x11)
          (.ok answer) := by
  refine (walks_in_bounds homeReport .zero 1).2.2 (some 3) false true 0x11 ?_
  rintro _ ⟨⟩
  exact ⟨⟨48, homeReport.drop 5, by decide⟩, by decide⟩

/-- Two RSN elements, each of them complete: `report_link` refuses them. -/
theorem two_rsns_refused :
    Complete [48, 0, 48, 0] ∧ ReadsIn 0 4 (reportLoop .zero 0 [48, 0, 48, 0]) (.error .EINVAL) := by
  have hrefused : walkReport .zero 0 [48, 0, 48, 0] = .error .EINVAL := by decide
  exact ⟨⟨[⟨48, [], by decide⟩, ⟨48, [], by decide⟩], rfl⟩, hrefused ▸ reportLoop_reads .zero 0 [48, 0, 48, 0]⟩

end Ashacky.Wifi
