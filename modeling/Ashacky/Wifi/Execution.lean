import Ashacky.Wifi.Association
import Ashacky.Wifi.Readiness
import Ashacky.Wifi.Connection

/-!
# Wi-Fi — a request is executed once and reported truthfully

What a success of `handle_connection` means, how often it asks the host to connect, and what the
kernel answers to the result that `serve` submits.

* `handleConnection_wp`: a connect succeeds only when the host is associated as requested, and asks
  the host to connect at most once, whatever the host answers.
* `serveConnection_ends`: after a turn the request is not pending any more.
* `serveConnection_answer`: the result is accepted or late, while the numbers of the driver's requests
  tell them apart.
* `connection_once`.
* `recurring_number_refused`: after `2 ^ 32 - 1` other requests the number comes back, and the result
  meets another request.
-/

namespace Ashacky.Wifi
open Ashacky.Support Ashacky.Control

/-! ### What the host is asked -/

def HostRequest.isConnect : HostRequest → Bool
  | .wifiConnect _ _ => true
  | _ => false

/-- How often the host was asked to connect. -/
def connects (s : Doings) : Nat := s.asked.countP HostRequest.isConnect

def Doings.ask (s : Doings) (request : HostRequest) : Doings :=
  { s with asked := s.asked ++ [request] }

/-- Other requests were made, and nothing was published. -/
structure Watched (s s' : Doings) : Prop where
  asked : ∃ u, s'.asked = s.asked ++ u ∧ ∀ r ∈ u, r.isConnect = false
  published : s'.published = s.published

theorem Watched.refl (s : Doings) : Watched s s := ⟨⟨[], by simp, nofun⟩, rfl⟩

/-- Stretches without a connect request compose. -/
theorem Watched.trans {s₁ s₂ s₃ : Doings} (h₁ : Watched s₁ s₂) (h₂ : Watched s₂ s₃) :
    Watched s₁ s₃ := by
  obtain ⟨⟨u, hu, hu'⟩, hp⟩ := h₁
  obtain ⟨⟨v, hv, hv'⟩, hq⟩ := h₂
  refine ⟨⟨u ++ v, by rw [hv, hu, List.append_assoc], fun r hr => ?_⟩, hq.trans hp⟩
  rcases List.mem_append.mp hr with hr | hr
  · exact hu' r hr
  · exact hv' r hr

/-- Asking the host for anything but a connection is such a stretch. -/
theorem Watched.ask (s : Doings) (request : HostRequest) (h : request.isConnect = false) :
    Watched s (s.ask request) :=
  ⟨⟨[request], rfl, fun _ hr => List.mem_singleton.mp hr ▸ h⟩, rfl⟩

/-- No connection is asked for in it. -/
theorem Watched.connects {s s' : Doings} (h : Watched s s') : connects s' = connects s := by
  obtain ⟨⟨u, hu, hother⟩, -⟩ := h
  have hzero : u.countP HostRequest.isConnect = 0 :=
    List.countP_eq_zero.mpr fun r hr => by simp [hother r hr]
  rw [Wifi.connects, Wifi.connects, hu, List.countP_append, hzero, Nat.add_zero]

/-- What was asked of the host before stays asked. -/
theorem Watched.isPrefix {s s' : Doings} (h : Watched s s') : s.asked <+: s'.asked := by
  obtain ⟨⟨u, hu, -⟩, -⟩ := h
  exact ⟨u, hu.symm⟩

variable {P : Python} {host : Host}

/-- A request ends with the reply of the host, or raises what it raises. -/
theorem wp_rpc {request : HostRequest} {Q : Object → Doings → Prop} {E : Raised → Doings → Prop}
    {s : Doings} (hQ : ∀ reply, host s.asked request = .ok reply → Q reply (s.ask request))
    (hE : ∀ e, host s.asked request = .error e → E e (s.ask request)) :
    wp (host.rpc request) Q E s := by
  simp only [wp, Host.rpc, EStateM.run]
  cases h : host s.asked request with
  | ok reply => exact hQ reply h
  | error e => exact hE e h

/-- A scan asks for pages only. -/
theorem scanTurns_wp {scanID : String} {total : Int} {fuel : Nat} {page : Object} {offset : Nat}
    {records : List BSS} (s : Doings) :
    wp (scanTurns P host scanID total fuel page offset records) (fun _ s' => Watched s s')
      (fun _ s' => Watched s s') s := by
  induction fuel generalizing page offset records s with
  | zero => exact .refl s
  | succ fuel ih =>
      simp only [scanTurns, wp_bind]
      refine wp_fromExcept (fun entries _ => ?_) fun _ _ => .refl s
      refine wp_fromExcept (fun parsed _ => ?_) fun _ _ => .refl s
      have hend : wp (if ((offset + entries.length : Nat) : Int) ≠ total then
          throw (.valueError "Incomplete scan") else pure (records ++ parsed) : Errand (List BSS))
          (fun _ s' => Watched s s') (fun _ s' => Watched s s') s :=
        wp_ite (fun _ => .refl s) fun _ => .refl s
      split
      · exact hend
      · exact hend
      · refine wp_ite (fun _ => .refl s) fun _ => ?_
        rw [wp_bind]
        have hasked := Watched.ask s (.scan (.wifiScanPage scanID (offset + entries.length))) rfl
        refine wp_rpc (fun page _ => ?_) fun _ _ => hasked
        exact wp_mono (ih _) (fun _ _ h => hasked.trans h) fun _ _ h => hasked.trans h
      · exact .refl s

/-- A scan asks for no connection, whether it ends well or not. -/
theorem scanRecords_wp (s : Doings) :
    wp (scanRecords P host) (fun _ s' => Watched s s') (fun _ s' => Watched s s') s := by
  have hasked := Watched.ask s (.scan .wifiScan) rfl
  simp only [scanRecords, wp_bind]
  refine wp_rpc (fun page _ => ?_) fun _ _ => hasked
  refine wp_fromExcept (fun scanID _ => wp_fromExcept (fun total _ => ?_) fun _ _ => hasked)
    fun _ _ => hasked
  exact wp_mono (scanTurns_wp _) (fun _ _ h => hasked.trans h) fun _ _ h => hasked.trans h

/-! ### The scan -/

/-- A scan has as many turns as it may need. -/
theorem scanTurns_enough {scanID : String} {total : Int} {fuel : Nat} {page : Object} {offset : Nat}
    {records : List BSS} (h : total.toNat - offset < fuel) :
    scanTurns P host scanID total fuel page offset records =
      scanTurns P host scanID total (fuel + 1) page offset records := by
  induction fuel generalizing page offset records with
  | zero => exact absurd h (Nat.not_lt_zero _)
  | succ fuel ih =>
      rw [scanTurns, scanTurns]
      refine congrArg _ (funext fun entries => congrArg _ (funext fun parsed => ?_))
      dsimp only
      split
      · rfl
      · rfl
      · split
        · rfl
        · next hcursor =>
            simp only [not_or, not_not, List.isEmpty_iff] at hcursor
            obtain ⟨rfl, hne, hlt⟩ := hcursor
            have hpos : 0 < entries.length := List.length_pos_iff.mpr hne
            exact congrArg _ (funext fun page => ih (by omega))
      · rfl

/-- A host whose pages do not depend on what it was asked before is read as by `scanLoop`. -/
theorem scanTurns_agrees {ask : Request → Except Raised Object}
    (hhost : ∀ asked request, host asked (.scan request) = ask request) {scanID : String} {total : Int}
    {fuel : Nat} {page : Object} {offset : Nat} {records : List BSS} (s : Doings) :
    wp (scanTurns P host scanID total fuel page offset records)
      (fun found _ => scanLoop P ask scanID total fuel page offset records = .ok found)
      (fun e _ => scanLoop P ask scanID total fuel page offset records = .error e) s := by
  induction fuel generalizing page offset records s with
  | zero => exact rfl
  | succ fuel ih =>
      simp only [scanTurns, wp_bind, scanLoop]
      refine wp_fromExcept (fun entries hentries => ?_) fun e he => by rw [he]; rfl
      simp only [hentries, bind, Except.bind]
      refine wp_fromExcept (fun parsed hparsed => ?_) fun e he => by rw [he]
      rw [hparsed]
      dsimp only
      have hend : wp (if ((offset + entries.length : Nat) : Int) ≠ total then
            throw (.valueError "Incomplete scan") else pure (records ++ parsed) : Errand (List BSS))
          (fun found _ => (if ((offset + entries.length : Nat) : Int) ≠ total then
            .error (.valueError "Incomplete scan") else .ok (records ++ parsed) :
              Except Raised (List BSS)) = .ok found)
          (fun e _ => (if ((offset + entries.length : Nat) : Int) ≠ total then
            .error (.valueError "Incomplete scan") else .ok (records ++ parsed) :
              Except Raised (List BSS)) = .error e) s := by
        refine wp_ite (fun hne => ?_) fun heq => ?_
        · rw [wp_throw, if_pos hne]
        · rw [wp_pure, if_neg heq]
      cases page.lookup "nextOffset" with
      | none => exact hend
      | some following =>
      cases following with
      | null => exact hend
      | int next =>
          dsimp only
          refine wp_ite (fun hbad => ?_) fun hgood => ?_
          · rw [wp_throw, if_pos hbad]
          · simp only [if_neg hgood]
            refine wp_bind.mpr (wp_rpc (fun page hpage => ?_) fun e he => ?_)
            · rw [hhost] at hpage
              simp only [hpage]
              exact ih _
            · rw [hhost] at he
              rw [he]
      | bool _ | float _ | str _ | arr _ | obj _ => exact rfl

/-- **One scan, two readings**: over calls of `rpc`, and over a host that does not change. -/
theorem scanRecords_agrees {ask : Request → Except Raised Object}
    (hhost : ∀ asked request, host asked (.scan request) = ask request) (s : Doings) :
    wp (scanRecords P host) (fun found _ => scan P ask = .ok found) (fun e _ => scan P ask = .error e)
      s := by
  simp only [scanRecords, wp_bind]
  refine wp_rpc (fun page hpage => ?_) fun e he => ?_
  · have hscan : scan P ask = (item page "scanID" >>= checkUUID P.isUUID) >>= fun scanID =>
        scanSize P page >>= fun total =>
          scanLoop P ask scanID total (total.toNat + 1) page 0 [] := by
      rw [scan, ← hhost s.asked, hpage]
      rfl
    refine wp_fromExcept (fun scanID hid => ?_) fun e he => ?_
    · rw [hid] at hscan
      refine wp_fromExcept (fun total htotal => ?_) fun e he => ?_
      · have hloop : scan P ask = scanLoop P ask scanID total (total.toNat + 1) page 0 [] := by
          rw [hscan]
          change (scanSize P page >>= _) = _
          rw [htotal]
          rfl
        rw [hloop]
        exact scanTurns_agrees hhost _
      · rw [hscan]
        change (scanSize P page >>= _) = _
        rw [he]
        rfl
    · rw [hscan, he]
      rfl
  · rw [hhost] at he
    rw [scan, he]
    rfl

/-! ### What a success means -/

/-- One of the scans returned the records. -/
def Scanned (P : Python) (host : Host) (asked : List HostRequest) (records : List BSS) : Prop :=
  ∃ s s', (scanRecords P host).run s = .ok records s' ∧ s'.asked <+: asked

theorem Scanned.mono {asked asked' : List HostRequest} {records : List BSS}
    (h : Scanned P host asked records) (hle : asked <+: asked') : Scanned P host asked' records := by
  obtain ⟨s, s', hrun, hprefix⟩ := h
  exact ⟨s, s', hrun, hprefix.trans hle⟩

/-- The success of a connect: after `wifi-connect` the host reported the network and the address, which
is a valid one and the requested one if one was requested; exactly one scanned record of that network
and address is compatible with the requested security, and it was published. -/
structure Confirmed (P : Python) (host : Host) (publish : Option Publish) (r : Unpacked)
    (address : Address) (s : Doings) : Prop where
  reported : ∃ before networkID password reply state after,
    s.asked = before ++ .wifiConnect networkID password :: .wifiStatus :: after ∧
    host before (.wifiConnect networkID password) = .ok reply ∧
    host (before ++ [.wifiConnect networkID password]) .wifiStatus = .ok state ∧
    holds P state "locationAuthorized" = true ∧ stateSsid state = .ok r.target ∧
    stateAddress state = .ok address.toList
  valid : address.isValid = true
  pinned : r.bssid.isZero = false → address = r.bssid
  recorded : ∃ records record, Scanned P host s.asked records ∧
    matching records r.target address r.isPrivate = [record] ∧
    ∀ f, publish = some f → f r.number record = .ok () ∧ (r.number, record) ∈ s.published

/-- An address that is taken is the bytes given, and a valid one. -/
theorem unicast_eq_some {actual : Data} {address : Address} (h : unicast actual = some address) :
    actual = address.toList ∧ address.isValid = true := by
  obtain ⟨⟨hlength, hvalid⟩, heq⟩ := Option.ite_none_right_eq_some.mp h
  obtain rfl := Option.some.inj heq
  refine ⟨List.ext_getElem (by simp [hlength]) fun i hi hi' => ?_, hvalid⟩
  simp [List.getElem?_eq_getElem hi]

/-- A state that passes names the wanted network at a valid address, and at the pinned one. -/
theorem associated_eq_ok {r : Unpacked} {state : Object} {address : Address}
    (h : associated P r state = .ok address) :
    holds P state "locationAuthorized" = true ∧ stateSsid state = .ok r.target ∧
      stateAddress state = .ok address.toList ∧ address.isValid = true ∧
      (r.bssid.isZero = false → address = r.bssid) := by
  rw [associated] at h
  split at h
  · cases h
  · next hauthorized =>
      obtain ⟨ssid, hssid, h⟩ := except_bind_eq_ok.mp h
      split at h
      · cases h
      · next htarget =>
          obtain ⟨actual, hactual, h⟩ := except_bind_eq_ok.mp h
          split at h
          · cases h
          · next a ha =>
              split at h
              · cases h
              · next hpin =>
                  cases h
                  obtain ⟨rfl, hvalid⟩ := unicast_eq_some ha
                  refine ⟨by simpa using hauthorized, ?_, hactual, hvalid, fun hzero => ?_⟩
                  · rw [hssid, not_not.mp htarget]
                  · by_contra hne
                    exact hpin ⟨by simp [hzero], hne⟩

/-- The record that is announced is the only one that matches. -/
theorem actualBss_eq_ok {records : List BSS} {target : Data} {address : Address} {isPrivate : Bool}
    {record : BSS} (h : actualBss records target address isPrivate = .ok record) :
    matching records target address isPrivate = [record] := by
  rw [actualBss] at h
  split at h
  · next heq =>
      cases h
      exact heq
  · cases h

/-- The records that are verified come from a scan, of this call or before it. -/
theorem verifiedRecords_wp {r : Unpacked} {actual : Address} {records : List BSS} {s : Doings}
    (hs : Scanned P host s.asked records) :
    wp (verifiedRecords P host r actual records)
      (fun records s' => Watched s s' ∧ Scanned P host s'.asked records)
      (fun _ s' => Watched s s') s := by
  rw [verifiedRecords]
  refine wp_ite (fun _ => ⟨.refl s, hs⟩) fun _ => ?_
  rw [wp_bind]
  refine wp_intro (fun records s₁ hrun => ?_) fun _ _ hrun => (scanRecords_wp s).error hrun
  have hw₁ : Watched s s₁ := (scanRecords_wp s).ok hrun
  have hw₂ := hw₁.trans (Watched.ask s₁ .wifiStatus rfl)
  rw [wp_bind]
  refine wp_rpc (fun state _ => ?_) fun _ _ => hw₂
  rw [wp_bind]
  refine wp_fromExcept (fun current _ => ?_) fun _ _ => hw₂
  refine wp_ite (fun _ => hw₂) fun _ => ⟨hw₂, s, s₁, hrun, ?_⟩
  exact (Watched.ask s₁ .wifiStatus rfl).isPrefix

/-- Where a publisher is given, the record is published, or announcing raises and does nothing. -/
theorem announce_wp {publish : Option Publish} {number : UInt32} {record : BSS} (s : Doings) :
    wp (announce publish number record)
      (fun _ s' => s'.asked = s.asked ∧
        ∀ f, publish = some f → f number record = .ok () ∧ (number, record) ∈ s'.published)
      (fun _ s' => s' = s) s := by
  cases publish with
  | none => exact ⟨rfl, nofun⟩
  | some f =>
      simp only [announce, wp_bind]
      refine wp_fromExcept (fun _ hf => ⟨rfl, ?_⟩) fun _ _ => rfl
      rintro _ ⟨⟩
      exact ⟨hf, by simp⟩

/-- The part of a connect after `wifi-connect`. -/
theorem confirm_wp {publish : Option Publish} {r : Unpacked} {records : List BSS} {s : Doings}
    {networkID : String} {password : Option String} {reply : Object}
    (hs : Scanned P host s.asked records)
    (hreply : host s.asked (.wifiConnect networkID password) = .ok reply) :
    wp (confirm P host publish r records)
      (fun address s' => Confirmed P host publish r address s' ∧ connects s' = connects s + 1)
      (fun _ s' => connects s' = connects s + 1) (s.ask (.wifiConnect networkID password)) := by
  have hcount : connects (s.ask (.wifiConnect networkID password)) = connects s + 1 := by
    simp [connects, Doings.ask, HostRequest.isConnect]
  have hstatus := Watched.ask (s.ask (.wifiConnect networkID password)) .wifiStatus rfl
  simp only [confirm, wp_bind]
  refine wp_rpc (fun state hstate => ?_) fun _ _ => hstatus.connects.trans hcount
  refine wp_fromExcept (fun address ha => ?_) fun _ _ => hstatus.connects.trans hcount
  obtain ⟨hauthorized, hssid, haddress, hvalid, hpinned⟩ := associated_eq_ok ha
  have hscanned := hs.mono (List.prefix_append s.asked [.wifiConnect networkID password])
  refine wp_mono (verifiedRecords_wp (hscanned.mono hstatus.isPrefix)) ?_ ?_
  · rintro records s₁ ⟨hw, hs₁⟩
    have hcount₁ := (hstatus.trans hw).connects.trans hcount
    refine wp_fromExcept (fun record hrecord => ?_) fun _ _ => hcount₁
    refine wp_mono (announce_wp s₁) ?_ ?_
    · rintro _ s₂ ⟨hasked, hpublished⟩
      have hcount₂ : connects s₂ = connects s₁ := by rw [connects, connects, hasked]
      refine ⟨⟨?_, hvalid, hpinned, records, record, hasked ▸ hs₁, actualBss_eq_ok hrecord, hpublished⟩,
        hcount₂.trans hcount₁⟩
      obtain ⟨⟨u, hu, -⟩, -⟩ := hw
      refine ⟨s.asked, networkID, password, reply, state, u, ?_, hreply, hstate, hauthorized, hssid,
        haddress⟩
      simp [hasked, hu, Doings.ask]
    · rintro _ _ rfl
      exact hcount₁
  · exact fun _ _ hw => (hstatus.trans hw).connects.trans hcount

/-- A connection that returns an address was confirmed by the host, after one request to connect. -/
theorem handleConnect_wp {publish : Option Publish} {r : Unpacked} (s : Doings) :
    wp (handleConnect P host publish r)
      (fun address s' => Confirmed P host publish r address s' ∧ connects s' = connects s + 1)
      (fun _ s' => connects s' ≤ connects s + 1) s := by
  rw [handleConnect]
  refine wp_ite (fun _ => Nat.le_succ _) fun _ => ?_
  rw [wp_bind]
  refine wp_intro (fun records s₁ hrun => ?_) fun _ _ hrun => ?_
  · have hw : Watched s s₁ := (scanRecords_wp s).ok hrun
    rw [← hw.connects]
    split
    · exact Nat.le_succ _
    · rw [wp_bind]
      refine wp_rpc (fun reply hreply => ?_) fun _ _ => ?_
      · exact wp_mono (confirm_wp ⟨s, s₁, hrun, List.prefix_rfl⟩ hreply) (fun _ _ h => h)
          fun _ _ h => h.le
      · simp [connects, Doings.ask, HostRequest.isConnect]
  · exact ((scanRecords_wp s).error hrun).connects.le.trans (Nat.le_succ _)

/-- A disconnection asks for no connection. -/
theorem handleDisconnect_wp (s : Doings) :
    wp (handleDisconnect P host) (fun _ s' => connects s' = connects s)
      (fun _ s' => connects s' = connects s) s := by
  have h₁ := Watched.ask s .wifiDisconnect rfl
  have h₂ := h₁.trans (Watched.ask _ .wifiStatus rfl)
  simp only [handleDisconnect, wp_bind]
  refine wp_rpc (fun _ _ => wp_rpc (fun state _ => ?_) fun _ _ => h₂.connects) fun _ _ => h₁.connects
  exact wp_ite (fun _ => h₂.connects) fun _ => h₂.connects

/-- **What `handle_connection` does**, whatever the host answers. -/
theorem handleConnection_wp {publish : Option Publish} {payload : Payload} (s : Doings) :
    wp (handleConnection P host publish payload)
      (fun address s' => ((unpackConnection payload).operation = 1 →
        Confirmed P host publish (unpackConnection payload) address s') ∧
          connects s' ≤ connects s + 1)
      (fun _ s' => connects s' ≤ connects s + 1) s := by
  rw [handleConnection]
  refine wp_ite (fun _ => Nat.le_succ _) fun _ => wp_ite (fun h2 => ?_) fun _ => ?_
  · refine wp_mono (handleDisconnect_wp s) ?_ fun _ _ h => h.le.trans (Nat.le_succ _)
    intro _ _ h
    refine ⟨fun h1 => ?_, h.le.trans (Nat.le_succ _)⟩
    rw [h2] at h1
    cases h1
  · exact wp_mono (handleConnect_wp s) (fun _ _ h => ⟨fun _ => h.1, h.2.le⟩) fun _ _ h => h

/-! ### The bytes of a request -/

/-- The packed operation has its fields where the bridge reads them. -/
theorem Connection.slices (c : Connection) :
    slice c.pack.toList 0 4 = leBytes 4 c.sequence.toNat ∧
      slice c.pack.toList 8 14 = c.bssid.toList ∧ slice c.pack.toList 14 46 = c.ssid.toList ∧
      slice c.pack.toList 46 78 = c.psk.toList := by
  have hbytes : c.pack.toList = c.bytes := rfl
  rw [hbytes]
  refine ⟨?_, ?_, ?_, ?_⟩ <;>
    simp [slice, Connection.bytes, List.drop_append, List.drop_of_length_le]

/-- A vector is read back from its list. -/
theorem ofFn_toList {n : Nat} (v : Vector UInt8 n) :
    (Vector.ofFn fun i : Fin n => v.toList.getD i 0) = v := by
  ext i hi
  simp

/-- The guest reads the request that the kernel copies. -/
theorem unpack_pack (c : Connection) : unpackConnection c.pack =
    ⟨c.sequence, c.operation.byte, c.ssidLength, c.pskLength, 0, c.bssid, c.ssid, c.psk⟩ := by
  obtain ⟨h₁, h₂, h₃, h₄⟩ := c.slices
  have hbyte : ∀ i, c.pack.toList.getD (4 + i) 0 =
      ([c.operation.byte, c.ssidLength, c.pskLength, 0] ++
        (c.bssid.toList ++ c.ssid.toList ++ c.psk.toList)).getD i 0 := by
    intro i
    have hbytes : c.pack.toList = leBytes 4 c.sequence.toNat ++
        ([c.operation.byte, c.ssidLength, c.pskLength, 0] ++
          (c.bssid.toList ++ c.ssid.toList ++ c.psk.toList)) := by
      change c.bytes = _
      simp only [Connection.bytes, List.append_assoc]
    rw [hbytes, List.getD_eq_getElem?_getD, List.getElem?_append_right (by simp), length_leBytes,
      Nat.add_sub_cancel_left, List.getD_eq_getElem?_getD]
  rw [unpackConnection, h₁, h₂, h₃, h₄, ofFn_toList, ofFn_toList, ofFn_toList, leNat_leBytes_uint32]
  have h4 := hbyte 0
  have h5 := hbyte 1
  have h6 := hbyte 2
  have h7 := hbyte 3
  simp only [List.cons_append, List.getD_cons_zero, List.getD_cons_succ, List.nil_append] at h4 h5 h6 h7
  rw [h4, h5, h6, h7]

/-! ### The pending request -/

/-- Nothing but a new request changes the pending one, other than to end it. -/
theorem Transition.pending {hz : UInt64} {p p' : Priv} {e : Event} {o : Output}
    (h : Transition hz p e o p') (hnone : operationAccepted (e, o) = []) :
    p'.connection = p.connection ∨ p'.connection.operation = .none := by
  cases h with
  | connectStarted | disconnectStarted => cases hnone
  | established | ended => exact .inr rfl
  | stopped hq =>
      rcases hq with ⟨-, rfl, -⟩ | ⟨-, rfl, -⟩
      · exact .inr rfl
      · exact .inl rfl
  | failed | quiet | scanStarted | scanFinished | linkDown | roamed | sampled => exact .inl rfl

/-- Without a new operation the one under way is the same, or it has ended. -/
theorem Run.pending {hz : UInt64} {p p' : Priv} {t : Trace} (h : Run hz p t p')
    (hnone : acceptedOperations t = []) :
    p'.connection = p.connection ∨ p'.connection.operation = .none := by
  induction h with
  | refl => exact .inl rfl
  | @more p p₁ p' e o t hstep hrun ih =>
      rw [acceptedOperations, List.flatMap_cons, List.append_eq_nil_iff] at hnone
      have ht := transition_of_step hstep
      rcases ih hnone.2 with h₁ | h₁
      · rw [h₁]
        exact ht.pending hnone.1
      · exact .inr h₁

/-- The driver and the count of its requests agree. -/
structure Scene.Sound (s : Scene) : Prop where
  live : Live s.driver
  zeroed : Zeroed s.driver
  counted : s.driver.connectionSequence = sequenceAfter s.accepted

/-- Each transition keeps the driver and the count of its requests in agreement. -/
theorem Scene.Sound.step {hz : UInt64} {p p' : Priv} {n : Nat} {e : Event} {o : Output}
    (h : Scene.Sound ⟨p, n⟩) (ht : Transition hz p e o p') :
    Scene.Sound ⟨p', n + (operationAccepted (e, o)).length⟩ :=
  ⟨h.live.step ht, h.zeroed.step ht, ht.connectionSequence h.counted⟩

theorem Scene.Sound.run {hz : UInt64} {p p' : Priv} {n : Nat} {t : Trace}
    (h : Scene.Sound ⟨p, n⟩) (hrun : Run hz p t p') :
    Scene.Sound ⟨p', n + (acceptedOperations t).length⟩ := by
  induction hrun generalizing n with
  | refl => exact h
  | more hstep _ ih =>
      have hrest := ih (h.step (transition_of_step hstep))
      rwa [acceptedOperations, List.flatMap_cons, List.length_append, ← Nat.add_assoc]

/-- A pending request carries the number of the last one that was accepted. -/
theorem Scene.Sound.number {p : Priv} {n : Nat} (h : Scene.Sound ⟨p, n⟩)
    (hop : p.connection.operation ≠ .none) :
    p.connection.sequence = sequenceAfter n ∧ p.connection.sequence ≠ 0 := by
  obtain ⟨heq, hne⟩ := h.live.connection hop
  rw [heq]
  exact ⟨h.counted, hne⟩

/-! ### The kernel's answer -/

/-- The kernel takes the result for a request: it is a failure, or it disconnects, or it has a valid
address and the pinned one if there is one. -/
def Acceptable (request : Connection) (completion : ConnectionResult) : Prop :=
  completion.sequence = request.sequence ∧
    (request.operation = .connect → completion.status = 0 → completion.bssid.isValid = true ∧
      (request.bssid.isZero = false → completion.bssid = request.bssid))

/-- **The result that `serve` submits** is one that the kernel takes for the request. -/
theorem acceptable_resultOf (P : Python) (host : Host) (publish : Option Publish)
    (request : Connection) :
    Acceptable request (resultOf request.sequence
      ((handleConnection P host publish request.pack).run ⟨[], []⟩)) := by
  cases h : (handleConnection P host publish request.pack).run ⟨[], []⟩ with
  | error e s' => exact ⟨rfl, fun _ hstatus => by cases hstatus⟩
  | ok address s' =>
      refine ⟨rfl, fun hop _ => ?_⟩
      have hconfirmed := ((handleConnection_wp (s := ⟨[], []⟩)).ok h).1
      rw [unpack_pack, hop] at hconfirmed
      exact ⟨(hconfirmed rfl).valid, (hconfirmed rfl).pinned⟩

/-- Finishing an operation clears its request. -/
theorem finishConnection_zero {p : Priv} (hop : p.connection.operation ≠ .none) (status : UInt16)
    (bssid : Address) : (p.finishConnection status (some bssid)).2.connection = .zero := by
  by_cases hok : p.connection.operation = .connect ∧ status = statusSuccess
  · rw [hok.2, Priv.finishConnection_established hok.1]
    rfl
  · rw [Priv.finishConnection_ended _ hop fun hconnect hstatus => hok ⟨hconnect, hstatus⟩]
    rfl

/-- The kernel takes an acceptable result, and the request ends. -/
theorem completeConnection_accepts {p : Priv} {completion : ConnectionResult}
    (hop : p.connection.operation ≠ .none) (h : Acceptable p.connection completion) :
    (p.completeConnection completion).1.result = .ok .none ∧
      (p.completeConnection completion).2.connection.operation = .none := by
  obtain ⟨hsequence, hgood⟩ := h
  rw [Priv.completeConnection, if_neg (by simp [hop, hsequence]), if_neg, if_neg]
  · exact ⟨rfl, congrArg Connection.operation (finishConnection_zero hop _ _)⟩
  · rintro ⟨hconnect, hstatus, hpin, hne⟩
    exact hne ((hgood hconnect hstatus).2 (by simpa using hpin))
  · rintro ⟨hconnect, hstatus, hinvalid⟩
    simp [(hgood hconnect hstatus).1] at hinvalid

/-! ### A turn -/

section Turn
variable {hz : UInt64} {file : Nat} {m : Meanwhile} {p p' : Priv} {x : Turn} {n : Nat}

/-- The steps of a turn: the request is read, the host works while the driver runs, and the result is
submitted. -/
theorem serveConnection_steps (h : serveConnection P hz file m p = some (x, p')) :
    ∃ p₁ p₂ o o', p.step hz (.control file true true m.reads .getConnection) = (o, p₁) ∧
      p₁.connection = p.connection ∧ p.connection.sequence ≠ 0 ∧ x.request = p.connection ∧
      Run hz p₁ x.trace p₂ ∧
      x.outcome = (handleConnection P m.host m.publish p.connection.pack).run ⟨[], []⟩ ∧
      x.completion = resultOf p.connection.sequence x.outcome ∧
      p₂.step hz (.control file true true m.submits (.connectionResult x.completion)) = (o', p') ∧
      x.result = o'.result := by
  have hread : p.step hz (.control file true true m.reads .getConnection) =
      (⟨.ok (.connection p.connection), []⟩,
        p.setReader file ({ · with connection := p.connection.sequence })) := rfl
  simp only [serveConnection, hread] at h
  split at h
  · cases h
  · next hne =>
      generalize hsubmit : Priv.step hz _ (.control file true true m.submits _) = done at h
      obtain ⟨o', p₃⟩ := done
      obtain ⟨rfl, rfl⟩ := Prod.mk.inj (Option.some.inj h)
      dsimp only
      exact ⟨_, _, _, _, hread, rfl, hne, rfl, Priv.run_steps hz _ m.events, rfl, rfl, hsubmit, rfl⟩

/-- After the host has worked the request is as it was read, or it has ended, or others were accepted
in the meantime. -/
theorem serveConnection_meets (hs : Scene.Sound ⟨p, n⟩)
    (h : serveConnection P hz file m p = some (x, p')) :
    p.connection.operation ≠ .none ∧ x.request = p.connection ∧
      Acceptable p.connection x.completion ∧
      ∃ p₂ o', Scene.Sound ⟨p₂, n + (acceptedOperations x.trace).length⟩ ∧
        (acceptedOperations x.trace = [] →
          p₂.connection = p.connection ∨ p₂.connection.operation = .none) ∧
        p₂.completeConnection x.completion = (o', p') ∧ x.result = o'.result := by
  obtain ⟨p₁, p₂, o, o', hread, hsame, hne, hrequest, hrun, houtcome, hcompletion, hsubmit, hresult⟩ :=
    serveConnection_steps h
  have hs₁ : Scene.Sound ⟨p₁, n⟩ := hs.step (transition_of_step hread)
  refine ⟨fun hop => hne (hs.zeroed hop), hrequest, ?_, p₂, o', hs₁.run hrun, ?_, hsubmit, hresult⟩
  · rw [hcompletion, houtcome]
    exact acceptable_resultOf P m.host m.publish p.connection
  · rw [← hsame]
    exact Run.pending hrun

/-- **A turn ends its request**: another was accepted in the meantime, or none is pending. -/
theorem serveConnection_ends (hs : Scene.Sound ⟨p, n⟩)
    (h : serveConnection P hz file m p = some (x, p')) :
    0 < (acceptedOperations x.trace).length ∨ p'.connection.operation = .none := by
  obtain ⟨hop, -, hacceptable, p₂, o', -, hpending, hsubmit, -⟩ := serveConnection_meets hs h
  rcases Nat.eq_zero_or_pos (acceptedOperations x.trace).length with hzero | hpos
  · right
    have hp' : p' = (p₂.completeConnection x.completion).2 := by rw [hsubmit]
    rcases hpending (List.length_eq_zero_iff.mp hzero) with heq | hnone
    · rw [hp']
      exact (completeConnection_accepts (heq ▸ hop) (heq ▸ hacceptable)).2
    · rw [hp', completeConnection_late (.inl hnone)]
      exact hnone
  · exact .inl hpos

/-- **The kernel's answer** to the result: it is accepted or late, as long as the number of the request
has not come back. -/
theorem serveConnection_answer (hs : Scene.Sound ⟨p, n⟩)
    (h : serveConnection P hz file m p = some (x, p'))
    (hfew : (acceptedOperations x.trace).length < 2 ^ 32 - 1) :
    x.result = .ok .none ∨ x.result = .error .ESTALE := by
  obtain ⟨hop, -, hacceptable, p₂, o', hs₂, hpending, hsubmit, hresult⟩ := serveConnection_meets hs h
  have ho' : x.result = (p₂.completeConnection x.completion).1.result := by rw [hresult, hsubmit]
  rw [ho']
  by_cases hnone : p₂.connection.operation = .none
  · rw [completeConnection_late (.inl hnone)]
    exact .inr rfl
  · rcases Nat.eq_zero_or_pos (acceptedOperations x.trace).length with hzero | hpos
    · have heq := (hpending (List.length_eq_zero_iff.mp hzero)).resolve_right hnone
      exact .inl (completeConnection_accepts hnone (heq ▸ hacceptable)).1
    · -- the request that is pending now has another number
      obtain ⟨hnumber, hne⟩ := hs.number hop
      have hapart := apart_of_sequenceAfter hnumber (hs₂.number hnone).1 hne
      have hother : x.completion.sequence ≠ p₂.connection.sequence := by
        rw [hacceptable.1]
        intro heq
        exact absurd (hapart heq.symm hpos) (Nat.not_le.mpr hfew)
      rw [completeConnection_late (.inr hother)]
      exact .inr rfl

theorem serveConnection_sound (hs : Scene.Sound ⟨p, n⟩)
    (h : serveConnection P hz file m p = some (x, p')) :
    Scene.Sound ⟨p', n + (acceptedOperations x.trace).length⟩ := by
  obtain ⟨-, -, -, p₂, o', hs₂, -, hsubmit, -⟩ := serveConnection_meets hs h
  have hstep : p₂.step hz (.control file true true m.submits (.connectionResult x.completion)) =
      (o', p') := hsubmit
  exact hs₂.step (transition_of_step hstep)

end Turn

/-! ### Runs -/

/-- The requests of the turns so far are in order, and the last one is not pending any more. -/
structure Executed (s : Scene) (t : List (Move × Option (Nat × Turn))) : Prop where
  sound : s.Sound
  ordered : ((turns t).map Prod.fst).Pairwise (· < ·)
  past : ∀ n ∈ (turns t).map Prod.fst,
    n < s.accepted ∨ (n = s.accepted ∧ s.driver.connection.operation = .none)

/-- At the start there was no turn. -/
theorem Executed.init (lower : Option Lower) : Executed ⟨.init lower, 0⟩ [] :=
  ⟨⟨.init lower, fun _ => rfl, rfl⟩, .nil, nofun⟩

section Runs
variable {hz : UInt64} {file : Nat} {s s' : Scene} {t : List (Move × Option (Nat × Turn))}

/-- One more move adds its turn, if it is one. -/
theorem turns_snoc (move : Move) (o : Option (Nat × Turn)) :
    turns (t ++ [(move, o)]) = turns t ++ o.toList := by
  cases o <;> simp [turns]

/-- An event of the driver is a step of the driver, and no turn. -/
theorem Scene.Step.driver {e : Event} {o : Option (Nat × Turn)} (h : s.Step P hz file (.driver e) o s') :
    ∃ out p', s.driver.step hz e = (out, p') ∧ o = none ∧
      s' = ⟨p', s.accepted + (operationAccepted (e, out)).length⟩ := by
  obtain ⟨ho, hs'⟩ := Prod.ext_iff.mp (Option.some.inj h)
  exact ⟨_, _, rfl, ho.symm, hs'.symm⟩

/-- A turn serves the operation that is under way, with what happens meanwhile. -/
theorem Scene.Step.turn {m : Meanwhile} {o : Option (Nat × Turn)} (h : s.Step P hz file (.turn m) o s') :
    ∃ x p', serveConnection P hz file m s.driver = some (x, p') ∧ o = some (s.accepted, x) ∧
      s' = ⟨p', s.accepted + (acceptedOperations x.trace).length⟩ := by
  obtain ⟨⟨x, p'⟩, hserve, heq⟩ := Option.map_eq_some_iff.mp h
  obtain ⟨ho, hs'⟩ := Prod.mk.inj heq
  exact ⟨x, p', hserve, ho.symm, hs'.symm⟩

/-- The last request accepted so far is past when none is pending. -/
theorem past_of_ended {n more : Nat} {p : Priv} (h : p.connection.operation = .none) :
    n < n + more ∨ (n = n + more ∧ p.connection.operation = .none) := by
  rcases Nat.eq_zero_or_pos more with rfl | hpos
  · exact .inr ⟨rfl, h⟩
  · exact .inl (Nat.lt_add_of_pos_right hpos)

/-- Each move keeps the turns in order, and the last one past. -/
theorem Executed.step {move : Move} {o : Option (Nat × Turn)} (h : Executed s t)
    (hstep : s.Step P hz file move o s') : Executed s' (t ++ [(move, o)]) := by
  obtain ⟨hs, hordered, hpast⟩ := h
  obtain ⟨p, n⟩ := s
  cases move with
  | driver e =>
      obtain ⟨out, p', hrun, rfl, rfl⟩ := hstep.driver
      have ht := transition_of_step hrun
      have hturns : turns (t ++ [(.driver e, none)]) = turns t := by
        rw [turns_snoc, Option.toList_none, List.append_nil]
      refine ⟨hs.step ht, by rwa [hturns], fun k hk => ?_⟩
      rw [hturns] at hk
      rcases hpast k hk with hlt | ⟨rfl, hnone⟩
      · exact .inl (hlt.trans_le (Nat.le_add_right _ _))
      · by_cases hop : p'.connection.operation = .none
        · exact past_of_ended hop
        · exact .inl (Nat.lt_add_of_pos_right ((ht.operations hop).resolve_left (not_not.mpr hnone)))
  | turn m =>
      obtain ⟨x, p', hserve, rfl, rfl⟩ := hstep.turn
      obtain ⟨hop, -⟩ := serveConnection_meets hs hserve
      -- the request that is pending now was not executed before
      have hbefore : ∀ k ∈ (turns t).map Prod.fst, k < n := by
        intro k hk
        exact (hpast k hk).resolve_right fun hlast => hop hlast.2
      have hturns : (turns (t ++ [(.turn m, some (n, x))])).map Prod.fst =
          (turns t).map Prod.fst ++ [n] := by
        rw [turns_snoc, Option.toList_some, List.map_append]
        rfl
      refine ⟨serveConnection_sound hs hserve, ?_, fun k hk => ?_⟩
      · rw [hturns]
        exact List.pairwise_append.mpr ⟨hordered, List.pairwise_singleton _ _,
          fun k hk j hj => List.mem_singleton.mp hj ▸ hbefore k hk⟩
      · rw [hturns] at hk
        rcases List.mem_append.mp hk with hk | hk
        · exact .inl ((hbefore k hk).trans_le (Nat.le_add_right _ _))
        · obtain rfl := List.mem_singleton.mp hk
          rcases serveConnection_ends hs hserve with hpos | hnone
          · exact .inl (Nat.lt_add_of_pos_right hpos)
          · exact past_of_ended hnone

/-- In every run the turns are in order, each for a request of its own. -/
theorem Run.executed {lower : Option Lower} (h : Steps (Scene.Step P hz file) ⟨.init lower, 0⟩ t s) :
    Executed s t :=
  Steps.invariant_trace (I := Executed) (fun hI hstep => hI.step hstep) h (.init lower)

/-- Each turn of a run is one of `serve` on a driver that agrees with the count. -/
theorem turn_of_mem {lower : Option Lower} {x : Nat × Turn}
    (h : Steps (Scene.Step P hz file) ⟨.init lower, 0⟩ t s) (hx : x ∈ turns t) :
    ∃ p m p', Scene.Sound ⟨p, x.1⟩ ∧ serveConnection P hz file m p = some (x.2, p') := by
  obtain ⟨⟨move, o⟩, hmem, ho⟩ := List.mem_filterMap.mp hx
  obtain rfl : o = some x := ho
  obtain ⟨u, v, rfl⟩ := List.append_of_mem hmem
  obtain ⟨a, b, ha, hstep, -⟩ := h.split_at
  have hs := (Run.executed ha).sound
  cases move with
  | driver e => cases hstep
  | turn m =>
      obtain ⟨y, p', hserve, heq, -⟩ := hstep.turn
      obtain rfl := Option.some.inj heq
      exact ⟨a.driver, m, p', hs, hserve⟩

end Runs

/-- **A connection request is executed once and reported truthfully.**  Whatever the host answers and
whatever comes of the report to the kernel: `handle_connection` returns for a connect only when it is
confirmed, and asks the host to connect at most once.  In every run of the driver and the bridge no
request is executed twice, and the kernel accepts each result or refuses it as late, as long as fewer
than `2 ^ 32 - 1` requests are accepted while the host works. -/
theorem connection_once (P : Python) (hz : UInt64) (file : Nat) (lower : Option Lower) :
    (∀ (host : Host) (publish : Option Publish) (payload : Payload),
      (∀ address s', (handleConnection P host publish payload).run ⟨[], []⟩ = .ok address s' →
        (unpackConnection payload).operation = 1 →
        Confirmed P host publish (unpackConnection payload) address s') ∧
      wp (handleConnection P host publish payload) (fun _ s' => connects s' ≤ 1)
        (fun _ s' => connects s' ≤ 1) ⟨[], []⟩) ∧
    ∀ (t : List (Move × Option (Nat × Turn))) (s : Scene),
      Steps (Scene.Step P hz file) ⟨.init lower, 0⟩ t s →
      ((turns t).map Prod.fst).Pairwise (· < ·) ∧
      ∀ x ∈ turns t, (acceptedOperations x.2.trace).length < 2 ^ 32 - 1 →
        x.2.result = .ok .none ∨ x.2.result = .error .ESTALE := by
  refine ⟨fun host publish payload => ⟨fun address s' h => ?_, ?_⟩, fun t s h => ⟨?_, ?_⟩⟩
  · exact ((handleConnection_wp _).ok h).1
  · exact wp_mono (handleConnection_wp _) (fun _ _ h => h.2) fun _ _ h => h
  · exact (Run.executed h).ordered
  · intro x hx hfew
    obtain ⟨p, m, p', hs, hserve⟩ := turn_of_mem h hx
    exact serveConnection_answer hs hserve hfew

/-! ### A number that comes back -/

theorem Priv.run_append (hz : UInt64) (p : Priv) (a b : List Event) :
    (p.run hz (a ++ b)).2 = ((p.run hz a).2.run hz b).2 := by
  induction a generalizing p with
  | nil => rfl
  | cons e a ih => exact ih (p.step hz e).2

/-- The interface is up and nothing keeps it from a new request, after `k` of them. -/
structure Idle (k : Nat) (p : Priv) : Prop where
  running : p.running = true
  scan : p.scan = none
  connected : p.connected = false
  operation : p.connection.operation ≠ .disconnect
  counted : p.connectionSequence = sequenceAfter k

/-- A disconnect, which the interface ends as it goes down, and it is up again. -/
def bounce : List Event := [.disconnectNetwork 3 0, .stopDevice, .openDevice]

/-- A disconnect and a restart leave the interface idle, one request later. -/
theorem Idle.bounce {k : Nat} {p : Priv} (h : Idle k p) (hz : UInt64) :
    Idle (k + 1) (p.run hz bounce).2 ∧ (p.run hz bounce).2.connection.operation = .none := by
  obtain ⟨hrunning, hscan, hconnected, hoperation, hcounted⟩ := h
  cases hop : p.connection.operation with
  | disconnect => exact absurd hop hoperation
  | none =>
      refine ⟨⟨rfl, ?_, ?_, ?_, ?_⟩, ?_⟩ <;>
        simp [Wifi.bounce, Priv.run, Priv.step, Priv.disconnectNetwork, Priv.beginConnection,
          Priv.stopDevice, Priv.finishScan, Priv.finishConnection, Priv.reply, Connection.zero, hop,
          hscan, hconnected, hcounted, sequenceAfter]
  | connect =>
      refine ⟨⟨rfl, ?_, ?_, ?_, ?_⟩, ?_⟩ <;>
        simp [Wifi.bounce, Priv.run, Priv.step, Priv.disconnectNetwork, Priv.beginConnection,
          Priv.stopDevice, Priv.finishScan, Priv.finishConnection, Priv.reply, Connection.zero, hop,
          hscan, hcounted, sequenceAfter, statusUnspecifiedFailure, statusSuccess]

/-- The interface goes down and up `n` times. -/
def bounces (n : Nat) : List Event := (List.replicate n bounce).flatten

theorem Idle.bounces {k : Nat} {p : Priv} (h : Idle k p) (hz : UInt64) (n : Nat) :
    Idle (k + n) (p.run hz (bounces n)).2 := by
  induction n generalizing k p with
  | zero => exact h
  | succ n ih =>
      have hrun : (p.run hz (Wifi.bounces (n + 1))).2 =
          ((p.run hz Wifi.bounce).2.run hz (Wifi.bounces n)).2 := by
        rw [Wifi.bounces, List.replicate_succ, List.flatten_cons, Priv.run_append]
        rfl
      rw [hrun, ← Nat.add_assoc, Nat.add_right_comm]
      exact ih (h.bounce hz).1

/-- A connect to an open network, pinned to an address. -/
def pinnedConnect (bssid : Address) : Event := .connectNetwork (openNetwork [65, 80] (some bssid)) 0

/-- An idle interface takes a connect under the next number. -/
theorem Idle.connect {hz : UInt64} {k : Nat} {p : Priv} (h : Idle k p)
    (hop : p.connection.operation = .none) (bssid : Address) :
    (p.step hz (pinnedConnect bssid)).2.connection.operation = .connect ∧
      (p.step hz (pinnedConnect bssid)).2.connection.sequence = sequenceAfter (k + 1) ∧
      (p.step hz (pinnedConnect bssid)).2.connection.bssid = bssid := by
  have hparams : Priv.checkParams (openNetwork [65, 80] (some bssid)) = none := rfl
  have hconnection : (p.step hz (pinnedConnect bssid)).2.connection = Priv.fillConnection
      { Connection.zero with operation := .connect, sequence := nextSequence p.connectionSequence }
      (openNetwork [65, 80] (some bssid)) := by
    simp [pinnedConnect, Priv.step, Priv.connectNetwork, h.running, h.scan, hop, h.connected, hparams,
      Priv.beginConnection]
  rw [hconnection]
  exact ⟨rfl, congrArg nextSequence h.counted, rfl⟩

/-- The interface goes down and up, and then another connect is pending. -/
def recurring (n : Nat) (bssid : Address) : List Event := bounces n ++ (bounce ++ [pinnedConnect bssid])

/-- After any number of requests a connect stands under the number they lead to. -/
theorem Idle.recurring {k : Nat} {p : Priv} (h : Idle k p) (hz : UInt64) (n : Nat) (bssid : Address) :
    (p.run hz (recurring n bssid)).2.connection.operation = .connect ∧
      (p.run hz (recurring n bssid)).2.connection.sequence = sequenceAfter (k + n + 1 + 1) ∧
      (p.run hz (recurring n bssid)).2.connection.bssid = bssid := by
  obtain ⟨hidle, hop⟩ := (h.bounces hz n).bounce hz
  have hrun : (p.run hz (Wifi.recurring n bssid)).2 =
      (((p.run hz (Wifi.bounces n)).2.run hz Wifi.bounce).2.step hz (pinnedConnect bssid)).2 := by
    rw [Wifi.recurring, Priv.run_append, Priv.run_append]
    rfl
  rw [hrun]
  exact hidle.connect hop bssid

/-- A library that knows UUIDs by their length. -/
def plainPython : Python := ⟨fun text => text.length = 36, fun _ _ => false⟩

/-- The host's entry for the one access point. -/
def accessPoint : Json :=
  .obj [("networkID", .str "00000000-0000-4000-8000-000000000001"), ("ssidBase64", .str "QVA="),
    ("bssid", .str "02:00:00:00:00:01"), ("signalDBm", .int (-60)), ("channelBand", .int 1),
    ("channel", .int 1), ("informationElementsBase64", .str "AAJBUA=="), ("open", .bool true)]

/-- A host that does as it is told. -/
def obedientHost : Host := fun _ request =>
  match request with
  | .scan _ => .ok [("ok", .bool true), ("scanID", .str "00000000-0000-4000-8000-000000000002"),
      ("total", .int 1), ("networks", .arr [accessPoint])]
  | .wifiStatus => .ok [("ok", .bool true), ("locationAuthorized", .bool true),
      ("networkIdentityAvailable", .bool true), ("ssidBase64", .str "QVA="),
      ("bssid", .str "02:00:00:00:00:01")]
  | .wifiConnect _ _ | .wifiDisconnect => .ok [("ok", .bool true)]

/-- The driver with a connect to the access point pending. -/
def pendingConnect : Priv := ((Priv.init none).run 250 [.openDevice, pinnedConnect firstBssid]).2

/-- The driver after the bridge has read the request. -/
def readConnect : Priv := pendingConnect.setReader 0 ({ · with connection := 1 })

/-- A report to the kernel that succeeds. -/
def published : Option Publish := some fun _ _ => .ok ()

/-- The report of the access point. -/
def firstReport : LinkInput :=
  ⟨4, ⟨1, 2, 2, 4, 2412, -6000, 1, 0, firstBssid, .copy [65, 80]⟩, [0, 2, 65, 80], rfl⟩

/-- The driver's side of `published`. -/
def reports : Event := .control 0 true true 0 (.reportLink firstReport true)

example : (readConnect.step 250 reports).1.result = .ok .none := by decide +kernel

/-- The host connects, and the request is confirmed. -/
theorem handled_pendingConnect : (resultOf pendingConnect.connection.sequence
    ((handleConnection plainPython obedientHost published pendingConnect.connection.pack).run
      ⟨[], []⟩)) = ⟨1, 0, firstBssid⟩ := by
  decide +kernel

/-- The obedient host confirms the sample's connection. -/
theorem confirmed_pendingConnect :
    ∃ s', (handleConnection plainPython obedientHost published pendingConnect.connection.pack).run
      ⟨[], []⟩ = .ok firstBssid s' := by
  have hresult := handled_pendingConnect
  generalize (handleConnection plainPython obedientHost published pendingConnect.connection.pack).run
    ⟨[], []⟩ = outcome at hresult ⊢
  cases outcome with
  | ok address s' =>
      obtain rfl : address = firstBssid := congrArg ConnectionResult.bssid hresult
      exact ⟨s', rfl⟩
  | error e s' =>
      have hstatus : (1 : UInt16) = 0 := congrArg ConnectionResult.status hresult
      cases hstatus

/-- The sample's pending connection is reachable. -/
theorem steps_pendingConnect : Steps (Scene.Step plainPython 250 0) ⟨.init none, 0⟩
    [(.driver .openDevice, none), (.driver (pinnedConnect firstBssid), none)] ⟨pendingConnect, 1⟩ :=
  .more rfl (.one rfl)

/-- The report leaves the driver as it is. -/
theorem idle_reports : Idle 1 (readConnect.step 250 reports).2 :=
  ⟨by decide +kernel, by decide +kernel, by decide +kernel, by decide +kernel, by decide +kernel⟩

/-- A turn on a pending request, with the kernel's answer to it. -/
theorem serveConnection_result {hz : UInt64} {file : Nat} {m : Meanwhile} {p : Priv}
    (hne : p.connection.sequence ≠ 0) :
    ∃ x p', serveConnection P hz file m p = some (x, p') ∧
      x.trace = ((p.setReader file ({ · with connection := p.connection.sequence })).run hz
        m.events).1 ∧
      x.result = (((p.setReader file ({ · with connection := p.connection.sequence })).run hz
        m.events).2.completeConnection (resultOf p.connection.sequence
          ((handleConnection P m.host m.publish p.connection.pack).run ⟨[], []⟩))).1.result := by
  have hread : p.step hz (.control file true true m.reads .getConnection) =
      (⟨.ok (.connection p.connection), []⟩,
        p.setReader file ({ · with connection := p.connection.sequence })) := rfl
  simp only [serveConnection, hread, if_neg hne]
  exact ⟨_, _, rfl, rfl, rfl⟩

/-- The kernel refuses a success with another address than the pinned one. -/
theorem completeConnection_misplaced {p : Priv} {completion : ConnectionResult}
    (hop : p.connection.operation = .connect) (hsequence : completion.sequence = p.connection.sequence)
    (hstatus : completion.status = 0) (hpin : p.connection.bssid.isZero = false)
    (hother : completion.bssid ≠ p.connection.bssid) :
    (p.completeConnection completion).1.result = .error .EINVAL := by
  rw [Priv.completeConnection, if_neg (by simp [hop, hsequence])]
  split
  · rfl
  · rw [if_pos ⟨hop, hstatus, by simp [hpin], hother⟩]
    rfl

/-- The host connects and the report succeeds, and then the events happen. -/
def longTurn (events : List Event) : Meanwhile := ⟨obedientHost, published, 0, reports :: events, 0⟩

/-- A result whose address is not the one wanted by then is refused. -/
theorem serveConnection_misplaced {events : List Event} {p : Priv}
    (hrun : ((readConnect.step 250 reports).2.run 250 events).2 = p)
    (hop : p.connection.operation = .connect) (hsequence : p.connection.sequence = 1)
    (hbssid : p.connection.bssid = secondBssid) :
    ∃ x p', serveConnection plainPython 250 0 (longTurn events) pendingConnect = some (x, p') ∧
      x.result = .error .EINVAL := by
  have hpending : pendingConnect.connection.sequence = 1 := rfl
  have hne : pendingConnect.connection.sequence ≠ 0 := by
    rw [hpending]
    decide
  obtain ⟨x, p', hserve, -, hresult⟩ := serveConnection_result (m := longTurn events) hne
  have hstate : ((pendingConnect.setReader 0
      ({ · with connection := pendingConnect.connection.sequence })).run 250
        (longTurn events).events).2 = p := hrun
  rw [hstate] at hresult
  refine ⟨x, p', hserve, hresult.trans ?_⟩
  have hcompletion : resultOf pendingConnect.connection.sequence ((handleConnection plainPython
      (longTurn events).host (longTurn events).publish pendingConnect.connection.pack).run ⟨[], []⟩) =
        ⟨1, 0, firstBssid⟩ := handled_pendingConnect
  rw [hcompletion]
  apply completeConnection_misplaced hop hsequence.symm rfl
  · rw [hbssid]
    rfl
  · rw [hbssid]
    decide

/-- **A result is refused as invalid** when the number of its request has come back: the kernel holds it
to the pin of another request. -/
theorem recurring_number_refused :
    ¬ ∀ (P : Python) (hz : UInt64) (file : Nat) (lower : Option Lower)
      (t : List (Move × Option (Nat × Turn))) (s : Scene),
      Steps (Scene.Step P hz file) ⟨.init lower, 0⟩ t s →
      ∀ x ∈ turns t, x.2.result = .ok .none ∨ x.2.result = .error .ESTALE := by
  intro hall
  obtain ⟨hop, hsequence, hbssid⟩ := idle_reports.recurring 250 (2 ^ 32 - 3) secondBssid
  -- after 2 ^ 32 - 1 requests the number is the first one again
  have hone : sequenceAfter (1 + (2 ^ 32 - 3) + 1 + 1) = 1 := by
    apply UInt32.toNat_inj.mp
    rw [toNat_sequenceAfter]
    rfl
  obtain ⟨x, p', hserve, hresult⟩ := serveConnection_misplaced rfl hop (hsequence.trans hone) hbssid
  have hmove : Scene.Step plainPython 250 0 ⟨pendingConnect, 1⟩
      (.turn (longTurn (recurring (2 ^ 32 - 3) secondBssid))) (some (1, x))
      ⟨p', 1 + (acceptedOperations x.trace).length⟩ := by
    rw [Scene.Step, Scene.move, hserve]
    rfl
  have hrun := steps_pendingConnect.append (.one hmove)
  rcases hall _ _ _ _ _ _ hrun (1, x) (by simp [turns]) with h | h
  · rw [hresult] at h
    cases h
  · rw [hresult] at h
    cases h

/-- The host connects, the connect is confirmed, and its result is accepted. -/
theorem connection_once_connect :
    (∃ s', Confirmed plainPython obedientHost published
      (unpackConnection pendingConnect.connection.pack) firstBssid s') ∧
    ∃ t s x, Steps (Scene.Step plainPython 250 0) ⟨.init none, 0⟩ t s ∧ turns t = [x] ∧
      (x.2.result = .ok .none ∨ x.2.result = .error .ESTALE) := by
  have honce := connection_once plainPython 250 0 none
  refine ⟨?_, ?_⟩
  · obtain ⟨s', hs'⟩ := confirmed_pendingConnect
    have hop : (unpackConnection pendingConnect.connection.pack).operation = 1 := by
      rw [unpack_pack]
      rfl
    have hhandle := honce.1 obedientHost published pendingConnect.connection.pack
    exact ⟨s', hhandle.1 firstBssid s' hs' hop⟩
  · have hne : pendingConnect.connection.sequence ≠ 0 := by decide +kernel
    obtain ⟨x, p', hserve, htrace, -⟩ : ∃ x p',
        serveConnection plainPython 250 0 (longTurn []) pendingConnect = some (x, p') ∧ _ ∧ _ :=
      serveConnection_result hne
    have hmove : Scene.Step plainPython 250 0 ⟨pendingConnect, 1⟩ (.turn (longTurn [])) (some (1, x))
        ⟨p', 1 + (acceptedOperations x.trace).length⟩ := by
      rw [Scene.Step, Scene.move, hserve]
      rfl
    have hrun := steps_pendingConnect.append (.one hmove)
    refine ⟨_, _, (1, x), hrun, by simp [turns], (honce.2 _ _ hrun).2 (1, x) (by simp [turns]) ?_⟩
    rw [htrace]
    decide +kernel

end Ashacky.Wifi
