import Ashacky.Fido.Enumeration
import Ashacky.Fido.Cancellation
import Ashacky.Hid.Relay

/-!
# Fido — messages fit the transport, both ways

A response has at most 1024 bytes.  `process` checks that only at its end, with the credential already
saved or the signature made; so what `make`, `assertion` and `info` build must fit beforehand.  The
other way a message of the device is written in Base64 by the relay and measured again by the host.

* `make_fits`, `assertion_fits`: what a command returns fits, and so does what it queues.
* `Queued.step`: along a run everything queued fits.
* `HID.request_length`: the transport hands over 1 to 1024 bytes.
* `asked_request`: the host accepts what the relay writes for them.
* `messages_fit`.
-/

namespace Ashacky.Fido
open Ashacky.Support Ashacky.Control Ashacky.Hid

variable {ω : Type} {P : Platform} {store : FIDOKeyStore ω}

/-! ### What a command returns -/

/-- The value fits a response, behind the status byte. -/
def CBOR.Fits (v : CBOR) : Prop := (0 :: v.encoded).length ≤ maximumMessage

theorem CBOR.fits_iff {v : CBOR} : v.Fits ↔ v.encoded.length ≤ 1023 := Nat.succ_le_succ_iff

/-- What `credentials()` checks of the records and what the signatures are bounded by, with the bounds
that a response depends on for a new record. -/
structure FIDOKeyStore.Limited (store : FIDOKeyStore ω) : Prop where
  bounded : store.Bounded
  generate : ∀ {rp user name displayName discoverable protection tx w c w'},
    (store.generate rp user name displayName discoverable protection tx).run w = .ok c w' →
      2 ≤ protection ∧ protection ≤ 3 →
      c.id.length = 32 ∧ 2 ≤ c.protection ∧ c.protection ≤ 3

/-- `SecureEnclaveFIDOStore` is limited: it checks the records it reads and draws 32 random bytes. -/
theorem secureEnclaveFIDOStore_limited (P : Platform) (J : Coder) {env : Environment}
    (hsig : ∀ t k d signature, env.signature t k d = some signature → signature.length ≤ 72)
    (hid : ∀ id, env.identifier = some id → id.length = 32) :
    (secureEnclaveFIDOStore P J env).Limited := by
  refine ⟨secureEnclaveFIDOStore_bounded P J hsig, ?_⟩
  intro rp user name displayName discoverable protection tx w c w' h hp
  have hw : wp (SecureEnclaveFIDOStore.generate env rp user name displayName discoverable protection tx)
      (fun c _ => c.id.length = 32 ∧ c.protection = protection) (fun _ _ => True) w := by
    simp only [SecureEnclaveFIDOStore.generate, wp_bind]
    refine wp_intro (fun _ w₁ _ => wp_ite (fun _ => ?_) fun _ => trivial) fun _ _ _ => trivial
    split
    · trivial
    · split
      · trivial
      · next id hdraw => exact ⟨hid id hdraw, rfl⟩
  obtain ⟨hlength, rfl⟩ := hw.ok h
  exact ⟨hlength, hp⟩

theorem info_fits : info.Fits := by
  rw [CBOR.Fits]
  decide +kernel

theorem preflightReply_fits {c : FIDOCredential} (rp : String) (hc : c.InBounds) :
    (preflightReply P rp c).Fits := by
  have h1 := length_descriptorOf hc
  have h2 := length_encoded_bytes_le (d := authData P rp 0) (by rw [length_authData]; decide)
  have hkeys : (CBORKey.int 1).encoded.length = 1 ∧ (CBORKey.int 2).encoded.length = 1 ∧
      (CBORKey.int 3).encoded.length = 1 ∧
      (CBOR.bytes [0x30, 6, 2, 1, 1, 2, 1, 1]).encoded.length = 9 := by
    decide +kernel
  rw [length_authData] at h2
  rw [CBOR.Fits, List.length_cons, preflightReply, length_encoded_map, length_head_of_lt 5 (by simp),
    maximumMessage]
  simp only [entriesLength_cons, entriesLength_nil, hkeys]
  omega

/-- The level that `make` asks for is within the bounds of a record. -/
theorem protection_le {request : CBOR} {p : MakeParameters} (h : makeParameters P request = .ok p) :
    2 ≤ max 2 (p.cp.getD 2) ∧ max 2 (p.cp.getD 2) ≤ 3 := by
  obtain ⟨-, -, -, -, -, hcp⟩ := makeParameters_eq_ok h
  cases hlevel : p.cp with
  | none => decide
  | some level =>
      obtain ⟨hge, hle⟩ := hcp level hlevel
      exact ⟨le_max_left _ _, max_le (by decide) hle⟩

namespace FIDO2Authenticator

variable {tx : FIDOTransaction ω} {channel : String} {now : Nat} {s s' : FIDO2Authenticator ω}
  {request v : CBOR}

theorem makeNew_fits (hstore : store.Limited) {p : MakeParameters}
    (hp : makeParameters P request = .ok p) (s : FIDO2Authenticator ω) :
    wp (makeNew P store request p tx) (fun v _ => v.Fits) (fun _ _ => True) s := by
  simp only [makeNew, wp_bind, wp_onWorld, wp_signs, wp_pure]
  refine wp_fromExcept (fun name _ => wp_fromExcept (fun displayName _ => ?_) fun _ _ => trivial)
    fun _ _ => trivial
  refine wp_intro (fun c w hgenerate => ?_) fun _ _ _ => trivial
  obtain ⟨hid, hprotection⟩ := hstore.generate hgenerate (protection_le hp)
  refine wp_fromExcept (fun key hkey => ?_) fun _ _ => trivial
  refine wp_intro (fun signature w hsign => ?_) fun _ _ _ => trivial
  refine wp_intro (fun _ w _ => ?_) fun _ _ _ => trivial
  refine wp_intro (fun _ w _ => ?_) fun _ _ _ => trivial
  exact attestation_fits (length_data hid hprotection hkey) (hstore.bounded.sign hsign)

/-- **What `make` returns fits.** -/
theorem make_fits (hstore : store.Limited) (h : (make P store request tx).run s = .ok v s') :
    v.Fits := by
  have hw : wp (make P store request tx) (fun v _ => v.Fits) (fun _ _ => True) s := by
    simp only [make, wp_bind, wp_onWorld]
    refine wp_fromExcept (fun p hp => ?_) fun _ _ => trivial
    refine wp_intro (fun existing w _ => ?_) fun _ _ _ => trivial
    split
    · simp only [wp_bind, wp_signs, wp_throw]
      exact wp_intro (fun _ _ _ => trivial) fun _ _ _ => trivial
    · exact wp_ite (fun _ => makeNew_fits hstore hp _) fun _ => trivial
  exact hw.ok h

/-- What is queued fits. -/
def Queued (s : FIDO2Authenticator ω) : Prop := ∀ b, s.next = some b → ∀ v ∈ b.responses, v.Fits

theorem Queued.of_next (h : s.Queued) (hs : s'.next = s.next) : s'.Queued := by
  intro b hb
  exact h b (hs ▸ hb)

theorem Queued.of_none (h : s.next = none) : s.Queued := by
  intro b hb
  exact nomatch h.symm.trans hb

/-- **What `assertion` returns fits**, and so does what it queues. -/
theorem assertion_fits (hstore : store.Limited)
    (h : (assertion P store request channel tx now).run s = .ok v s') :
    v.Fits ∧ ∀ b, s'.next = some b → s.next = some b ∨ ∀ u ∈ b.responses, u.Fits := by
  cases (assertion_wp s).ok h with
  | preflight hp hc hflight hids hfind =>
      have hmem := (List.mem_filter.mp (List.mem_of_find?_eq_some hfind)).1
      exact ⟨preflightReply_fits _ ((hstore.bounded.credentials hc).2 _ hmem), fun b hb => .inl hb⟩
  | signed hp hc hflight hpairs hsigns hreplies hcalls hnext =>
      have hfit := repliesFor_fit hstore.bounded hc hpairs hsigns
      rw [hreplies] at hfit
      refine ⟨hfit v List.mem_cons_self, fun b hb => ?_⟩
      rw [hnext] at hb
      split at hb
      · exact .inl hb
      · cases hb
        exact .inr fun u hu => hfit u (List.mem_cons_of_mem _ hu)

/-- **What a command returns fits**, and so does what is queued after it. -/
theorem perform_fits (hstore : store.Limited) {command : UInt8} {body : Data} (hs : s.Queued)
    (h : (perform P store command body channel tx now).run s = .ok v s') : v.Fits ∧ s'.Queued := by
  have hw : wp (perform P store command body channel tx now) (fun v s' => v.Fits ∧ s'.Queued)
      (fun _ _ => True) s := by
    rw [perform]
    refine wp_ite (fun _ => wp_ite (fun _ => ⟨info_fits, hs⟩) fun _ => trivial) fun _ => ?_
    refine wp_ite (fun _ => ?_) fun _ => ?_
    · rw [wp_bind]
      refine wp_fromExcept (fun request _ => wp_ite (fun _ => trivial) fun _ => ?_) fun _ _ => trivial
      refine wp_ite (fun _ => ?_) fun _ => ?_
      · refine wp_intro (fun v s' hv => ?_) fun _ _ _ => trivial
        exact ⟨make_fits hstore hv, hs.of_next ((make_next s).ok hv)⟩
      · refine wp_intro (fun v s' hv => ?_) fun _ _ _ => trivial
        obtain ⟨hfit, hnext⟩ := assertion_fits hstore hv
        exact ⟨hfit, fun b hb => (hnext b hb).elim (hs b) id⟩
    · refine wp_ite (fun _ => wp_ite (fun _ => ?_) fun _ => trivial) fun _ => trivial
      refine wp_mono (nextAssertion_wp s) ?_ fun _ _ _ => trivial
      rintro v _ ⟨deadline, rest, hn, -, rfl⟩
      have hfit := hs _ hn
      refine ⟨hfit v List.mem_cons_self, fun b hb => ?_⟩
      obtain ⟨-, hb⟩ := Option.ite_none_left_eq_some.mp hb
      cases hb
      exact fun u hu => hfit u (List.mem_cons_of_mem _ hu)
  exact hw.ok h

theorem Queued.begun (h : s.Queued) (command : UInt8) (w : ω) : (s.begun command w).Queued := by
  intro b hb
  exact h b (Option.ite_none_right_eq_some.mp hb).2

/-- A call of `process` or `clear` leaves nothing queued that does not fit. -/
theorem Queued.step (hstore : store.Limited) {e : Event ω} {o : Outcome} (hs : s.Queued)
    (h : s.Step P store e o s') : s'.Queued := by
  cases e with
  | clear =>
      obtain ⟨-, rfl⟩ := Prod.mk.inj h.1
      exact .of_none rfl
  | process message channel tx now =>
      obtain ⟨r, -, hp, -⟩ := h.process_eq
      rcases process_cases hp with hr | ⟨e, s₁, -, -, rfl⟩
      · obtain ⟨command, body, w₁, v, s₂, w₂, -, -, -, hperf, -, -, -, rfl⟩ := respond_eq_ok.mp hr
        exact ((perform_fits hstore (hs.begun command w₁) hperf).2).of_next rfl
      · exact .of_none rfl

/-- A command that succeeds is answered with its result: the guard at the end of `process` does not
fail. -/
theorem process_of_perform (hstore : store.Limited) {command : UInt8} {body : Data} {w₁ w₂ : ω}
    (hs : s.Queued) (hlen : (command :: body).length ≤ maximumMessage)
    (hw₁ : tx.check.run s.world = .ok () w₁)
    (hv : (perform P store command body channel tx now).run (s.begun command w₁) = .ok v s')
    (hw₂ : tx.check.run s'.world = .ok () w₂) :
    s.process P store (command :: body) channel tx now =
      (0 :: v.encoded, { s' with world := w₂ }) := by
  have hfit := (perform_fits hstore (hs.begun command w₁) hv).1
  have hok : (respond P store (command :: body) channel tx now).run s =
      .ok (0 :: v.encoded) { s' with world := w₂ } :=
    respond_eq_ok.mpr ⟨command, body, w₁, v, s', w₂, rfl, hlen, hw₁, hv, hw₂, hfit, rfl, rfl⟩
  simp only [process, hok]

end FIDO2Authenticator

/-! ### What the host accepts -/

/-- The fields of a message, as the host reads them. -/
def fieldsOf (value : Object) : Fields := value.map fun e => (e.1, e.2.string)

theorem utf8_ofList {l : List Char} (h : ∀ c ∈ l, c.toNat < 128) :
    utf8 (String.ofList l) = l.map fun c => UInt8.ofNat c.toNat := by
  induction l with
  | nil => rfl
  | cons c l ih =>
      have hsize : c.utf8Size = 1 :=
        Char.utf8Size_eq_one_iff.mpr (Nat.lt_succ_iff.mp (h c List.mem_cons_self))
      have ih := ih fun c hc => h c (List.mem_cons_of_mem _ hc)
      rw [utf8, String.toUTF8_eq_toByteArray, String.toByteArray_ofList] at ih ⊢
      rw [List.utf8Encode_cons, ByteArray.data_append, Array.toList_append, ih, List.map_cons,
        List.utf8Encode_singleton, String.utf8EncodeChar_eq_singleton hsize]
      rfl

theorem length_utf8_base64 (d : Data) :
    (utf8 (String.ofList (Base64.encode d))).length = (d.length + 2) / 3 * 4 := by
  rw [utf8_ofList (Base64.encode_ascii d), List.length_map, Base64.length_encode]

/-- The channel passes the host's checks. -/
theorem utf8_hex8 (cid : UInt32) : (utf8 (hex8 cid)).length = 8 ∧
    ((utf8 (hex8 cid)).all fun b => 48 ≤ b && b ≤ 57 || 97 ≤ b && b ≤ 102) = true := by
  obtain ⟨l, hl, hlength, hhex⟩ := hex8_digits cid
  have hascii : ∀ c ∈ l, c.toNat < 128 := by
    intro c hc
    rcases hhex c hc with h | h <;> omega
  rw [hl, utf8_ofList hascii, List.length_map]
  refine ⟨hlength, List.all_eq_true.mpr fun b hb => ?_⟩
  obtain ⟨c, hc, rfl⟩ := List.mem_map.mp hb
  have hbyte : (UInt8.ofNat c.toNat).toNat = c.toNat :=
    UInt8.toNat_ofNat_of_lt' ((hascii c hc).trans (by decide))
  simp only [Bool.or_eq_true, Bool.and_eq_true, decide_eq_true_eq, UInt8.le_iff_toNat_le, hbyte]
  exact hhex c hc

/-- **The host accepts what the relay writes** for a message of the transport. -/
theorem asked_request {F : Foundation} (hbase : ∀ d, F.base64 (String.ofList (Base64.encode d)) = some d)
    {id : String} {payload : Data} (hid : F.isUUID id = true) (cid : UInt32)
    (hpos : 1 ≤ payload.length) (hle : payload.length ≤ maximumMessage) :
    asked F (fieldsOf (Rpc.request id cid payload).value) = .process id (hex8 cid) payload := by
  have hencoded : (utf8 (String.ofList (Base64.encode payload))).length ≤ 1368 := by
    rw [length_utf8_base64]
    rw [maximumMessage] at hle
    omega
  obtain ⟨hchannel, hdigits⟩ := utf8_hex8 cid
  have hdata : payload ≠ [] ∧ payload.length ≤ maximumMessage := ⟨List.length_pos_iff.mp hpos, hle⟩
  simp [asked, fieldsOf, Rpc.value, Fields.string, Fields.hasKeys, Json.string, List.lookup_cons, hid, hbase,
    hencoded, hchannel, hdigits, hdata]

open FIDO2Authenticator in
/-- **Messages fit the transport.**  With a limited store, and the store of the repository is one, what
`info`, `make` and `assertion` build, the queued replies included, encodes to at most 1023 bytes; so
along every run a command that succeeds is answered with its result, and the guard at the end of
`process` does not fail.  The other way, what the transport hands to the relay has 1 to 1024 bytes, at
most 1368 in Base64, and the host accepts it. -/
theorem messages_fit (P : Platform) (store : FIDOKeyStore ω) (hstore : store.Limited) (F : Foundation)
    (hbase : ∀ d, F.base64 (String.ofList (Base64.encode d)) = some d) :
    (∀ J env, (∀ t k d signature, env.signature t k d = some signature → signature.length ≤ 72) →
      (∀ id, env.identifier = some id → id.length = 32) →
      (secureEnclaveFIDOStore P J env).Limited) ∧
    info.encoded.length ≤ 1023 ∧
    (∀ {request v : CBOR} {tx : FIDOTransaction ω} {s s' : FIDO2Authenticator ω},
      (make P store request tx).run s = .ok v s' → v.encoded.length ≤ 1023) ∧
    (∀ {request v : CBOR} {channel : String} {tx : FIDOTransaction ω} {now : Nat}
        {s s' : FIDO2Authenticator ω},
      (assertion P store request channel tx now).run s = .ok v s' → v.encoded.length ≤ 1023 ∧
        ∀ b, s'.next = some b → s.next = some b ∨ ∀ u ∈ b.responses, u.encoded.length ≤ 1023) ∧
    (∀ {s₀ s : FIDO2Authenticator ω} {t : List (Event ω × Outcome)}, s₀.next = none →
      Steps (Step P store) s₀ t s →
      ∀ {command : UInt8} {body : Data} {channel : String} {tx : FIDOTransaction ω} {now : Nat}
        {w₁ : ω} {v : CBOR} {s' : FIDO2Authenticator ω}, (command :: body).length ≤ 1024 →
      tx.check.run s.world = .ok () w₁ →
      (perform P store command body channel tx now).run (s.begun command w₁) = .ok v s' →
      v.encoded.length ≤ 1023 ∧ ∀ w₂, tx.check.run s'.world = .ok () w₂ →
        s.process P store (command :: body) channel tx now =
          (0 :: v.encoded, { s' with world := w₂ })) ∧
    ∀ {t : List (Hid.Event × List Effect)} {s s' : HID} {e : Hid.Event} {out : List Effect}
        {id : String} {cid : UInt32} {payload : Data}, Steps HID.Step .new t s → s.Step e out s' →
      .request id cid payload ∈ out →
      (1 ≤ payload.length ∧ payload.length ≤ 1024) ∧
      (utf8 (String.ofList (Base64.encode payload))).length ≤ 1368 ∧
      (F.isUUID id = true →
        asked F (fieldsOf (Rpc.request id cid payload).value) = .process id (hex8 cid) payload) := by
  refine ⟨fun J env => secureEnclaveFIDOStore_limited P J, CBOR.fits_iff.mp info_fits, ?_, ?_, ?_, ?_⟩
  · intro request v tx s s' h
    exact CBOR.fits_iff.mp (make_fits hstore h)
  · intro request v channel tx now s s' h
    obtain ⟨hfit, hnext⟩ := assertion_fits hstore h
    exact ⟨CBOR.fits_iff.mp hfit, fun b hb =>
      (hnext b hb).imp id fun hfits u hu => CBOR.fits_iff.mp (hfits u hu)⟩
  · intro s₀ s t hs₀ hrun command body channel tx now w₁ v s' hlen hw₁ hv
    have hs : s.Queued := Steps.invariant (fun h => h.step hstore) hrun (.of_none hs₀)
    refine ⟨CBOR.fits_iff.mp (perform_fits hstore (hs.begun command w₁) hv).1, fun w₂ hw₂ => ?_⟩
    exact process_of_perform hstore hs hlen hw₁ hv hw₂
  · intro t s s' e out id cid payload hrun hstep hmem
    have hs : s.Invariant := Steps.invariant HID.invariant_step hrun .new
    obtain ⟨hpos, hle⟩ := HID.request_length hs hstep hmem
    refine ⟨⟨hpos, hle⟩, ?_, fun hid => asked_request hbase hid cid hpos hle⟩
    rw [length_utf8_base64]
    rw [maxMessage] at hle
    omega

/-- Two passkeys are offered, and a request for the authenticator's information comes from the
device. -/
theorem messages_fit_passkeys :
    (∃ v s', (FIDO2Authenticator.perform Sample.platform Sample.passkeys 0x02 (Sample.getAssertion [])
        "0000000a" Sample.transaction 0).run ⟨(), none, []⟩ = .ok v s' ∧ v.encoded.length ≤ 1023 ∧
      (FIDO2Authenticator.process Sample.platform Sample.passkeys (0x02 :: Sample.getAssertion [])
        "0000000a" Sample.transaction 0 ⟨(), none, []⟩).1 = 0 :: v.encoded) ∧
    asked Sample.strict
        (fieldsOf (Rpc.request "5f0c8f6e-0001-4c57-9d53-1f2a3b4c5d6e" 7 [4]).value) =
      .process "5f0c8f6e-0001-4c57-9d53-1f2a3b4c5d6e" "00000007" [4] := by
  have hstore : Sample.passkeys.Limited := by
    refine ⟨⟨?_, ?_⟩, ?_⟩
    · intro w l w' h
      cases h
      decide +kernel
    · intro c d tx w signature w' h
      cases h
      decide
    · intro rp user name displayName discoverable protection tx w c w' h hp
      cases h
      exact ⟨rfl, hp⟩
  have hbase : ∀ d, Sample.strict.base64 (String.ofList (Base64.encode d)) = some d := by
    intro d
    change Base64.decode (String.ofList (Base64.encode d)).toList = some d
    rw [String.toList_ofList, Base64.decode_encode]
  have hfit := messages_fit Sample.platform Sample.passkeys hstore Sample.strict hbase
  refine ⟨?_, ?_⟩
  · have hok : (match (FIDO2Authenticator.perform Sample.platform Sample.passkeys 0x02
        (Sample.getAssertion []) "0000000a" Sample.transaction 0).run ⟨(), none, []⟩ with
        | .ok _ _ => true
        | .error _ _ => false) = true := by
      decide +kernel
    split at hok
    · next v s' hv =>
        obtain ⟨hlength, hprocess⟩ := hfit.2.2.2.2.1 rfl (.refl ⟨(), none, []⟩) (by decide +kernel) rfl hv
        exact ⟨v, s', hv, hlength, congrArg Prod.fst (hprocess () rfl)⟩
    · cases hok
  · have hrun : Steps HID.Step HID.new _ _ := .one
      (show HID.Step HID.new (.receive (initPacket broadcast Cmd.init [1, 2, 3, 4, 5, 6, 7, 8])
          ⟨[7], "", 0, 0, 0⟩)
        (emits broadcast Cmd.init [1, 2, 3, 4, 5, 6, 7, 8, 0, 0, 0, 7, 2, 0, 1, 0, 0x0c])
        ⟨[7], none, none⟩ by decide +kernel)
    have hstep : HID.Step ⟨[7], none, none⟩ (.receive (initPacket 7 Cmd.cbor [4])
        ⟨[], "5f0c8f6e-0001-4c57-9d53-1f2a3b4c5d6e", 0, 0, 0⟩)
        [.request "5f0c8f6e-0001-4c57-9d53-1f2a3b4c5d6e" 7 [4]]
        ⟨[7], none, some ⟨7, "5f0c8f6e-0001-4c57-9d53-1f2a3b4c5d6e", 65000, 200⟩⟩ := by
      decide +kernel
    exact (hfit.2.2.2.2.2 hrun hstep List.mem_cons_self).2.2 (by decide)

end Ashacky.Fido
