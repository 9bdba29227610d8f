import Ashacky.Fido.Runs

/-!
# Fido — every signature is bound to its request

The protected keys sign only what the authenticator builds: the hash of the relying party's id,
flags with the UV bit, further authenticator data, and the client data hash of the request being
processed.  Four places build such bytes; a fifth, the pre-flight reply, signs nothing.

The relying party is that of the request.  The credential that signs is one of it as Swift compares
strings, so its `rp` is the same text when both are in ASCII (the request's always is), and may be
another spelling of it when a stored record is not.

* `make_wp`, `assertion_wp`: the calls of `store.sign` that one command makes, and the replies it
  builds from their results.
* `call_bound`: every call in a `process` is bound to its message.
* `rp_binding`: along every run, and every successful response with UP or UV set carries a
  signature made over its authenticator data and the client data hash of its own request.
* `not_rp_binding_kelvin`: a stored record whose `rp` is spelt with the Kelvin sign.
-/

namespace Ashacky.Fido
open Ashacky.Support

variable {ω : Type}

/-- The relying party's id and the client data hash of a request message. -/
def requested : Data → Option (String × Data)
  | [] => none
  | command :: body =>
      match CBOR.decode body with
      | .error _ => none
      | .ok request =>
          if command = 0x01 then do
            let rp ← ((request.index 2).bind (·.get "id")).bind CBOR.string
            let clientHash ← (request.index 1).bind CBOR.data
            return (rp, clientHash)
          else if command = 0x02 then do
            let rp ← (request.index 1).bind CBOR.string
            let clientHash ← (request.index 2).bind CBOR.data
            return (rp, clientHash)
          else none

/-- The call is for a credential of `rp` as Swift compares strings, which is of this very text if
it is in ASCII, and signs `SHA-256(rp)`, flags with UV, further data and `clientHash`. -/
def Bound (P : Platform) (rp : String) (clientHash : Data) (call : SignCall) : Prop :=
  P.same call.credential.rp rp ∧ (isASCII call.credential.rp → call.credential.rp = rp) ∧
    ∃ flags rest, flags &&& 4 ≠ 0 ∧ call.data = P.sha256 (utf8 rp) ++ flags :: rest ++ clientHash

/-- The authenticator data of a reply. -/
def authDataOf (reply : CBOR) : Option Data := (reply.index 2).bind CBOR.data

/-- The signature of a reply: of an assertion, or of an attestation statement. -/
def signatureOf (reply : CBOR) : Option Data :=
  (reply.index 3).bind fun
    | .bytes signature => some signature
    | statement => (statement.get "sig").bind CBOR.data

/-- The flags of authenticator data, after the 32 bytes of the hash. -/
def flagsOf (data : Data) : UInt8 := data.getD 32 0

/-- If UP or UV is set in the reply, its signature is the result of one of the calls, over its
authenticator data and the client data hash. -/
def Signed (calls : List SignCall) (clientHash : Data) (reply : CBOR) : Prop :=
  ∃ data, authDataOf reply = some data ∧ (flagsOf data &&& 5 ≠ 0 →
    ∃ call ∈ calls, ∃ signature, call.data = data ++ clientHash ∧ call.result = .ok signature ∧
      signatureOf reply = some signature)

/-! ### Making a credential -/

section Commands

variable {P : Platform} {store : FIDOKeyStore ω} {request : CBOR} {tx : FIDOTransaction ω}

/-- `store.generate` returns a credential of the relying party it was given. -/
def FIDOKeyStore.GeneratesFor (store : FIDOKeyStore ω) : Prop :=
  ∀ rp user name displayName discoverable protection tx w c w',
    (store.generate rp user name displayName discoverable protection tx).run w = .ok c w' → c.rp = rp

/-- The state after calls that satisfy `B`, with the batch as it was. -/
def After (B : SignCall → Prop) (s s' : FIDO2Authenticator ω) : Prop :=
  s'.next = s.next ∧ ∃ new, s'.calls = s.calls ++ new ∧ ∀ call ∈ new, B call

theorem After.refl {B : SignCall → Prop} (s : FIDO2Authenticator ω) (w : ω) :
    After B s { s with world := w } :=
  ⟨rfl, [], (List.append_nil _).symm, by simp⟩

theorem After.one {B : SignCall → Prop} (s : FIDO2Authenticator ω) (w : ω) {call : SignCall}
    (h : B call) : After B s { s with world := w, calls := s.calls ++ [call] } :=
  ⟨rfl, [call], rfl, by simpa using h⟩

theorem signed_attestation (c : FIDOCredential) (data signature clientHash : Data) :
    Signed [⟨c, data ++ clientHash, .ok signature⟩] clientHash (attestation data signature) :=
  ⟨data, rfl, fun _ => ⟨_, List.mem_singleton_self _, signature, rfl, rfl, rfl⟩⟩

/-- A call for a credential that the platform takes for one of `rp`. -/
theorem Bound.of_same {P : Platform} {rp : String} {clientHash data : Data} {c : FIDOCredential}
    {result : Except Thrown Data} (flags : UInt8) (rest : Data) (hrp : rpText rp)
    (hsame : P.same c.rp rp = true) (hflags : flags &&& 4 ≠ 0)
    (hdata : data = P.sha256 (utf8 rp) ++ flags :: rest ++ clientHash) :
    Bound P rp clientHash ⟨c, data, result⟩ :=
  ⟨hsame, fun hascii => P.same_ascii _ _ hascii hrp.isASCII hsame, flags, rest, hflags, hdata⟩

/-- The data of a new credential begins with the hash and flags that have UV. -/
theorem bound_data {p : MakeParameters} {c : FIDOCredential} {key : CBOR}
    {result : Except Thrown Data} (htext : rpText p.relyingParty) (hrp : c.rp = p.relyingParty) :
    Bound P p.relyingParty p.clientHash ⟨c, p.data P c key ++ p.clientHash, result⟩ := by
  have hflags : (if p.cp.isSome then 0xc5 else 0x45 : UInt8) &&& 4 ≠ 0 := by
    split <;> decide
  refine .of_same _ ([0, 0, 0, 0] ++ (List.replicate 16 0 ++
    (([0, UInt8.ofNat c.id.length] ++ c.id) ++ (key.encoded ++ if p.cp.isSome then
      (CBOR.map [(.text "credProtect", .int (Int64.ofInt c.protection))]).encoded else []))))
    htext (hrp ▸ P.same_refl _) hflags ?_
  simp [MakeParameters.data, authData]

theorem makeNew_wp (hgen : store.GeneratesFor) (p : MakeParameters)
    (htext : rpText p.relyingParty) (s : FIDO2Authenticator ω) :
    wp (makeNew P store request p tx)
      (fun v s' => s'.next = s.next ∧ ∃ new, s'.calls = s.calls ++ new ∧
        (∀ call ∈ new, Bound P p.relyingParty p.clientHash call) ∧ Signed new p.clientHash v)
      (fun _ s' => After (Bound P p.relyingParty p.clientHash) s s') s := by
  simp only [makeNew, wp_bind, wp_onWorld, wp_signs, wp_pure]
  refine wp_fromExcept (fun name _ => wp_fromExcept (fun displayName _ => ?_) ?_) ?_
  · refine wp_intro (fun c w hc => ?_) fun e w _ => After.refl s w
    have hrp : c.rp = p.relyingParty := hgen _ _ _ _ _ _ _ _ _ _ hc
    refine wp_fromExcept (fun key _ => ?_) fun e _ => After.refl s w
    refine wp_intro (fun signature w₁ _ => ?_) fun e w₁ _ => After.one s w₁ (bound_data htext hrp)
    refine wp_intro (fun _ w₂ _ => wp_intro (fun _ w₃ _ => ?_) fun e w₃ _ => ?_) fun e w₂ _ => ?_
    · exact ⟨rfl, _, rfl, by simpa using bound_data htext hrp, signed_attestation c _ _ _⟩
    · exact After.one s w₃ (bound_data htext hrp)
    · exact After.one s w₂ (bound_data htext hrp)
  · intro e _
    exact After.refl s s.world
  · intro e _
    exact After.refl s s.world

/-- **The calls of `make`**: one for an excluded credential, or one for the new credential, whose
result the reply carries. -/
theorem make_wp (hgen : store.GeneratesFor) (s : FIDO2Authenticator ω) :
    wp (make P store request tx)
      (fun v s' => ∃ p, makeParameters P request = .ok p ∧ s'.next = s.next ∧
        ∃ new, s'.calls = s.calls ++ new ∧
          (∀ call ∈ new, Bound P p.relyingParty p.clientHash call) ∧ Signed new p.clientHash v)
      (fun _ s' => After (fun call => ∃ p, makeParameters P request = .ok p ∧
        Bound P p.relyingParty p.clientHash call) s s') s := by
  simp only [make, wp_bind, wp_onWorld]
  refine wp_fromExcept (fun p hp => ?_) fun e _ => After.refl s s.world
  refine wp_intro (fun existing w _ => ?_) fun e w _ => After.refl s w
  obtain ⟨-, -, -, htext, -⟩ := makeParameters_eq_ok hp
  split
  · rename_i c hc
    have hrp : P.same c.rp p.relyingParty = true := by
      have := List.find?_some hc
      simp only [MakeParameters.excludes, decide_eq_true_eq] at this
      exact this.1
    have hb : ∀ result, Bound P p.relyingParty p.clientHash
        ⟨c, authData P p.relyingParty 5 ++ p.clientHash, result⟩ := by
      intro result
      exact .of_same 5 [0, 0, 0, 0] htext hrp (by decide) (by simp [authData])
    simp only [wp_bind, wp_signs, wp_throw]
    refine wp_intro (fun _ w' _ => ?_) fun e w' _ => ?_
    · exact After.one s w' ⟨p, hp, hb _⟩
    · exact After.one s w' ⟨p, hp, hb _⟩
  · refine wp_ite (fun _ => ?_) fun _ => After.refl s w
    refine wp_mono (makeNew_wp hgen p htext _) ?_ ?_
    · rintro v s' ⟨hn, new, hnew⟩
      exact ⟨p, hp, hn, new, hnew⟩
    · rintro _ s' ⟨hn, new, hc, hnew⟩
      exact ⟨hn, new, hc, fun call hcall => ⟨p, hp, hnew call hcall⟩⟩

end Commands

/-! ### One call of `process` -/

/-- The call is bound to the request in the message. -/
def BoundTo (P : Platform) (message : Data) (call : SignCall) : Prop :=
  ∃ rp clientHash, requested message = some (rp, clientHash) ∧ clientHash.length = 32 ∧
    Bound P rp clientHash call

/-- The reply is signed for the request in the message. -/
def SignedFor (calls : List SignCall) (message : Data) (reply : CBOR) : Prop :=
  ∃ rp clientHash, requested message = some (rp, clientHash) ∧ Signed calls clientHash reply

theorem requested_make {P : Platform} {body : Data} {request : CBOR} {p : MakeParameters}
    (hd : CBOR.decode body = .ok request) (hp : makeParameters P request = .ok p) :
    requested (0x01 :: body) = some (p.relyingParty, p.clientHash) ∧ p.clientHash.length = 32 := by
  obtain ⟨h1, hl, h2, -⟩ := makeParameters_eq_ok hp
  refine ⟨?_, hl⟩
  simp [requested, hd, h1, h2, CBOR.string, CBOR.data]

theorem requested_assertion {P : Platform} {body : Data} {request : CBOR}
    {p : AssertionParameters} (hd : CBOR.decode body = .ok request)
    (hp : assertionParameters P request = .ok p) :
    requested (0x02 :: body) = some (p.relyingParty, p.clientHash) ∧ p.clientHash.length = 32 ∧
      rpText p.relyingParty := by
  obtain ⟨h1, htext, h2, hl⟩ := assertionParameters_eq_ok hp
  refine ⟨?_, hl, htext⟩
  simp [requested, hd, h1, h2, CBOR.string, CBOR.data]

theorem bound_assertion {P : Platform} {p : AssertionParameters} {call : SignCall}
    (htext : rpText p.relyingParty) (hrp : P.same call.credential.rp p.relyingParty = true)
    (hd : call.data = authData P p.relyingParty p.flags ++ p.clientHash) :
    Bound P p.relyingParty p.clientHash call := by
  have hflags : p.flags &&& 4 ≠ 0 := by
    rw [AssertionParameters.flags]
    split <;> decide
  exact .of_same p.flags [0, 0, 0, 0] htext hrp hflags (by simp [hd, authData])

/-- A pre-flight reply has UP and UV clear. -/
theorem flagsOf_authData (P : Platform) (rp : String) (flags : UInt8) :
    flagsOf (authData P rp flags) = flags := by
  have hl : (P.sha256 (utf8 rp)).length = 32 := P.length_sha256 _
  rw [flagsOf, authData, List.getD_eq_getElem?_getD, List.getElem?_append_right hl.le, hl]
  rfl

theorem index_assertionReply (data signature : Data) (c : FIDOCredential) (number : Option Nat) :
    authDataOf (assertionReply data signature c number) = some data ∧
      signatureOf (assertionReply data signature c number) = some signature := by
  cases number <;> exact ⟨rfl, rfl⟩

/-- Every signed reply carries the signature of the call for its credential. -/
theorem signed_repliesFor {data clientHash : Data} {pairs : List (FIDOCredential × Data)} {v : CBOR}
    (h : v ∈ repliesFor data pairs) :
    Signed (pairs.map (signedCall (data ++ clientHash))) clientHash v := by
  have hx : ∃ x ∈ pairs, ∃ number, v = assertionReply data x.2 x.1 number := by
    cases pairs with
    | nil => cases h
    | cons x rest =>
        rcases List.mem_cons.mp h with rfl | h
        · exact ⟨x, List.mem_cons_self, _, rfl⟩
        · obtain ⟨y, hy, rfl⟩ := List.mem_map.mp h
          exact ⟨y, List.mem_cons_of_mem _ hy, _, rfl⟩
  obtain ⟨x, hx, number, rfl⟩ := hx
  obtain ⟨hd, hs⟩ := index_assertionReply data x.2 x.1 number
  exact ⟨data, hd, fun _ => ⟨_, List.mem_map_of_mem hx, x.2, rfl, rfl, hs⟩⟩

/-- What a successful command leaves: calls bound to the message; a reply signed for it, or taken
from the batch; and queued replies that are signed for it or were queued before. -/
structure Performed (P : Platform) (message : Data) (s : FIDO2Authenticator ω) (reply : CBOR)
    (s' : FIDO2Authenticator ω) (new : List SignCall) : Prop where
  calls : s'.calls = s.calls ++ new
  bound : ∀ call ∈ new, BoundTo P message call
  made : message.head? = some 0x01 ∨ message.head? = some 0x02 → SignedFor new message reply
  fetched : message.head? = some 0x08 → ∃ b, s.next = some b ∧ reply ∈ b.responses
  queued : ∀ b, s'.next = some b → ∀ v ∈ b.responses,
    (∃ b₀, s.next = some b₀ ∧ v ∈ b₀.responses) ∨
      (message.head? = some 0x02 ∧ SignedFor new message v)

namespace FIDO2Authenticator

variable {P : Platform} {store : FIDOKeyStore ω} {channel : String} {tx : FIDOTransaction ω}
  {now : Nat}

theorem performed_make {body : Data} {request : CBOR} {v : CBOR} {s s' : FIDO2Authenticator ω}
    (hd : CBOR.decode body = .ok request) (hs : s.next = none)
    (h : ∃ p, makeParameters P request = .ok p ∧ s'.next = s.next ∧
      ∃ new, s'.calls = s.calls ++ new ∧
        (∀ call ∈ new, Bound P p.relyingParty p.clientHash call) ∧ Signed new p.clientHash v) :
    ∃ new, Performed P (0x01 :: body) s v s' new := by
  obtain ⟨p, hp, hn, new, hc, hb, hsig⟩ := h
  obtain ⟨hreq, hl⟩ := requested_make hd hp
  refine ⟨new, hc, fun call hcall => ⟨_, _, hreq, hl, hb call hcall⟩, fun _ => ⟨_, _, hreq, hsig⟩,
    by simp, ?_⟩
  intro b hb' v _
  rw [hn, hs] at hb'
  cases hb'

theorem performed_assertion {body : Data} {request : CBOR} {v : CBOR}
    {s s' : FIDO2Authenticator ω} (hd : CBOR.decode body = .ok request) (hs : s.next = none)
    (h : Asserted P store request channel tx now s v s') :
    ∃ new, Performed P (0x02 :: body) s v s' new := by
  cases h with
  | preflight hp hc hflight hids hfind =>
      rename_i p existing w ids c
      obtain ⟨hreq, -⟩ := requested_assertion hd hp
      refine ⟨[], by simp, by simp, fun _ => ⟨_, _, hreq, authData P p.relyingParty 0, rfl, ?_⟩,
        by simp, ?_⟩
      · rw [flagsOf_authData]
        intro h
        exact absurd rfl h
      · intro b hb
        rw [hs] at hb
        cases hb
  | signed hp hc hflight hpairs hsigns hreplies hcalls hnext =>
      rename_i p existing w pairs rest
      obtain ⟨hreq, hl, htext⟩ := requested_assertion hd hp
      refine ⟨_, hcalls, ?_, fun _ => ⟨_, _, hreq, signed_repliesFor (by simp [hreplies])⟩,
        by simp, ?_⟩
      · intro call hcall
        obtain ⟨x, hx, rfl⟩ := List.mem_map.mp hcall
        have hsel : x.1 ∈ existing.filter (p.selects P) := hpairs ▸ List.mem_map_of_mem hx
        have hrp := AssertionParameters.rp_of_selects (List.mem_filter.mp hsel).2
        exact ⟨_, _, hreq, hl, bound_assertion htext hrp rfl⟩
      · intro b hb u hu
        rw [hnext, hs] at hb
        split at hb
        · cases hb
        · cases hb
          exact .inr ⟨rfl, _, _, hreq, signed_repliesFor (by simp [hreplies, hu])⟩

/-- **The calls of one command** are bound to its message, and its replies are signed for it. -/
theorem perform_wp (hgen : store.GeneratesFor) {command : UInt8} {body : Data}
    {s : FIDO2Authenticator ω} (hs : command ≠ 0x08 → s.next = none) :
    wp (perform P store command body channel tx now)
      (fun v s' => ∃ new, Performed P (command :: body) s v s' new)
      (fun _ s' => ∃ new, s'.calls = s.calls ++ new ∧ ∀ call ∈ new,
        BoundTo P (command :: body) call) s := by
  have hnone : ∃ new, s.calls = s.calls ++ new ∧ ∀ call ∈ new, BoundTo P (command :: body) call :=
    ⟨[], by simp, by simp⟩
  rw [perform]
  refine wp_ite ?_ fun h4 => wp_ite (fun h12 => ?_) fun h12 => wp_ite ?_ fun _ => hnone
  · rintro rfl
    refine wp_ite (fun _ => ?_) fun _ => hnone
    refine ⟨[], by simp, by simp, by simp, by simp, fun b hb => ?_⟩
    rw [hs (by decide)] at hb
    cases hb
  · rw [wp_bind]
    refine wp_fromExcept (fun request hd => ?_) fun _ _ => hnone
    refine wp_ite (fun _ => hnone) fun _ => wp_ite ?_ fun h1 => ?_
    · rintro rfl
      refine wp_mono (make_wp hgen s) (fun v s' h => performed_make hd (hs (by decide)) h) ?_
      rintro _ s' ⟨-, new, hc, hb⟩
      refine ⟨new, hc, fun call hcall => ?_⟩
      obtain ⟨p, hp, hb⟩ := hb call hcall
      obtain ⟨hreq, hl⟩ := requested_make hd hp
      exact ⟨_, _, hreq, hl, hb⟩
    · obtain rfl := h12.resolve_left h1
      refine wp_mono (assertion_wp s) (fun v s' h => performed_assertion hd (hs (by decide)) h) ?_
      rintro _ s' ⟨-, new, hc, hb⟩
      refine ⟨new, hc, fun call hcall => ?_⟩
      obtain ⟨p, hp, hrp, hdata⟩ := hb call hcall
      obtain ⟨hreq, hl, htext⟩ := requested_assertion hd hp
      exact ⟨_, _, hreq, hl, bound_assertion htext hrp hdata⟩
  · rintro rfl
    refine wp_ite (fun _ => ?_) fun _ => hnone
    refine wp_mono (nextAssertion_wp s) ?_ ?_
    · rintro v _ ⟨deadline, rest, hn, -, rfl⟩
      refine ⟨[], by simp, by simp, by simp, fun _ => ⟨_, hn, List.mem_cons_self⟩, ?_⟩
      intro b hb u hu
      left
      refine ⟨_, hn, List.mem_cons_of_mem _ ?_⟩
      change (if rest.isEmpty then none else some _) = some b at hb
      split at hb
      · cases hb
      · cases hb
        exact hu
    · rintro _ _ ⟨-, rfl⟩
      exact hnone

theorem performed_of_begun {command : UInt8} {body : Data} {w : ω} {v : CBOR}
    {s s' : FIDO2Authenticator ω} {new : List SignCall}
    (h : Performed P (command :: body) (s.begun command w) v s' new) :
    Performed P (command :: body) s v s' new := by
  have hnext : ∀ b, (s.begun command w).next = some b → s.next = some b := by
    intro b hb
    simp only [begun] at hb
    split at hb
    · exact hb
    · cases hb
  obtain ⟨hc, hb, hm, hf, hq⟩ := h
  refine ⟨hc, hb, hm, fun h8 => ?_, fun b' hb' v' hv' => ?_⟩
  · obtain ⟨b, hb, hv⟩ := hf h8
    exact ⟨b, hnext b hb, hv⟩
  · rcases hq b' hb' v' hv' with ⟨b, hb, hv⟩ | h
    · exact .inl ⟨b, hnext b hb, hv⟩
    · exact .inr h

/-- **One call**, with its calls of `store.sign`: they are bound to its message, and a response of
more than a status byte is that of a performed command. -/
theorem process_performed (hgen : store.GeneratesFor) {message r : Data}
    {s s' : FIDO2Authenticator ω} (h : s.process P store message channel tx now = (r, s')) :
    ∃ new, s'.calls = s.calls ++ new ∧ (∀ call ∈ new, BoundTo P message call) ∧
      ((s'.next = none ∧ r.length = 1) ∨
        ∃ v, r = 0 :: v.encoded ∧ Performed P message s v s' new) := by
  have hw : wp (respond P store message channel tx now)
      (fun r s' => ∃ v new, r = 0 :: v.encoded ∧ Performed P message s v s' new)
      (fun _ s' => ∃ new, s'.calls = s.calls ++ new ∧ ∀ call ∈ new, BoundTo P message call) s := by
    have hnone : ∃ new, s.calls = s.calls ++ new ∧ ∀ call ∈ new, BoundTo P message call :=
      ⟨[], by simp, by simp⟩
    simp only [respond.eq_def, wp_bind, wp_onWorld]
    refine wp_intro (fun _ w _ => ?_) fun _ _ _ => hnone
    split
    · exact hnone
    · rename_i command body
      refine wp_ite (fun _ => ?_) fun _ => hnone
      simp only [wp_bind, wp_modify, wp_onWorld]
      rw [begun_eq]
      refine wp_mono (perform_wp hgen (fun hne => by simp [begun, hne])) ?_ ?_
      · rintro v s₁ ⟨new, hv⟩
        have hv' := performed_of_begun hv
        refine wp_intro (fun _ w₁ _ => wp_ite (fun _ => ?_) fun _ => ?_) fun _ w₁ _ => ?_
        · exact ⟨v, new, rfl, hv'.calls, hv'.bound, hv'.made, hv'.fetched, hv'.queued⟩
        · exact ⟨new, hv'.calls, hv'.bound⟩
        · exact ⟨new, hv'.calls, hv'.bound⟩
      · rintro _ s₁ h
        exact h
  rcases process_cases h with hr | ⟨e, s₁, hr, rfl, rfl⟩
  · obtain ⟨v, new, rfl, hv⟩ := hw.ok hr
    exact ⟨new, hv.calls, hv.bound, .inr ⟨v, rfl, hv⟩⟩
  · obtain ⟨new, hc, hb⟩ := hw.error hr
    exact ⟨new, hc, hb, .inl ⟨rfl, rfl⟩⟩

end FIDO2Authenticator

/-! ### Runs -/

/-- The call of the trace that made the reply: a GetAssertion whose own calls signed it. -/
def Origin (v : CBOR) (x : Event ω × Outcome) : Prop :=
  ∃ message channel tx now, x.1 = .process message channel tx now ∧
    message.head? = some 0x02 ∧ SignedFor x.2.calls message v

theorem step_origin {P : Platform} {store : FIDOKeyStore ω} (hgen : store.GeneratesFor)
    {s s' : FIDO2Authenticator ω} {t : List (Event ω × Outcome)} {e : Event ω} {o : Outcome}
    (h : s.Step P store e o s')
    (hs : ∀ b, s.next = some b → ∀ v ∈ b.responses, ∃ x ∈ t, Origin v x) :
    ∀ b, s'.next = some b → ∀ v ∈ b.responses, ∃ x ∈ t ++ [(e, o)], Origin v x := by
  intro b hb v hv
  cases e with
  | clear =>
      obtain ⟨-, rfl⟩ := Prod.mk.inj h.1
      cases hb
  | process message channel tx now =>
      obtain ⟨r, -, hrun, hcalls⟩ := h.process_eq
      obtain ⟨new, hnew, -, ⟨hn, -⟩ | ⟨r, -, hp⟩⟩ :=
        FIDO2Authenticator.process_performed hgen hrun
      · rw [hn] at hb
        cases hb
      · have ho : o.calls = new := List.append_cancel_left (hcalls.symm.trans hnew)
        rcases hp.queued b hb v hv with ⟨b₀, hb₀, hv₀⟩ | ⟨h2, hsig⟩
        · obtain ⟨x, hx, hox⟩ := hs b₀ hb₀ v hv₀
          exact ⟨x, List.mem_append_left _ hx, hox⟩
        · exact ⟨_, List.mem_append_right _ (List.mem_singleton_self _),
            message, channel, tx, now, rfl, h2, ho ▸ hsig⟩

/-- **RP binding.**  Along every run from an authenticator without a batch, every call of
`store.sign` is bound to the message being processed; a successful MakeCredential or GetAssertion
response is signed by its own calls for its own request, and a successful GetNextAssertion response
by those of an earlier GetAssertion for that request.  The responses of one byte are those of
errors. -/
theorem rp_binding (P : Platform) (store : FIDOKeyStore ω) (hgen : store.GeneratesFor)
    {s s' : FIDO2Authenticator ω} {t : List (Event ω × Outcome)} (hs : s.next = none)
    (h : Steps (FIDO2Authenticator.Step P store) s t s') :
    (∀ message channel tx now o, (.process message channel tx now, o) ∈ t →
      ∀ call ∈ o.calls, BoundTo P message call) ∧
    ∀ t₁ t₂ message channel tx now o body, t = t₁ ++ (.process message channel tx now, o) :: t₂ →
      o.response = some (0 :: body) → body ≠ [] →
      (message.head? = some 0x01 ∨ message.head? = some 0x02 →
        ∃ v, body = v.encoded ∧ SignedFor o.calls message v) ∧
      (message.head? = some 0x08 → ∃ v, body = v.encoded ∧ ∃ x ∈ t₁, Origin v x) := by
  constructor
  · intro message channel tx now o ho call hc
    obtain ⟨t₁, t₂, rfl⟩ := List.append_of_mem ho
    obtain ⟨m, m', -, hstep, -⟩ := h.split_at
    obtain ⟨r, -, hrun, hcalls⟩ := hstep.process_eq
    obtain ⟨new, hnew, hb, -⟩ := FIDO2Authenticator.process_performed hgen hrun
    rw [List.append_cancel_left (hcalls.symm.trans hnew)] at hc
    exact hb call hc
  · rintro t₁ t₂ message channel tx now o body rfl hr hbody
    obtain ⟨m, m', hm, hstep, -⟩ := h.split_at
    obtain ⟨r, hr', hrun, hcalls⟩ := hstep.process_eq
    obtain rfl : r = 0 :: body := Option.some.inj (hr'.symm.trans hr)
    -- the queued replies in the state of this call come from the trace before it
    have hinv : ∀ b, m.next = some b → ∀ v ∈ b.responses, ∃ x ∈ [] ++ t₁, Origin v x := by
      refine Steps.invariant_trace
        (I := fun s t => ∀ b, s.next = some b → ∀ v ∈ b.responses, ∃ x ∈ t, Origin v x)
        (fun hI hstep => step_origin hgen hstep hI) hm ?_
      rw [hs]
      intro b hb
      cases hb
    obtain ⟨new, hnew, -, ⟨-, hl⟩ | ⟨v, hv, hperf⟩⟩ :=
      FIDO2Authenticator.process_performed hgen hrun
    · exact absurd (List.length_eq_zero_iff.mp (Nat.succ.inj hl)) hbody
    · obtain rfl : body = v.encoded := (List.cons.inj hv).2
      rw [List.append_cancel_left (hcalls.symm.trans hnew)]
      refine ⟨fun h12 => ⟨v, rfl, hperf.made h12⟩, fun h8 => ?_⟩
      obtain ⟨b, hb, hvb⟩ := hperf.fetched h8
      exact ⟨v, rfl, hinv b hb v hvb⟩

theorem Sample.store_generatesFor (l : List FIDOCredential) : (Sample.store l).GeneratesFor := by
  intro rp user name displayName discoverable protection tx w c w' hc
  cases hc
  rfl

/-- The two discoverable credentials of a store are signed for. -/
theorem rp_binding_two_credentials :
    let s : FIDO2Authenticator Unit := ⟨(), none, []⟩
    let store := Sample.store [Sample.credential 1 2, Sample.credential 2 3]
    let e := Event.process (0x02 :: Sample.getAssertion []) "0000000a" Sample.transaction 0
    ∃ o s', s.Step Sample.platform store e o s' ∧ o.calls.length = 2 ∧
      o.response.bind List.head? = some 0 ∧
      ∀ call ∈ o.calls, BoundTo Sample.platform (0x02 :: Sample.getAssertion []) call := by
  intro s store e
  have hbound : ∀ o s', s.Step Sample.platform store e o s' →
      ∀ call ∈ o.calls, BoundTo Sample.platform (0x02 :: Sample.getAssertion []) call := by
    intro o s' hstep
    exact (rp_binding Sample.platform store (Sample.store_generatesFor _) (s := s) rfl (.one hstep)).1 _ _ _ _ _
      (List.mem_singleton_self _)
  refine ⟨_, _, .of_run rfl e, ?_, ?_, hbound _ _ (.of_run rfl e)⟩
  · decide +kernel
  · decide +kernel

/-- A stored record whose `rp` is spelt with the Kelvin sign is selected for the relying party
`K.com`, and its key signs data that do not begin with the hash of its own `rp`. -/
theorem not_rp_binding_kelvin :
    let kelvin := { Sample.credential 1 2 with rp := "\u212a.com" }
    let store := Sample.store [kelvin]
    let message := 0x02 :: Sample.getAssertionFor "K.com" []
    store.GeneratesFor ∧ (utf8 kelvin.rp).length ≤ 253 ∧
      requested message = some ("K.com", List.replicate 32 7) ∧
      ∃ o s', (⟨(), none, []⟩ : FIDO2Authenticator Unit).Step Sample.platform store
        (.process message "0000000a" Sample.transaction 0) o s' ∧
      o.response.bind List.head? = some 0 ∧
      ∃ call ∈ o.calls, call.credential = kelvin ∧ call.credential.rp ≠ "K.com" ∧
        ¬ Sample.platform.sha256 (utf8 call.credential.rp) <+: call.data := by
  intro kelvin store message
  refine ⟨Sample.store_generatesFor _, by decide +kernel, by decide +kernel, _, _, .of_run rfl _,
    by decide +kernel, ?_⟩
  have hcall : ((Event.process message "0000000a" Sample.transaction 0).run Sample.platform store
      ⟨(), none, []⟩).2.calls.any (fun call => decide (call.credential = kelvin ∧
        call.credential.rp ≠ "K.com" ∧
        ¬ Sample.platform.sha256 (utf8 call.credential.rp) <+: call.data)) = true := by
    decide +kernel
  obtain ⟨call, hmem, hcall⟩ := List.any_eq_true.mp hcall
  exact ⟨call, hmem, of_decide_eq_true hcall⟩

end Ashacky.Fido
