import Ashacky.Support.Machine
import Ashacky.Fido.Store

/-!
# Fido — the records of the store

`make` over `SecureEnclaveFIDOStore`, and what the credential file holds after any sequence of
MakeCredential transactions from an absent file.

* `make_eq_ok`: the conditions under which `make` succeeds, and what it then leaves.
* `make_error`: a failed `make` leaves the file as it was.
* `records_savedFile`: a saved list is read back.
* `records_invariant`: after every run the file is readable, within its bounds, and holds at most
  one discoverable record for each RP/user pair; `save` keeps the order and never runs out of room.
-/

namespace Ashacky.Fido
open Ashacky.Support

/-! ### `make` over the Secure Enclave store -/

/-- The request `request`, made at the moment `t` with `entry` on disk, succeeds: the field checks
pass, no listed credential excludes it, there is room, every check of the transaction passes, and
the platform makes a key, signs, encodes and renames. -/
structure Creates (P : Platform) (J : Coder) (env : Environment) (request : CBOR) (entry : Entry)
    (t : Nat) (p : MakeParameters) (l : List FIDOCredential) (c : FIDOCredential) (key : CBOR)
    (signature data : Data) : Prop where
  parameters : makeParameters P request = .ok p
  existing : records J entry = .ok l
  admitted : l.find? (p.excludes P) = none
  capacity : p.replacing P l = true ∨ l.length < maximumCredentials
  generated : env.passes t = true ∧ env.available = true ∧
    label P ((request.index 3).bind (·.get "name")) = .ok c.name ∧
    label P ((request.index 3).bind (·.get "displayName")) = .ok c.displayName ∧
    env.key = some (c.publicKey, c.wrappedKey) ∧ env.identifier = some c.id
  rp : c.rp = p.relyingParty
  user : c.user = p.user
  discoverable : c.discoverable = (p.opts.lookup "rk").getD false
  protection : c.protection = max 2 (p.cp.getD 2)
  cose : publicCOSE c = .ok key
  signed : env.passes (t + 2) = true ∧ env.restored (t + 4) c.wrappedKey = some c.publicKey ∧
    env.signature (t + 4) c.wrappedKey (p.data P c key ++ p.clientHash) = some signature ∧
    env.passes (t + 4) = true
  checked : env.passes (t + 6) = true
  room : (kept P c l).length < maximumCredentials
  saved : J.encode (kept P c l ++ [c]) = some data ∧ env.renamed = true

section Make

variable {P : Platform} {J : Coder} {env : Environment} {request : CBOR}
  {s s' : FIDO2Authenticator World} {v : CBOR}

open SecureEnclaveFIDOStore

theorem makeNew_eq_ok {p : MakeParameters} :
    (makeNew P (secureEnclaveFIDOStore P J env) request p env.transaction).run s = .ok v s' ↔
      ∃ name displayName c w₁ key signature w₂ w₃ w₄,
        label P ((request.index 3).bind (·.get "name")) = .ok name ∧
        label P ((request.index 3).bind (·.get "displayName")) = .ok displayName ∧
        (generate env p.relyingParty p.user name displayName ((p.opts.lookup "rk").getD false)
          (max 2 (p.cp.getD 2)) env.transaction).run s.world = .ok c w₁ ∧
        publicCOSE c = .ok key ∧
        (sign env c (p.data P c key ++ p.clientHash) env.transaction).run w₁ = .ok signature w₂ ∧
        env.transaction.check.run w₂ = .ok () w₃ ∧ (save P J env c).run w₃ = .ok () w₄ ∧
        v = attestation (p.data P c key) signature ∧
        s' = ⟨w₄, s.next, s.calls ++ [⟨c, p.data P c key ++ p.clientHash, .ok signature⟩]⟩ := by
  simp only [makeNew, run_bind_eq_ok, run_fromExcept_eq_ok, run_onWorld_eq_ok, run_signs_eq_ok]
  constructor
  · rintro ⟨name, _, ⟨hn, rfl⟩, displayName, _, ⟨hd, rfl⟩, c, _, ⟨w₁, hc, rfl⟩, key, _, ⟨hk, rfl⟩,
      signature, _, ⟨w₂, hs, rfl⟩, ⟨⟩, _, ⟨w₃, h₃, rfl⟩, ⟨⟩, _, ⟨w₄, h₄, rfl⟩, ⟨⟩⟩
    exact ⟨name, displayName, c, w₁, key, signature, w₂, w₃, w₄, hn, hd, hc, hk, hs, h₃, h₄, rfl,
      rfl⟩
  · rintro ⟨name, displayName, c, w₁, key, signature, w₂, w₃, w₄, hn, hd, hc, hk, hs, h₃, h₄, rfl,
      rfl⟩
    exact ⟨name, s, ⟨hn, rfl⟩, displayName, s, ⟨hd, rfl⟩, c, _, ⟨w₁, hc, rfl⟩, key, _, ⟨hk, rfl⟩,
      signature, _, ⟨w₂, hs, rfl⟩, (), _, ⟨w₃, h₃, rfl⟩, (), _, ⟨w₄, h₄, rfl⟩, rfl⟩

/-- **When `make` succeeds**, and what it leaves: four checks take eight moments, and the file
holds the new list. -/
theorem make_eq_ok :
    (make P (secureEnclaveFIDOStore P J env) request env.transaction).run s = .ok v s' ↔
      ∃ p l c key signature data,
        Creates P J env request s.world.entry s.world.clock p l c key signature data ∧
        v = attestation (p.data P c key) signature ∧
        s' = ⟨⟨.file (savedFile data), s.world.clock + 8⟩, s.next,
          s.calls ++ [⟨c, p.data P c key ++ p.clientHash, .ok signature⟩]⟩ := by
  rw [make, run_bind_eq_ok]
  constructor
  · rintro ⟨p, s₁, hp₁, h₁⟩
    obtain ⟨hp, hs₁⟩ := run_fromExcept_eq_ok.mp hp₁
    subst s₁
    obtain ⟨l, s₂, hl₁, h⟩ := run_bind_eq_ok.mp h₁
    obtain ⟨w, hl₂, rfl⟩ := run_onWorld_eq_ok.mp hl₁
    obtain ⟨hl, rfl⟩ := (credentials_eq_ok (J := J)).mp hl₂
    split at h
    · obtain ⟨_, _, -, hthrow⟩ := run_bind_eq_ok.mp h
      cases hthrow
    · rename_i hnone
      split at h
      · rename_i hcap
        obtain ⟨name, displayName, c, w₁, key, signature, w₂, w₃, w₄, hn, hd, hc, hk, hs, h₃, h₄,
          rfl, rfl⟩ := makeNew_eq_ok.mp h
        obtain ⟨⟨hpass, hav, publicKey, wrappedKey, id, hkey, hid, rfl⟩, rfl⟩ := generate_eq_ok.mp hc
        obtain ⟨hs₁, hs₂, hs₃, hs₄, rfl⟩ := sign_eq_ok.mp hs
        obtain ⟨hcheck, rfl⟩ := check_eq_ok.mp h₃
        obtain ⟨l', data, hl', hroom, henc, hren, rfl⟩ := save_eq_ok.mp h₄
        obtain rfl : l = l' := Except.ok.inj (hl.symm.trans hl')
        exact ⟨p, l, _, key, signature, data, ⟨hp, hl, hnone, hcap, ⟨hpass, hav, hn, hd, hkey, hid⟩,
          rfl, rfl, rfl, rfl, hk, ⟨hs₁, hs₂, hs₃, hs₄⟩, hcheck, hroom, henc, hren⟩, rfl, rfl⟩
      · cases h
  · rintro ⟨p, l, c, key, signature, data, h, rfl, rfl⟩
    refine ⟨p, s, run_fromExcept_eq_ok.mpr ⟨h.parameters, rfl⟩, run_bind_eq_ok.mpr ⟨l, s,
      run_onWorld_eq_ok.mpr ⟨s.world, credentials_eq_ok.mpr ⟨h.existing, rfl⟩, rfl⟩, ?_⟩⟩
    simp only [h.admitted]
    rw [if_pos h.capacity]
    obtain ⟨hpass, hav, hn, hd, hkey, hid⟩ := h.generated
    obtain ⟨hs₁, hs₂, hs₃, hs₄⟩ := h.signed
    refine makeNew_eq_ok.mpr ⟨c.name, c.displayName, c, { s.world with clock := s.world.clock + 2 },
      key, signature, { s.world with clock := s.world.clock + 6 },
      { s.world with clock := s.world.clock + 8 }, _, hn, hd, ?_, h.cose, ?_, ?_, ?_, rfl, rfl⟩
    · refine generate_eq_ok.mpr ⟨⟨hpass, hav, _, _, _, hkey, hid, ?_⟩, rfl⟩
      rw [← h.rp, ← h.user, ← h.discoverable, ← h.protection]
    · exact sign_eq_ok.mpr ⟨hs₁, hs₂, hs₃, hs₄, rfl⟩
    · exact check_eq_ok.mpr ⟨h.checked, rfl⟩
    · exact save_eq_ok.mpr ⟨l, data, h.existing, h.room, h.saved.1, h.saved.2, rfl⟩

/-- **A failed `make` leaves the file as it was**: `save` is its last step, and the only one that
writes. -/
theorem make_error : wp (make P (secureEnclaveFIDOStore P J env) request env.transaction)
    (fun _ _ => True) (fun _ s' => s'.world.entry = s.world.entry) s := by
  simp only [make, wp_bind, wp_onWorld]
  refine wp_fromExcept (fun p _ => ?_) fun _ _ => rfl
  refine wp_mono credentials_wp ?_ ?_
  · rintro l _ ⟨-, rfl⟩
    split
    · simp only [wp_bind, wp_signs, wp_throw]
      refine wp_mono sign_wp ?_ fun _ _ h => h
      rintro _ _ ⟨-, -, -, -, rfl⟩
      rfl
    · refine wp_ite (fun _ => ?_) fun _ => rfl
      simp only [makeNew, wp_bind, wp_onWorld, wp_signs]
      refine wp_fromExcept (fun name _ => wp_fromExcept (fun displayName _ => ?_) fun _ _ => rfl)
        fun _ _ => rfl
      refine wp_mono generate_wp ?_ fun _ _ h => h
      rintro c _ ⟨-, rfl⟩
      refine wp_fromExcept (fun key _ => ?_) fun _ _ => rfl
      refine wp_mono sign_wp ?_ fun _ _ h => h
      rintro signature _ ⟨-, -, -, -, rfl⟩
      refine wp_mono check_wp ?_ fun _ _ h => h.2.1
      rintro _ _ ⟨-, rfl⟩
      refine wp_mono save_wp (fun _ _ _ => trivial) ?_
      rintro _ _ rfl
      rfl
  · rintro _ _ rfl
    rfl

end Make

/-! ### Saved lists -/

/-- At most one discoverable record for each RP/user pair. -/
def OneResident (P : Platform) (l : List FIDOCredential) : Prop :=
  l.Pairwise fun a b => ¬ (a.discoverable ∧ b.discoverable ∧ P.same a.rp b.rp ∧ a.user = b.user)

/-- The encoded form of an acceptable list fits the limit of 2 MiB, and is not empty. -/
def Coder.Fits (J : Coder) : Prop :=
  ∀ l d, Acceptable l → J.encode l = some d → 1 ≤ d.length ∧ d.length ≤ 2097152

section Saved

variable {P : Platform} {J : Coder} {c : FIDOCredential} {l : List FIDOCredential}

theorem kept_sublist (P : Platform) (c : FIDOCredential) (l : List FIDOCredential) : (kept P c l).Sublist l := by
  rw [kept]
  split
  · exact List.filter_sublist
  · exact .refl l

/-- A saved list is read back. -/
theorem records_savedFile (hfit : J.Fits) {d : Data} (hl : Acceptable l)
    (he : J.encode l = some d) : records J (.file (savedFile d)) = .ok l := by
  obtain ⟨h1, h2⟩ := hfit l d hl he
  have hprivate : (savedFile d).Private := 
    ⟨rfl, (by decide : (0o600 : Nat) &&& 0o077 = 0), rfl, rfl, h1, h2⟩
  have hdecode : J.decode (savedFile d).bytes = some l := J.decode_encode he
  rw [records, if_pos hprivate, hdecode]
  exact if_pos hl

theorem acceptable_saved (hl : Acceptable l) (hc : c.InBounds) (hid : ∀ r ∈ l, r.id ≠ c.id)
    (hroom : (kept P c l).length < maximumCredentials) : Acceptable (kept P c l ++ [c]) := by
  obtain ⟨-, hnodup, hbounds⟩ := hl
  have hsub := kept_sublist P c l
  refine ⟨by rw [List.length_append]; exact hroom, ?_, ?_⟩
  · rw [List.map_append, List.nodup_append]
    refine ⟨(hsub.map _).nodup hnodup, List.nodup_singleton _, ?_⟩
    intro a ha b hb
    obtain ⟨r, hr, rfl⟩ := List.mem_map.mp ha
    rw [List.mem_singleton.mp hb]
    exact hid r (hsub.subset hr)
  · intro r hr
    rcases List.mem_append.mp hr with hr | hr
    · exact hbounds r (hsub.subset hr)
    · rwa [List.mem_singleton.mp hr]

theorem oneResident_saved (hl : OneResident P l) : OneResident P (kept P c l ++ [c]) := by
  refine List.pairwise_append.mpr ⟨hl.sublist (kept_sublist P c l), List.pairwise_singleton _ _, ?_⟩
  rintro r hr b hb ⟨hrd, hbd, hrp, huser⟩
  obtain rfl := List.mem_singleton.mp hb
  -- a resident record of the pair was removed
  simp only [kept, hbd, if_true, List.mem_filter] at hr
  simp [hrd, hrp, huser] at hr

/-- The capacity rule of `make` leaves room in `save`. -/
theorem room_of_capacity {p : MakeParameters} (hl : l.length ≤ maximumCredentials)
    (hcap : p.replacing P l = true ∨ l.length < maximumCredentials) (hrp : c.rp = p.relyingParty)
    (huser : c.user = p.user) (hdisc : c.discoverable = (p.opts.lookup "rk").getD false) :
    (kept P c l).length < maximumCredentials := by
  rcases hcap with hrep | hlt
  · simp only [MakeParameters.replacing, decide_eq_true_eq] at hrep
    obtain ⟨hrk, hany⟩ := hrep
    obtain ⟨r, hr, hrr⟩ := List.any_eq_true.mp hany
    simp only [MakeParameters.replaces, decide_eq_true_eq] at hrr
    have hd : c.discoverable = true := by rw [hdisc, hrk]; rfl
    -- the replaced record goes, so the rest is strictly shorter
    have hlt : (kept P c l).length < l.length := by
      rw [kept, if_pos hd]
      refine List.length_filter_lt_length_iff_exists.mpr ⟨r, hr, ?_⟩
      simp [hrr, hrp, huser]
    omega
  · exact lt_of_le_of_lt (kept_sublist P c l).length_le hlt

end Saved

/-! ### Sequences of transactions -/

/-- What is assumed of the platform in one transaction: identifiers are fresh values of 32 bytes,
public keys have 65 bytes, and wrapped keys between 1 and 4096. -/
structure Environment.Sound (J : Coder) (entry : Entry) (env : Environment) : Prop where
  identifier : ∀ id, env.identifier = some id →
    id.length = 32 ∧ ∀ l, records J entry = .ok l → ∀ r ∈ l, r.id ≠ id
  key : ∀ publicKey wrappedKey, env.key = some (publicKey, wrappedKey) →
    publicKey.length = 65 ∧ 1 ≤ wrappedKey.length ∧ wrappedKey.length ≤ 4096

/-- The authenticator at the start of a transaction. -/
def starting (entry : Entry) : FIDO2Authenticator World := ⟨⟨entry, 0⟩, none, []⟩

/-- One MakeCredential transaction: its result, and the file after it. -/
def transact (P : Platform) (J : Coder) (request : CBOR) (env : Environment) (entry : Entry) :
    Except Thrown CBOR × Entry :=
  match (make P (secureEnclaveFIDOStore P J env) request env.transaction).run (starting entry) with
  | .ok v s => (.ok v, s.world.entry)
  | .error e s => (.error e, s.world.entry)

/-- A MakeCredential transaction in a sound environment. -/
def Transacts (P : Platform) (J : Coder) (entry : Entry) (e : CBOR × Environment)
    (r : Except Thrown CBOR) (entry' : Entry) : Prop :=
  e.2.Sound J entry ∧ (r, entry') = transact P J e.1 e.2 entry

/-- The credential of a successful `make` is within the bounds and new. -/
theorem Creates.inBounds {P : Platform} {J : Coder} {env : Environment} {request : CBOR}
    {entry : Entry} {t : Nat} {p : MakeParameters} {l : List FIDOCredential} {c : FIDOCredential}
    {key : CBOR} {signature data : Data}
    (h : Creates P J env request entry t p l c key signature data) (henv : env.Sound J entry) :
    c.InBounds ∧ ∀ r ∈ l, r.id ≠ c.id := by
  obtain ⟨-, -, hn, hd, hkey, hid⟩ := h.generated
  obtain ⟨-, -, -, hrp, huser, hcp⟩ := makeParameters_eq_ok h.parameters
  obtain ⟨hlen, hfresh⟩ := henv.identifier _ hid
  obtain ⟨hpub, hwrapped⟩ := henv.key _ _ hkey
  have hprot : 2 ≤ c.protection ∧ c.protection ≤ 3 := by
    rw [h.protection]
    cases hlevel : p.cp with
    | none => decide
    | some level =>
        have := hcp level hlevel
        simp only [Option.getD_some]
        omega
  refine ⟨⟨hlen, hpub, h.user ▸ huser, h.rp ▸ hrp.2.1, hprot, label_eq_ok hn, label_eq_ok hd,
    hwrapped⟩, hfresh l h.existing⟩

/-- What holds of the file between transactions. -/
def Sane (P : Platform) (J : Coder) (entry : Entry) : Prop :=
  ∃ l, records J entry = .ok l ∧ Acceptable l ∧ OneResident P l

/-- One transaction keeps the file sane. -/
theorem Transacts.sane {P : Platform} {J : Coder} (hfit : J.Fits) {entry entry' : Entry}
    {e : CBOR × Environment} {r : Except Thrown CBOR} (hs : Sane P J entry)
    (h : Transacts P J entry e r entry') : Sane P J entry' := by
  obtain ⟨request, env⟩ := e
  obtain ⟨henv, hrun⟩ := h
  obtain ⟨l, hl, hacc, hres⟩ := hs
  rw [transact] at hrun
  split at hrun
  · rename_i v s' hok
    obtain ⟨-, rfl⟩ := Prod.mk.inj hrun
    obtain ⟨p, l', c, key, signature, data, hc, -, rfl⟩ := make_eq_ok.mp hok
    obtain rfl : l = l' := Except.ok.inj (hl.symm.trans hc.existing)
    obtain ⟨hbounds, hid⟩ := hc.inBounds henv
    have hsaved := acceptable_saved hacc hbounds hid hc.room
    exact ⟨_, records_savedFile hfit hsaved hc.saved.1, hsaved, oneResident_saved hres⟩
  · rename_i e s' herr
    obtain ⟨-, rfl⟩ := Prod.mk.inj hrun
    rw [make_error.error herr]
    exact ⟨l, hl, hacc, hres⟩

/-- **The store invariant.**  After every sequence of MakeCredential transactions from an absent
file, `credentials()` succeeds with a list within its bounds, with distinct identifiers and at most
one discoverable record for each RP/user pair; a successful `save` of a new record makes it return
the records that stay, in order, followed by the new one; and `save` never throws 0x28 after the
capacity check of `make`. -/
theorem records_invariant (P : Platform) (J : Coder) (hfit : J.Fits)
    {t : List ((CBOR × Environment) × Except Thrown CBOR)} {entry : Entry}
    (h : Steps (Transacts P J) .absent t entry) :
    ∃ l, records J entry = .ok l ∧
      (l.length ≤ 256 ∧ (l.map (·.id)).Nodup ∧ ∀ c ∈ l, c.InBounds) ∧ OneResident P l ∧
      (∀ env clock c w', c.InBounds → (∀ r ∈ l, r.id ≠ c.id) →
        (SecureEnclaveFIDOStore.save P J env c).run ⟨entry, clock⟩ = .ok () w' →
        records J w'.entry = .ok (kept P c l ++ [c])) ∧
      ∀ env clock (p : MakeParameters) c e w',
        p.replacing P l = true ∨ l.length < maximumCredentials → c.rp = p.relyingParty →
        c.user = p.user → c.discoverable = (p.opts.lookup "rk").getD false →
        (SecureEnclaveFIDOStore.save P J env c).run ⟨entry, clock⟩ = .error e w' →
        e ≠ .status 0x28 := by
  have hinit : Sane P J .absent := ⟨[], rfl, ⟨by decide, List.nodup_nil, by simp⟩, .nil⟩
  obtain ⟨l, hl, hacc, hres⟩ := h.invariant (fun hs hstep => hstep.sane hfit hs) hinit
  refine ⟨l, hl, hacc, hres, ?_, ?_⟩
  · intro env clock c w' hc hid hsave
    obtain ⟨l', data, hl', hroom, he, -, rfl⟩ := SecureEnclaveFIDOStore.save_eq_ok.mp hsave
    obtain rfl : l = l' := Except.ok.inj (hl.symm.trans hl')
    exact records_savedFile hfit (acceptable_saved hacc hc hid hroom) he
  · rintro env clock p c e w' hcap hrp huser hdisc hsave rfl
    have hroom := room_of_capacity hacc.1 hcap hrp huser hdisc
    have hw : wp (SecureEnclaveFIDOStore.save P J env c) (fun _ _ => True)
        (fun e _ => e ≠ .status 0x28) ⟨entry, clock⟩ := by
      simp only [SecureEnclaveFIDOStore.save, SecureEnclaveFIDOStore.credentials, wp_bind, wp_get,
        hl]
      change wp (if _ then _ else _) _ _ _
      rw [if_pos hroom]
      cases J.encode (kept P c l ++ [c]) with
      | none => exact Thrown.noConfusion
      | some data => exact wp_ite (fun _ => trivial) fun _ => by simp
    exact hw.error hsave rfl

namespace Sample

/-- The JSON text of a sample credential; `id` and `user` are the end of its identifier and its
user, in Base64. -/
def json (id user : String) : String :=
  "\x7b\"id\":\"AAAAAAAAAAAAAAAAAAAAAAAAAAAAAAAAAAAAAAAA" ++ id ++ "\",\"rp\":\"example.com\"," ++
    "\"user\":\"" ++ user ++ "\",\"name\":\"a\",\"displayName\":\"A\",\"discoverable\":true," ++
    "\"protection\":2," ++
    "\"publicKey\":\"BGsX0fLhLEJH+Lzm5WOkQPJ3A32BLeszoPShOUXYmMKWT+NC4v4af5uO5+tKfA+eFivOM1drMV7Oy7ZAaDe\\/UfU=\"," ++
    "\"wrappedKey\":\"AQ==\"\x7d"

/-- A newer credential for the user of the first. -/
def renewed : FIDOCredential := { credential 1 2 with id := (credential 3 2).id }

/-- Lists of credentials, with their JSON texts. -/
def lists : List (List FIDOCredential × Data) :=
  [([credential 1 2], utf8 ("[" ++ json "AAE=" "AQ==" ++ "]")),
    ([credential 1 2, credential 2 2],
      utf8 ("[" ++ json "AAE=" "AQ==" ++ "," ++ json "AAI=" "Ag==" ++ "]")),
    ([credential 2 2, renewed],
      utf8 ("[" ++ json "AAI=" "Ag==" ++ "," ++ json "AAM=" "AQ==" ++ "]"))]

/-- The JSON coders, at those lists. -/
def coder : Coder where
  encode := fun l => (lists.find? fun x => x.1 = l).map (·.2)
  decode := fun d => (lists.find? fun x => x.2 = d).map (·.1)
  decode_encode := by
    have htexts : ∀ x ∈ lists, (lists.find? fun y => y.2 = x.2).map (·.1) = some x.1 := by
      decide +kernel
    intro l d h
    obtain ⟨x, hx, rfl⟩ := Option.map_eq_some_iff.mp h
    obtain rfl : x.1 = l := by simpa using List.find?_some hx
    exact htexts x (List.mem_of_find?_eq_some hx)

theorem coder_fits : coder.Fits := by
  have hsizes : ∀ x ∈ lists, 1 ≤ x.2.length ∧ x.2.length ≤ 2097152 := by decide +kernel
  intro l d _ h
  obtain ⟨x, hx, rfl⟩ := Option.map_eq_some_iff.mp h
  exact hsizes x (List.mem_of_find?_eq_some hx)

/-- A transaction that is never stopped, on a platform that makes the key of the samples and the
`n`-th identifier. -/
def environment (n : Nat) : Environment where
  stopped := fun _ => false
  allowed := fun _ => true
  available := true
  key := some (publicKey, [1])
  identifier := some (credential n 2).id
  restored := fun _ wrappedKey => if wrappedKey = [1] then some publicKey else none
  signature := fun _ _ _ => some [0x30, 6, 2, 1, 7, 2, 1, 7]
  renamed := true

/-- A request for a discoverable credential of the user. -/
def makeCredential (user : UInt8) : CBOR :=
  .map [(.int 1, .bytes (List.replicate 32 7)),
    (.int 2, .map [(.text "id", .text "example.com")]),
    (.int 3, .map [(.text "id", .bytes [user]), (.text "name", .text "a"),
      (.text "displayName", .text "A")]),
    (.int 4, .array [.map [(.text "type", .text "public-key"), (.text "alg", .int (-7))]]),
    (.int 7, .map [(.text "rk", .bool true)])]

/-- The identifier is fresh in a file without it. -/
theorem environment_sound {n : Nat} {entry : Entry} {l : List FIDOCredential}
    (hl : records coder entry = .ok l) (hfresh : ∀ r ∈ l, r.id ≠ (credential n 2).id) :
    (environment n).Sound coder entry := by
  refine ⟨?_, ?_⟩
  · rintro _ ⟨⟩
    refine ⟨by simp [credential], ?_⟩
    intro l' hl'
    rwa [← Except.ok.inj (hl.symm.trans hl')]
  · rintro _ _ ⟨⟩
    decide

/-- The file after a transaction for the user, with the `n`-th identifier. -/
def made (user : UInt8) (n : Nat) (entry : Entry) : Entry :=
  (transact platform coder (makeCredential user) (environment n) entry).2

theorem transacts_made (user : UInt8) (n : Nat) {entry : Entry} {l : List FIDOCredential}
    (hl : records coder entry = .ok l) (hfresh : ∀ r ∈ l, r.id ≠ (credential n 2).id) :
    Transacts platform coder entry (makeCredential user, environment n)
      (transact platform coder (makeCredential user) (environment n) entry).1 (made user n entry) :=
  ⟨environment_sound hl hfresh, rfl⟩

theorem records_absent : records coder .absent = .ok [] := rfl

theorem records_first : records coder (made 1 1 .absent) = .ok [credential 1 2] := by
  decide +kernel

theorem records_second :
    records coder (made 2 2 (made 1 1 .absent)) = .ok [credential 1 2, credential 2 2] := by
  decide +kernel

theorem kept_renewed :
    kept platform renewed [credential 1 2, credential 2 2] ++ [renewed] = [credential 2 2, renewed] := by
  decide +kernel

/-- The newer credential can be saved over the first two. -/
theorem save_renewed {entry : Entry}
    (hl : records coder entry = .ok [credential 1 2, credential 2 2]) :
    ∃ w', (SecureEnclaveFIDOStore.save platform coder (environment 3) renewed).run ⟨entry, 0⟩ =
      .ok () w' := by
  have hencode : (coder.encode [credential 2 2, renewed]).isSome := by decide +kernel
  have hroom : (kept platform renewed [credential 1 2, credential 2 2]).length <
      maximumCredentials := by decide +kernel
  obtain ⟨d, hd⟩ := Option.isSome_iff_exists.mp hencode
  rw [← kept_renewed] at hd
  exact ⟨_, SecureEnclaveFIDOStore.save_eq_ok.mpr ⟨_, d, hl, hroom, hd, rfl, rfl⟩⟩

end Sample

/-- Three transactions from an absent file, the last for the user of the first: its record, saved
over the file of the first two, leaves the second one before it. -/
theorem records_invariant_replacing :
    let two := Sample.made 2 2 (Sample.made 1 1 .absent)
    (∃ w', (SecureEnclaveFIDOStore.save Sample.platform Sample.coder (Sample.environment 3)
        Sample.renewed).run ⟨two, 0⟩ = .ok () w' ∧
      records Sample.coder w'.entry = .ok [Sample.credential 2 2, Sample.renewed]) ∧
    records Sample.coder (Sample.made 1 3 two) = .ok [Sample.credential 2 2, Sample.renewed] ∧
    OneResident Sample.platform [Sample.credential 2 2, Sample.renewed] := by
  intro two
  have hthree : records Sample.coder (Sample.made 1 3 two) =
      .ok [Sample.credential 2 2, Sample.renewed] := by decide +kernel
  have h₁ := Sample.transacts_made 1 1 Sample.records_absent (by simp)
  have h₂ := Sample.transacts_made 2 2 Sample.records_first (by decide)
  have h₃ := Sample.transacts_made 1 3 Sample.records_second (by decide)
  constructor
  · obtain ⟨l, hl, -, -, hsave, -⟩ := records_invariant Sample.platform Sample.coder
      Sample.coder_fits (.more h₁ (.one h₂))
    obtain rfl : l = _ := Except.ok.inj (hl.symm.trans Sample.records_second)
    obtain ⟨w', hrun⟩ := Sample.save_renewed hl
    have hsaved := hsave _ _ _ _ (by decide +kernel) (by decide +kernel) hrun
    rw [Sample.kept_renewed] at hsaved
    exact ⟨w', hrun, hsaved⟩
  · obtain ⟨l, hl, -, hres, -⟩ := records_invariant Sample.platform Sample.coder
      Sample.coder_fits (.more h₁ (.more h₂ (.one h₃)))
    obtain rfl : l = _ := Except.ok.inj (hl.symm.trans hthree)
    exact ⟨hthree, hres⟩

end Ashacky.Fido
