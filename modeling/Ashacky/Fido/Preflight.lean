import Ashacky.Fido.Signing

/-!
# Fido — what pre-flight discloses

A GetAssertion request with `up` false and `uv` not true is a silent probe.  It uses no protected
key, and what it returns does not depend on the credentials of protection 3: on a store with and
without them, the whole call is the same.

* `options_lookup`: `options` returns the flags of its dictionary, in whatever order it visits it.
* `assertion_eq_preflightOutcome`: on a probe, `assertion` is a pure function of the credentials.
* `preflight_discloses_nothing`: it is the same function of those of protection other than 3.
-/

namespace Ashacky.Fido
open Ashacky.Support

variable {ω : Type}

/-! ### The parsed options -/

theorem optionEntry_eq_ok {make : Bool} {result out : List (String × Bool)} {e : CBORKey × CBOR}
    (h : optionEntry make result e = .ok out) :
    ∃ name flag, e = (.text name, .bool flag) ∧ out = (name, flag) :: result := by
  match e with
  | (.text name, .bool flag) =>
      simp only [optionEntry] at h
      split at h
      · cases h
      split at h
      · cases h
      split at h
      · cases h
      cases h
      exact ⟨name, flag, rfl, rfl⟩
  | (.int _, _) | (.text _, .int _) | (.text _, .bytes _) | (.text _, .text _)
  | (.text _, .array _) | (.text _, .map _) => simp [optionEntry] at h

/-- The loop of `options`: the entries visited override the flags before them. -/
theorem optionEntry_foldlM {make : Bool} {l : List (CBORKey × CBOR)}
    {result out : List (String × Bool)} (hl : DistinctKeys l)
    (h : l.foldlM (optionEntry make) result = .ok out) (name : String) :
    out.lookup name = match l.lookup (.text name) with
      | some v => v.boolean
      | none => result.lookup name := by
  induction l generalizing result with
  | nil =>
      cases h
      rfl
  | cons e l ih =>
      rw [List.foldlM_cons] at h
      obtain ⟨result', he, h⟩ := except_bind_eq_ok.mp h
      obtain ⟨name', flag, rfl, rfl⟩ := optionEntry_eq_ok he
      simp only [DistinctKeys, List.map_cons, List.nodup_cons] at hl
      rw [ih hl.2 h]
      by_cases hname : name = name'
      · subst hname
        have hnone : l.lookup (.text name) = none := by
          rw [List.lookup_eq_none_iff]
          intro p hp
          have hne : CBORKey.text name ≠ p.1 := fun hk => hl.1 (hk ▸ List.mem_map_of_mem hp)
          simpa using hne
        rw [hnone, List.lookup_cons_self, List.lookup_cons_self]
        rfl
      · have hk : (CBORKey.text name == CBORKey.text name') = false := by simpa using hname
        have hn : (name == name') = false := by simpa using hname
        rw [List.lookup_cons, List.lookup_cons, hk, hn]

/-- **`options`** returns the flags of its dictionary. -/
theorem options_lookup {P : Platform} {make : Bool} {v : CBOR} {opts : List (String × Bool)}
    (hv : v.Distinct) (h : options P (some v) make = .ok opts) (name : String) :
    opts.lookup name = (v.get name).bind CBOR.boolean := by
  cases v with
  | map m =>
      have hm : DistinctKeys m := hv.1
      have hfold := optionEntry_foldlM (hm.perm (P.order_perm m)) h name
      rw [hfold, Perm.lookup_eq (P.order_perm m) hm]
      change _ = (m.lookup (.text name)).bind CBOR.boolean
      cases m.lookup (.text name) <;> rfl
  | int n | bytes d | text s | bool b | array a => cases h

/-! ### Probes -/

/-- The request has the option `up` false, and `uv` not true. -/
def Probe (request : CBOR) : Prop :=
  ((request.index 5).bind (·.get "up")).bind CBOR.boolean = some false ∧
    ((request.index 5).bind (·.get "uv")).bind CBOR.boolean ≠ some true

instance (request : CBOR) : Decidable (Probe request) := inferInstanceAs (Decidable (_ ∧ _))

theorem distinct_index {request v : CBOR} {key : Int64} (hd : request.Distinct)
    (h : request.index key = some v) : v.Distinct := by
  cases request with
  | map m => exact hd.2.mem (mem_of_lookup h)
  | int n | bytes d | text s | bool b | array a => cases h

theorem Probe.preflight {P : Platform} {request : CBOR} {p : AssertionParameters}
    (hr : Probe request) (hd : request.Distinct) (hp : assertionParameters P request = .ok p) :
    p.preflight = true := by
  simp only [assertionParameters] at hp
  obtain ⟨relyingParty, -, hp⟩ := except_bind_eq_ok.mp hp
  obtain ⟨clientHash, -, hp⟩ := except_bind_eq_ok.mp hp
  obtain ⟨allowed, -, hp⟩ := except_bind_eq_ok.mp hp
  obtain ⟨_, -, hp⟩ := except_bind_eq_ok.mp hp
  obtain ⟨opts, ho, hp⟩ := except_bind_eq_ok.mp hp
  split at hp
  · cases hp
  · cases hp
    obtain ⟨hup, huv⟩ := hr
    cases hv : request.index 5 with
    | none =>
        rw [hv] at hup
        cases hup
    | some v =>
        rw [hv] at hup huv ho
        have hlook := options_lookup (distinct_index hd hv) ho
        simp only [AssertionParameters.preflight, decide_eq_true_eq]
        exact ⟨(hlook "up").trans hup, fun h => huv ((hlook "uv").symm.trans h)⟩

/-- What a probe returns, as a function of the credentials. -/
def preflightOutcome (P : Platform) (request : CBOR) (S : List FIDOCredential) :
    Except Thrown CBOR := do
  let p ← assertionParameters P request
  match p.allowed, (S.filter (p.selects P)).find? (·.protection < 3) with
  | some _, some c => .ok (preflightReply P p.relyingParty c)
  | _, _ => .error (.status 0x2e)

theorem preflightOutcome_filter (P : Platform) (request : CBOR) (S : List FIDOCredential) :
    preflightOutcome P request (S.filter (·.protection ≠ 3)) = preflightOutcome P request S := by
  have hfind : ∀ p : AssertionParameters,
      ((S.filter (·.protection ≠ 3)).filter (p.selects P)).find? (·.protection < 3) =
        (S.filter (p.selects P)).find? (·.protection < 3) := by
    intro p
    rw [List.find?_filter, List.find?_filter, List.find?_filter]
    congr 1
    funext c
    by_cases hc : c.protection < 3
    · have : c.protection ≠ 3 := by omega
      simp [this]
    · simp [hc]
  simp only [preflightOutcome, hfind]

/-! ### The call -/

section

variable {P : Platform} {store store' : FIDOKeyStore ω} {S : List FIDOCredential} {request : CBOR}
  {body : Data} (channel : String) (tx : FIDOTransaction ω) (now : Nat)

open FIDO2Authenticator

/-- **On a probe, `assertion` is a pure function of the credentials.** -/
theorem assertion_eq_preflightOutcome (hS : ∀ w, store.credentials.run w = .ok S w)
    (hr : Probe request) (hd : request.Distinct) :
    assertion P store request channel tx now = fromExcept (preflightOutcome P request S) := by
  funext s
  change (assertion P store request channel tx now).run s = (fromExcept _ : Act _ CBOR).run s
  rw [assertion, preflightOutcome]
  cases hp : assertionParameters P request with
  | error e => rfl
  | ok p =>
      have hread : (onWorld store.credentials).run s = .ok S s :=
        run_onWorld_eq_ok.mpr ⟨s.world, hS _, rfl⟩
      have hflight := hr.preflight hd hp
      change EStateM.run (onWorld store.credentials >>= _) s = _
      rw [EStateM.run_bind, hread]
      change EStateM.run (if (S.filter (p.selects P)).isEmpty then _ else _) s =
        (fromExcept (match p.allowed, (S.filter (p.selects P)).find? (·.protection < 3) with
          | some _, some c => .ok (preflightReply P p.relyingParty c)
          | _, _ => .error (.status 0x2e)) : Act _ CBOR).run s
      by_cases hempty : (S.filter (p.selects P)).isEmpty
      · -- without a match there is no reply in either form
        have hnone : (S.filter (p.selects P)).find? (·.protection < 3) = none := by
          rw [List.isEmpty_iff.mp hempty]
          rfl
        rw [if_pos hempty, hnone]
        cases p.allowed <;> rfl
      · rw [if_neg hempty, if_pos hflight]
        cases p.allowed with
        | none => rfl
        | some ids => cases (S.filter (p.selects P)).find? (·.protection < 3) <;> rfl

theorem perform_eq_preflightOutcome (hS : ∀ w, store.credentials.run w = .ok S w)
    (hd : CBOR.decode body = .ok request) (hr : Probe request) :
    perform P store 0x02 body channel tx now = fromExcept (preflightOutcome P request S) := by
  have hfields : request.fields.isNone = false := by
    cases hf : request.fields with
    | some m => rfl
    | none =>
        have hup := hr.1
        simp [CBOR.index, CBOR.field, hf] at hup
  rw [← assertion_eq_preflightOutcome channel tx now hS hr (decode_distinct hd), perform,
    if_neg (by decide), if_pos (by decide), hd]
  change (if request.fields.isNone = true then _ else _) = _
  rw [hfields]
  rfl

/-- A probe signs nothing, and a successful one returns `preflightOutcome`. -/
theorem respond_preflight (hS : ∀ w, store.credentials.run w = .ok S w)
    (hd : CBOR.decode body = .ok request) (hr : Probe request) (s : FIDO2Authenticator ω) :
    wp (respond P store (0x02 :: body) channel tx now)
      (fun r s' => s'.calls = s.calls ∧ ∃ v, preflightOutcome P request S = .ok v ∧
        r = 0 :: v.encoded)
      (fun _ s' => s'.calls = s.calls) s := by
  simp only [respond, wp_bind, wp_onWorld, perform_eq_preflightOutcome channel tx now hS hd hr]
  refine wp_intro (fun _ w _ => wp_ite (fun _ => ?_) fun _ => rfl) fun _ _ _ => trivial
  simp only [wp_bind, wp_modify, wp_onWorld]
  refine wp_fromExcept (fun v hv => ?_) fun _ _ => rfl
  refine wp_intro (fun _ w' _ => wp_ite (fun _ => ?_) fun _ => rfl) fun _ _ _ => rfl
  exact ⟨rfl, v, hv, rfl⟩

/-- The values a probe returns: no user entity, and UP and UV clear. -/
theorem preflightOutcome_reply {v : CBOR} (h : preflightOutcome P request S = .ok v) :
    v.index 4 = none ∧ ∃ data, authDataOf v = some data ∧ flagsOf data &&& 5 = 0 := by
  obtain ⟨p, -, h⟩ := except_bind_eq_ok.mp h
  split at h
  · cases h
    exact ⟨rfl, _, rfl, by rw [flagsOf_authData]; rfl⟩
  · cases h

end

/-- **Pre-flight discloses nothing** about credentials of protection 3.  The call of `process` on a
readable store with the credentials `S` is that on a store with those of protection 3 removed, bytes
and state; it makes no call of `store.sign`, and a response of more than a status byte has no user
entity and has UP and UV clear. -/
theorem preflight_discloses_nothing (P : Platform) (store store' : FIDOKeyStore ω)
    {S : List FIDOCredential} (hS : ∀ w, store.credentials.run w = .ok S w)
    (hS' : ∀ w, store'.credentials.run w = .ok (S.filter (·.protection ≠ 3)) w)
    {body : Data} {request : CBOR} (hd : CBOR.decode body = .ok request) (hr : Probe request)
    (channel : String) (tx : FIDOTransaction ω) (now : Nat) (s : FIDO2Authenticator ω) :
    s.process P store (0x02 :: body) channel tx now =
        s.process P store' (0x02 :: body) channel tx now ∧
      (s.process P store (0x02 :: body) channel tx now).2.calls = s.calls ∧
      ∀ d, (s.process P store (0x02 :: body) channel tx now).1 = 0 :: d → d ≠ [] →
        ∃ v, d = v.encoded ∧ v.index 4 = none ∧
          ∃ data, authDataOf v = some data ∧ flagsOf data &&& 5 = 0 := by
  have hperform := perform_eq_preflightOutcome (P := P) channel tx now hS hd hr
  have hperform' := perform_eq_preflightOutcome (P := P) channel tx now hS' hd hr
  rw [preflightOutcome_filter] at hperform'
  have hw := respond_preflight (P := P) channel tx now hS hd hr s
  refine ⟨?_, ?_⟩
  · simp only [FIDO2Authenticator.process, FIDO2Authenticator.respond, hperform, hperform']
  · rcases hprocess : s.process P store (0x02 :: body) channel tx now with ⟨r, s'⟩
    rcases FIDO2Authenticator.process_cases hprocess with hok | ⟨e, s₁, herr, rfl, rfl⟩
    · obtain ⟨hc, v, hv, rfl⟩ := hw.ok hok
      refine ⟨hc, ?_⟩
      rintro d ⟨⟩ -
      exact ⟨v, rfl, preflightOutcome_reply hv⟩
    · have hc : s₁.calls = s.calls := hw.error herr
      refine ⟨hc, ?_⟩
      rintro d hd' hne
      exact absurd (List.cons.inj hd').2.symm hne

/-- A probe for a listed credential of protection 3, on the store that holds it and on an empty
one. -/
theorem preflight_discloses_nothing_protected :
    let c := Sample.credential 1 3
    let allow := CBOR.array [.map [(.text "type", .text "public-key"), (.text "id", .bytes c.id)]]
    let body := Sample.getAssertion [(.int 3, allow), (.int 5, .map [(.text "up", .bool false)])]
    let s : FIDO2Authenticator Unit := ⟨(), none, []⟩
    let run := fun S =>
      s.process Sample.platform (Sample.store S) (0x02 :: body) "0000000a" Sample.transaction 0
    run [c] = run [] ∧ (run [c]).1 = [0x2e] := by
  intro c allow body s run
  have hbody : (CBOR.decode body).toOption.any (fun request => decide (Probe request)) = true := by
    decide +kernel
  cases hd : CBOR.decode body with
  | error e =>
      rw [hd] at hbody
      cases hbody
  | ok request =>
      rw [hd] at hbody
      have hr : Probe request := of_decide_eq_true hbody
      have h := preflight_discloses_nothing Sample.platform (Sample.store [c]) (Sample.store [])
        (fun _ => rfl) (fun _ => rfl) hd hr "0000000a" Sample.transaction 0 s
      exact ⟨h.1, by decide +kernel⟩

end Ashacky.Fido
