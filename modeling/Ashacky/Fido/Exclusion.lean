import Ashacky.Fido.Runs

/-!
# Fido — what an exclude list discloses

MakeCredential with an exclude list tells whether the store holds one of the listed credentials, but
only after the user has authorized the use of its key.  Here the user denies every authorization, and
the call on a store is compared with the call on the store without the listed credentials.

The first goes to `sign` at once, and is denied.  The second goes through the capacity check, the
checks of the two labels and the generation of a key before it comes to `sign`: a request whose labels
are refused is answered with another status, and the two can be told apart.

* `make_denied`: what `make` throws, as a function of the request and the credentials.
* `excluded_hidden_iff`: the two answers are the same exactly when those checks pass.
* `excluded_disclosed`: a label with a control character discloses the credential.
-/

namespace Ashacky.Fido
open Ashacky.Support

variable {ω : Type}

/-- The store holds `S` and makes keys; the user denies every use of one. -/
structure FIDOKeyStore.Denies (store : FIDOKeyStore ω) (S : List FIDOCredential) : Prop where
  credentials : ∀ w, store.credentials.run w = .ok S w
  generates : ∀ rp user name displayName discoverable protection tx w, ∃ c w' key,
    (store.generate rp user name displayName discoverable protection tx).run w = .ok c w' ∧
      publicCOSE c = .ok key
  denied : ∀ c d tx w, ∃ w', (store.sign c d tx).run w = .error (.status 0x27) w'

/-- The names of the user pass `label`. -/
def Labelled (P : Platform) (request : CBOR) : Prop :=
  (label P ((request.index 3).bind (·.get "name"))).isOk ∧
    (label P ((request.index 3).bind (·.get "displayName"))).isOk

instance (P : Platform) (request : CBOR) : Decidable (Labelled P request) :=
  inferInstanceAs (Decidable (_ ∧ _))

/-- The capacity check. -/
def MakeParameters.Room (p : MakeParameters) (P : Platform) (S : List FIDOCredential) : Prop :=
  p.replacing P S ∨ S.length < maximumCredentials

instance (p : MakeParameters) (P : Platform) (S : List FIDOCredential) : Decidable (p.Room P S) :=
  inferInstanceAs (Decidable (_ ∨ _))

/-- What `make` throws when the user denies every use of a key. -/
def told (P : Platform) (request : CBOR) (S : List FIDOCredential) : Thrown :=
  match makeParameters P request with
  | .error e => e
  | .ok p =>
      if S.any (p.excludes P) ∨ p.Room P S ∧ Labelled P request then .status 0x27
      else if p.Room P S then .status 0x02
      else .status 0x28

section

variable {P : Platform} {store : FIDOKeyStore ω} {S : List FIDOCredential} {request : CBOR}
  {tx : FIDOTransaction ω} {s : FIDO2Authenticator ω}

theorem label_error {value : Option CBOR} {e : Thrown} (h : label P value = .error e) :
    e = .status 0x02 := by
  match value with
  | none => cases h
  | some (.text text) =>
      simp only [label] at h
      split at h
      · cases h
      · cases h
        rfl
  | some (.int _) | some (.bytes _) | some (.bool _) | some (.array _) | some (.map _) =>
      cases h
      rfl

theorem signs_denied (h : store.Denies S) (c : FIDOCredential) (d : Data) :
    wp (store.signs c d tx) (fun _ _ => False) (fun e _ => e = .status 0x27) s := by
  obtain ⟨w', hw'⟩ := h.denied c d tx s.world
  rw [wp_signs, wp, hw']

theorem makeNew_denied (h : store.Denies S) (p : MakeParameters) :
    wp (makeNew P store request p tx) (fun _ _ => False)
      (fun e _ => e = if Labelled P request then .status 0x27 else .status 0x02) s := by
  simp only [makeNew, wp_bind, wp_onWorld]
  refine wp_fromExcept (fun name hname => wp_fromExcept (fun displayName hdisplay => ?_) ?_) ?_
  · have hlabel : Labelled P request := ⟨by rw [hname]; rfl, by rw [hdisplay]; rfl⟩
    obtain ⟨c, w', key, hc, hkey⟩ := h.generates p.relyingParty p.user name displayName
      ((p.opts.lookup "rk").getD false) (max 2 (p.cp.getD 2)) tx s.world
    refine wp_of_run_eq_ok hc ?_
    rw [hkey, fromExcept, wp_pure, if_pos hlabel]
    exact wp_mono (signs_denied h _ _) (fun _ _ => False.elim) fun _ _ he => he
  · intro e he
    have hlabel : ¬ Labelled P request := by
      rw [Labelled, he]
      exact fun h => Bool.false_ne_true h.2
    rw [if_neg hlabel]
    exact label_error he
  · intro e he
    have hlabel : ¬ Labelled P request := by
      rw [Labelled, he]
      exact fun h => Bool.false_ne_true h.1
    rw [if_neg hlabel]
    exact label_error he

/-- **A denied `make`** always throws. -/
theorem make_denied (h : store.Denies S) :
    wp (make P store request tx) (fun _ _ => False) (fun e _ => e = told P request S) s := by
  simp only [make, wp_bind, wp_onWorld, told]
  refine wp_fromExcept (fun p hp => ?_) fun e he => by rw [he]
  refine wp_of_run_eq_ok (h.credentials _) ?_
  rw [hp]
  dsimp only
  split
  · next c hfind =>
      have hany : S.any (p.excludes P) :=
        List.any_eq_true.mpr ⟨c, List.mem_of_find?_eq_some hfind, List.find?_some hfind⟩
      rw [wp_bind, if_pos (.inl hany)]
      exact wp_mono (signs_denied h _ _) (fun _ _ => False.elim) fun _ _ he => he
  · next hfind =>
      have hno : ¬ S.any (p.excludes P) := by
        rw [List.any_eq_true]
        rintro ⟨c, hc, hexcludes⟩
        exact List.find?_eq_none.mp hfind c hc hexcludes
      refine wp_ite (fun hroom => ?_) fun hroom => ?_
      · refine wp_mono (makeNew_denied h p) (fun _ _ => False.elim) ?_
        rintro e _ rfl
        by_cases hlabel : Labelled P request
        · rw [if_pos hlabel, if_pos (.inr ⟨hroom, hlabel⟩)]
        · rw [if_neg hlabel, if_neg (not_or.mpr ⟨hno, fun h => hlabel h.2⟩)]
          exact (if_pos hroom).symm
      · rw [if_neg (not_or.mpr ⟨hno, fun h => hroom h.1⟩)]
        exact (if_neg hroom).symm

end

/-- The answer to a MakeCredential message when the user denies every use of a key. -/
def deniedAnswer (P : Platform) (tx : FIDOTransaction ω) (w : ω) (body : Data)
    (S : List FIDOCredential) : Data :=
  match tx.check.run w with
  | .error e _ => [FIDO2Authenticator.status e]
  | .ok _ _ =>
      if (0x01 :: body).length ≤ maximumMessage then
        match CBOR.decode body with
        | .error e => [FIDO2Authenticator.status e]
        | .ok request =>
            if request.fields.isNone then [0x11]
            else [FIDO2Authenticator.status (told P request S)]
      else [0x03]

open FIDO2Authenticator in
/-- **A denied MakeCredential**, through `process`. -/
theorem process_denied {P : Platform} {store : FIDOKeyStore ω} {S : List FIDOCredential}
    (h : store.Denies S) (body : Data) (channel : String) (tx : FIDOTransaction ω) (now : Nat)
    (s : FIDO2Authenticator ω) :
    (s.process P store (0x01 :: body) channel tx now).1 = deniedAnswer P tx s.world body S := by
  have hw : wp (respond P store (0x01 :: body) channel tx now) (fun _ _ => False)
      (fun e _ => [status e] = deniedAnswer P tx s.world body S) s := by
    simp only [respond, wp_bind, wp_onWorld, deniedAnswer]
    refine wp_intro (fun _ w hcheck => ?_) fun e w hcheck => by rw [hcheck]
    rw [hcheck]
    dsimp only
    refine wp_ite (fun hlen => ?_) fun hlen => ?_
    · rw [if_pos hlen]
      simp only [wp_bind, wp_modify, wp_onWorld]
      rw [begun_eq, perform, if_neg (by decide), if_pos (by decide), wp_bind]
      refine wp_fromExcept (fun request hd => ?_) fun e he => by rw [he]
      rw [hd]
      dsimp only
      refine wp_ite (fun hf => ?_) fun hf => ?_
      · rw [if_pos hf]
        rfl
      · rw [if_neg hf, if_pos rfl]
        refine wp_mono (make_denied h) (fun _ _ => False.elim) ?_
        rintro e _ rfl
        rfl
    · rw [if_neg hlen]
      rfl
  rw [process]
  cases hr : (respond P store (0x01 :: body) channel tx now).run s with
  | ok r s' => exact (hw.ok hr).elim
  | error e s' => exact hw.error hr

/-- The credentials without those that the exclude list of the message names. -/
def unlisted (P : Platform) (body : Data) (S : List FIDOCredential) : List FIDOCredential :=
  match CBOR.decode body with
  | .ok request =>
      match makeParameters P request with
      | .ok p => S.filter fun c => !p.excludes P c
      | .error _ => S
  | .error _ => S

/-- The message is taken up to its exclude list, which names a credential of the store, and would be
refused before the user is asked if the store did not hold it. -/
def Discloses (P : Platform) (tx : FIDOTransaction ω) (w : ω) (body : Data)
    (S : List FIDOCredential) : Prop :=
  (∃ w', tx.check.run w = .ok () w') ∧ (0x01 :: body).length ≤ maximumMessage ∧
    ∃ request p, CBOR.decode body = .ok request ∧ makeParameters P request = .ok p ∧
      (∃ c ∈ S, p.excludes P c) ∧ ¬ (p.Room P (unlisted P body S) ∧ Labelled P request)

theorem any_excludes_filter (P : Platform) (p : MakeParameters) (S : List FIDOCredential) :
    ¬ (S.filter fun c => !p.excludes P c).any (p.excludes P) := by
  rw [List.any_eq_true]
  rintro ⟨c, hc, hexcludes⟩
  have := (List.mem_filter.mp hc).2
  rw [hexcludes] at this
  cases this

/-- What is told with and without the listed credentials. -/
theorem told_eq_iff {P : Platform} {request : CBOR} {p : MakeParameters} {S : List FIDOCredential}
    (hp : makeParameters P request = .ok p) :
    FIDO2Authenticator.status (told P request S) =
        FIDO2Authenticator.status (told P request (S.filter fun c => !p.excludes P c)) ↔
      ((∃ c ∈ S, p.excludes P c) →
        p.Room P (S.filter fun c => !p.excludes P c) ∧ Labelled P request) := by
  by_cases hany : S.any (p.excludes P)
  · -- denied at once on the one side, and after the other checks on the other
    have hno := any_excludes_filter P p S
    have hdenied : told P request S = .status 0x27 := by
      rw [told, hp]
      exact if_pos (.inl hany)
    rw [hdenied, told, hp]
    dsimp only
    constructor
    · intro heq _
      by_contra hcheck
      rw [if_neg (not_or.mpr ⟨hno, hcheck⟩)] at heq
      split at heq <;> exact absurd heq (by decide)
    · intro hcheck
      rw [if_pos (.inr (hcheck (List.any_eq_true.mp hany)))]
  · -- nothing is listed, and nothing is removed
    have hnone : ∀ c ∈ S, p.excludes P c = false := by
      intro c hc
      by_contra hne
      exact hany (List.any_eq_true.mpr ⟨c, hc, by simpa using hne⟩)
    have hself : S.filter (fun c => !p.excludes P c) = S :=
      List.filter_eq_self.mpr fun c hc => by rw [hnone c hc]; rfl
    rw [hself]
    refine ⟨fun _ hsome => absurd (List.any_eq_true.mpr hsome) hany, fun _ => rfl⟩

/-- **MakeCredential hides the excluded credentials** from a caller whom the user denies, exactly if
the message passes the checks that a store without them would come to: its labels are valid, and there
is room. -/
theorem excluded_hidden_iff (P : Platform) {store store' : FIDOKeyStore ω} {S : List FIDOCredential}
    {body : Data} (hS : store.Denies S) (hS' : store'.Denies (unlisted P body S)) (channel : String)
    (tx : FIDOTransaction ω) (now : Nat) (s : FIDO2Authenticator ω) :
    (s.process P store (0x01 :: body) channel tx now).1 =
        (s.process P store' (0x01 :: body) channel tx now).1 ↔ ¬ Discloses P tx s.world body S := by
  rw [process_denied hS, process_denied hS']
  constructor
  · rintro hsame ⟨⟨w', hcheck⟩, hlen, request, p, hd, hp, hlisted, hrefused⟩
    have hunlisted : unlisted P body S = S.filter fun c => !p.excludes P c := by
      simp only [unlisted, hd, hp]
    rw [hunlisted] at hsame hrefused
    simp only [deniedAnswer, hcheck, if_pos hlen, hd,
      FIDO2Authenticator.fields_of_makeParameters hp, Bool.false_eq_true, if_false] at hsame
    exact hrefused ((told_eq_iff hp).mp (List.cons.inj hsame).1 hlisted)
  · intro hhidden
    rw [deniedAnswer, deniedAnswer]
    cases hcheck : tx.check.run s.world with
    | error e w' => rfl
    | ok _ w' =>
        dsimp only
        split
        · next hlen =>
            cases hd : CBOR.decode body with
            | error e => rfl
            | ok request =>
                dsimp only
                split
                · rfl
                · cases hp : makeParameters P request with
                  | error e => rw [told, told, hp]
                  | ok p =>
                      have hunlisted : unlisted P body S = S.filter fun c => !p.excludes P c := by
                        simp only [unlisted, hd, hp]
                      rw [hunlisted]
                      congr 1
                      refine (told_eq_iff hp).mpr fun hlisted => ?_
                      by_contra hrefused
                      exact hhidden ⟨⟨w', hcheck⟩, hlen, request, p, hd, hp, hlisted,
                        hunlisted ▸ hrefused⟩
        · rfl

namespace Sample

/-- A store whose owner denies everything. -/
def denying (credentials : List FIDOCredential) : FIDOKeyStore Unit :=
  { store credentials with sign := fun _ _ _ => throw (.status 0x27) }

theorem denies_denying (S : List FIDOCredential) : (denying S).Denies S where
  credentials _ := rfl
  generates _ _ _ _ _ _ _ _ := ⟨_, (), _, rfl, rfl⟩
  denied _ _ _ _ := ⟨(), rfl⟩

/-- A registration of the given name that excludes a credential. -/
def register (name : String) : Data :=
  (CBOR.map [(.int 1, .bytes (List.replicate 32 7)),
    (.int 2, .map [(.text "id", .text "example.com")]),
    (.int 3, .map [(.text "id", .bytes [9]), (.text "name", .text name)]),
    (.int 4, .array [.map [(.text "type", .text "public-key"), (.text "alg", .int (-7))]]),
    (.int 5, .array [.map [(.text "type", .text "public-key"),
      (.text "id", .bytes (credential 1 2).id)]])]).encoded

end Sample

/-- An excluded credential of a request with a plain name is not disclosed. -/
theorem excluded_hidden_plain :
    let S := [Sample.credential 1 2]
    let body := Sample.register "a"
    let answer := fun S => (FIDO2Authenticator.process Sample.platform (Sample.denying S)
      (0x01 :: body) "0000000a" Sample.transaction 0 ⟨(), none, []⟩).1
    unlisted Sample.platform body S = [] ∧ answer S = answer (unlisted Sample.platform body S) := by
  intro S body answer
  have hbody : (match CBOR.decode body with
      | .ok request => decide (Labelled Sample.platform request)
      | .error _ => false) = true := by
    decide +kernel
  have hempty : unlisted Sample.platform body S = [] := by
    decide +kernel
  refine ⟨hempty, ?_⟩
  refine (excluded_hidden_iff Sample.platform (Sample.denies_denying S)
    (Sample.denies_denying (unlisted Sample.platform body S)) _ _ _ _).mpr ?_
  rintro ⟨-, -, request, p, hd, -, -, hrefused⟩
  rw [hd] at hbody
  refine hrefused ⟨.inr ?_, of_decide_eq_true hbody⟩
  rw [hempty]
  decide

/-- **A control character in the name** discloses the credential: the request is denied if the store
holds it, and malformed if it does not. -/
theorem excluded_disclosed :
    ¬ ∀ (P : Platform) (store store' : FIDOKeyStore Unit) (S : List FIDOCredential) (body : Data),
      store.Denies S → store'.Denies (unlisted P body S) →
      ∀ (channel : String) (tx : FIDOTransaction Unit) (now : Nat) (s : FIDO2Authenticator Unit),
        (s.process P store (0x01 :: body) channel tx now).1 =
          (s.process P store' (0x01 :: body) channel tx now).1 := by
  intro hall
  have hempty : unlisted Sample.platform (Sample.register "\x01") [Sample.credential 1 2] = [] := by
    decide +kernel
  have hsame := hall Sample.platform (Sample.denying [Sample.credential 1 2]) (Sample.denying [])
    [Sample.credential 1 2] (Sample.register "\x01") (Sample.denies_denying _)
    (by rw [hempty]; exact Sample.denies_denying []) "0000000a" Sample.transaction 0 ⟨(), none, []⟩
  have hdiffer : (FIDO2Authenticator.process Sample.platform (Sample.denying [Sample.credential 1 2])
      (0x01 :: Sample.register "\x01") "0000000a" Sample.transaction 0 ⟨(), none, []⟩).1 = [0x27] ∧
      (FIDO2Authenticator.process Sample.platform (Sample.denying [])
        (0x01 :: Sample.register "\x01") "0000000a" Sample.transaction 0 ⟨(), none, []⟩).1 =
          [0x02] := by
    decide +kernel
  rw [hdiffer.1, hdiffer.2] at hsame
  exact absurd hsame (by decide)

end Ashacky.Fido
