import Ashacky.Fido.Records
import Ashacky.Fido.Sizes
import Ashacky.Fido.Service

/-!
# Fido — MakeCredential and its reported outcome

A MakeCredential request through the service: `process` on the serial queue, then the completion
block on the main queue.  `make` checks the transaction a last time right before `store.save`, the
one step that cannot be taken back; but the transaction is sampled twice more after it, at the end
of `process` and in the completion block, and a cancellation found there is answered with an error
although the credential was saved.

* `serve_of_saves`: when the request reaches the end of `save`, the file holds the new list, and the
  answer is a success only if both later samples pass.
* `serve_of_not_saves`: otherwise the file is as it was.
* `atomic_iff`: so the answer and the file agree exactly when no cancellation or lock is found after
  `save`.
-/

namespace Ashacky.Fido
open Ashacky.Support

/-- A request through the service, with `entry` on disk: the data of the reply, and the file after
it.  `same` says that the generation has not changed when the completion block runs. -/
def serve (P : Platform) (J : Coder) (env : Environment) (same : Bool) (message : Data)
    (channel : String) (now : Nat) (entry : Entry) : Data × Entry :=
  let r := (starting entry).process P (secureEnclaveFIDOStore P J env) message channel
    env.transaction now
  (answer (same && env.passes r.2.world.clock) r.1, r.2.world.entry)

/-- The MakeCredential message passes every check up to and including `save`. -/
def Saves (P : Platform) (J : Coder) (env : Environment) (body : Data) (entry : Entry) : Prop :=
  (0x01 :: body).length ≤ maximumMessage ∧ env.passes 0 = true ∧
    ∃ request, CBOR.decode body = .ok request ∧ ∃ p l c key signature data,
      Creates P J env request entry 2 p l c key signature data

section

variable {P : Platform} {J : Coder} {env : Environment} {body : Data} {channel : String} {now : Nat}
  {entry : Entry}

open FIDO2Authenticator

/-- **A request that does not reach the end of `save`** leaves the file as it was. -/
theorem serve_of_not_saves {same : Bool} (h : ¬ Saves P J env body entry) :
    (serve P J env same (0x01 :: body) channel now entry).2 = entry := by
  have hw : wp (respond P (secureEnclaveFIDOStore P J env) (0x01 :: body) channel env.transaction now)
      (fun _ s' => s'.world.entry = entry) (fun _ s' => s'.world.entry = entry)
      (starting entry) := by
    simp only [respond, wp_bind, wp_onWorld]
    refine wp_mono check_wp ?_ fun _ _ h => h.2.1
    rintro _ _ ⟨hpass, rfl⟩
    refine wp_ite (fun hlen => ?_) fun _ => rfl
    simp only [wp_bind, wp_modify, wp_onWorld]
    rw [begun_eq, perform, if_neg (by decide), if_pos (by decide)]
    simp only [wp_bind]
    refine wp_fromExcept (fun request hd => ?_) fun _ _ => rfl
    refine wp_ite (fun _ => rfl) fun _ => ?_
    rw [if_pos trivial]
    refine wp_intro (fun v s' hok => ?_) fun e s' herr => ?_
    · obtain ⟨p, l, c, key, signature, data, hc, -, -⟩ := make_eq_ok.mp hok
      exact absurd ⟨hlen, hpass, request, hd, p, l, c, key, signature, data, hc⟩ h
    · exact make_error.error herr
  simp only [serve, process]
  cases hr : (respond P (secureEnclaveFIDOStore P J env) (0x01 :: body) channel env.transaction
      now).run (starting entry) with
  | ok r s' => exact hw.ok hr
  | error e s' =>
      have hentry : s'.world.entry = entry := hw.error hr
      exact hentry

/-- `process` on a request that reaches the end of `save`, up to its last check. -/
theorem respond_of_creates (channel : String) (now : Nat) {request : CBOR} {p : MakeParameters} {l : List FIDOCredential}
    {c : FIDOCredential} {key : CBOR} {signature data : Data}
    (hsig : ∀ t k d signature, env.signature t k d = some signature → signature.length ≤ 72)
    (hlen : (0x01 :: body).length ≤ maximumMessage) (hpass : env.passes 0 = true)
    (hd : CBOR.decode body = .ok request)
    (hc : Creates P J env request entry 2 p l c key signature data) (hbounds : c.InBounds) :
    wp (respond P (secureEnclaveFIDOStore P J env) (0x01 :: body) channel env.transaction now)
      (fun r s' => env.passes 10 = true ∧ (∃ rest, r = 0 :: rest) ∧
        s'.world = ⟨.file (savedFile data), 12⟩)
      (fun e s' => env.passes 10 = false ∧ status e ≠ 0 ∧
        s'.world.entry = .file (savedFile data)) (starting entry) := by
  have hfit := attestation_fits (length_data (P := P) (p := p) hbounds.1 hbounds.2.2.2.2.1 hc.cose)
    (hsig _ _ _ _ hc.signed.2.2.1)
  simp only [respond, wp_bind, wp_onWorld]
  refine wp_mono check_wp ?_ fun _ _ h => absurd (hpass.symm.trans h.1) (by decide)
  rintro _ _ ⟨-, rfl⟩
  rw [if_pos hlen]
  simp only [wp_bind, wp_modify, wp_onWorld]
  rw [begun_eq, perform_make _ _ hd (fields_of_makeParameters hc.parameters)]
  refine wp_of_run_eq_ok (make_eq_ok.mpr ⟨p, l, c, key, signature, data, hc, rfl, rfl⟩) ?_
  refine wp_mono check_wp ?_ ?_
  · rintro _ _ ⟨hten, rfl⟩
    rw [if_pos hfit]
    exact ⟨hten, ⟨_, rfl⟩, rfl⟩
  · rintro e _ ⟨hten, hentry, he⟩
    refine ⟨hten, ?_, hentry⟩
    rcases he with rfl | rfl <;> decide

/-- **A request that reaches the end of `save`** leaves the new list, whatever is answered: a
success if the two samples after it pass, and an error otherwise. -/
theorem serve_of_saves (same : Bool) (channel : String) (now : Nat) (henv : env.Sound J entry)
    (hsig : ∀ t k d signature, env.signature t k d = some signature → signature.length ≤ 72)
    (h : Saves P J env body entry) :
    ∃ l c data, records J entry = .ok l ∧ (∀ r ∈ l, r.id ≠ c.id) ∧
      J.encode (kept P c l ++ [c]) = some data ∧
      (serve P J env same (0x01 :: body) channel now entry).2 = .file (savedFile data) ∧
      ((serve P J env same (0x01 :: body) channel now entry).1.head? = some 0 ↔
        env.passes 10 = true ∧ same = true ∧ env.passes 12 = true) := by
  obtain ⟨hlen, hpass, request, hd, p, l, c, key, signature, data, hc⟩ := h
  obtain ⟨hbounds, hfresh⟩ := hc.inBounds henv
  refine ⟨l, c, data, hc.existing, hfresh, hc.saved.1, ?_⟩
  have hw := respond_of_creates channel now hsig hlen hpass hd hc hbounds
  simp only [serve, process]
  cases hr : (respond P (secureEnclaveFIDOStore P J env) (0x01 :: body) channel env.transaction
      now).run (starting entry) with
  | ok r s' =>
      obtain ⟨hten, ⟨rest, rfl⟩, hworld⟩ := hw.ok hr
      refine ⟨by rw [hworld], ?_⟩
      simp only [hworld, hten, true_and, answer]
      cases hv : same && env.passes 12 with
      | true => simpa using hv
      | false =>
          simp only [Bool.and_eq_false_iff] at hv
          constructor
          · intro h
            cases h
          · rintro ⟨h₁, h₂⟩
            rcases hv with hv | hv
            · rw [hv] at h₁
              cases h₁
            · rw [hv] at h₂
              cases h₂
  | error e s' =>
      obtain ⟨hten, hstatus, hentry⟩ := hw.error hr
      refine ⟨hentry, ?_⟩
      simp only [hten, Bool.false_eq_true, false_and, iff_false, answer]
      split
      · simpa using hstatus
      · decide

end

/-- An error answer means that `credentials()` returns what it did before. -/
def Atomic (P : Platform) (J : Coder) (env : Environment) (same : Bool) (body : Data)
    (channel : String) (now : Nat) (entry : Entry) : Prop :=
  (serve P J env same (0x01 :: body) channel now entry).1.head? ≠ some 0 →
    records J (serve P J env same (0x01 :: body) channel now entry).2 = records J entry

/-- A list with a new record is not read back as the list without it. -/
theorem records_savedFile_ne {P : Platform} {J : Coder} {l : List FIDOCredential} {c : FIDOCredential} {d : Data}
    (he : J.encode (kept P c l ++ [c]) = some d) (hfresh : ∀ r ∈ l, r.id ≠ c.id) :
    records J (.file (savedFile d)) ≠ .ok l := by
  intro h
  rw [records] at h
  split at h
  · have hdecode : J.decode (savedFile d).bytes = some (kept P c l ++ [c]) := J.decode_encode he
    rw [hdecode] at h
    dsimp only at h
    split at h
    · have hl : kept P c l ++ [c] = l := Except.ok.inj h
      have hc : c ∈ l := hl ▸ List.mem_append_right _ (List.mem_singleton_self c)
      exact hfresh c hc rfl
    · cases h
  · cases h

/-- **When the answer to MakeCredential agrees with the store.**  An error answer leaves the
credential list as it was exactly when the request does not reach the end of `save`, or no
cancellation and no lock is found after it: the last check of `process` passes, the generation is
the same in the completion block, and so does its sample. -/
theorem atomic_iff (P : Platform) (J : Coder) (env : Environment) (same : Bool) (body : Data)
    (channel : String) (now : Nat) (entry : Entry) (henv : env.Sound J entry)
    (hsig : ∀ t k d signature, env.signature t k d = some signature → signature.length ≤ 72) :
    Atomic P J env same body channel now entry ↔
      (Saves P J env body entry → env.passes 10 = true ∧ same = true ∧ env.passes 12 = true) := by
  constructor
  · intro hatomic hsaves
    obtain ⟨l, c, data, hl, hfresh, he, hfile, hstatus⟩ :=
      serve_of_saves same channel now henv hsig hsaves
    by_contra hpasses
    have hrecords := hatomic fun h => hpasses (hstatus.mp h)
    rw [hfile, hl] at hrecords
    exact records_savedFile_ne he hfresh hrecords
  · intro hpasses herror
    by_cases hsaves : Saves P J env body entry
    · obtain ⟨l, c, data, -, -, -, -, hstatus⟩ :=
        serve_of_saves same channel now henv hsig hsaves
      exact absurd (hstatus.mpr (hpasses hsaves)) herror
    · rw [serve_of_not_saves hsaves]

/-- Two transactions for one user.  The first is never stopped and succeeds.  The second is cancelled
after its signature, before `save`: it is answered with an error, and the file keeps the record of
the first. -/
theorem atomic_iff_stopped :
    let body := (Sample.makeCredential 1).encoded
    let one := serve Sample.platform Sample.coder (Sample.environment 1) true (0x01 :: body)
      "0000000a" 0 .absent
    let env := { Sample.environment 3 with stopped := fun t => decide (8 ≤ t) }
    let two := serve Sample.platform Sample.coder env true (0x01 :: body) "0000000a" 0 one.2
    Atomic Sample.platform Sample.coder (Sample.environment 1) true body "0000000a" 0 .absent ∧
      one.1.head? = some 0 ∧ two.1 = [0x2d] ∧
      Atomic Sample.platform Sample.coder env true body "0000000a" 0 one.2 ∧
      records Sample.coder two.2 = .ok [Sample.credential 1 2] := by
  intro body one env two
  have hone : records Sample.coder one.2 = .ok [Sample.credential 1 2] := by decide +kernel
  have htwo : two.1 = [0x2d] := by decide +kernel
  have hsig : ∀ n t k d signature, (Sample.environment n).signature t k d = some signature →
      signature.length ≤ 72 := by
    rintro n t k d _ ⟨⟩
    decide
  have hatomic : ∀ entry, records Sample.coder entry = .ok [Sample.credential 1 2] →
      Atomic Sample.platform Sample.coder env true body "0000000a" 0 entry := by
    intro entry hentry
    have hfresh : ∀ r ∈ [Sample.credential 1 2], r.id ≠ (Sample.credential 3 2).id := by decide
    have hsound := Sample.environment_sound hentry hfresh
    have henv : env.Sound Sample.coder entry := ⟨hsound.identifier, hsound.key⟩
    refine (atomic_iff _ _ _ _ _ _ _ _ henv (hsig 3)).mpr ?_
    rintro ⟨-, -, _, -, _, _, _, _, _, _, hc⟩
    exact absurd hc.checked (by decide)
  refine ⟨?_, by decide +kernel, htwo, hatomic _ hone, ?_⟩
  · exact (atomic_iff _ _ _ _ _ _ _ _
      (Sample.environment_sound Sample.records_absent (by simp)) (hsig 1)).mpr fun _ => by decide
  · rw [← hone]
    exact hatomic _ hone (by rw [htwo]; decide)

/-- A cancellation after the last check before `save`: the caller is told that the operation was
cancelled, and the credential is in the store. -/
theorem not_atomic_cancelled_after_save :
    let env := { Sample.environment 1 with stopped := fun t => decide (10 ≤ t) }
    let r := serve Sample.platform Sample.coder env true
      (0x01 :: (Sample.makeCredential 1).encoded) "0000000a" 0 .absent
    r.1 = [0x2d] ∧ records Sample.coder .absent = .ok [] ∧
      records Sample.coder r.2 = .ok [Sample.credential 1 2] ∧
      ¬ Atomic Sample.platform Sample.coder env true (Sample.makeCredential 1).encoded "0000000a" 0
        .absent := by
  intro env r
  have hanswer : r.1 = [0x2d] := by decide +kernel
  have hafter : records Sample.coder r.2 = .ok [Sample.credential 1 2] := by decide +kernel
  refine ⟨hanswer, rfl, hafter, fun h => ?_⟩
  have hrecords : records Sample.coder r.2 = .ok [] := h (by change r.1.head? ≠ _; rw [hanswer]; decide)
  rw [hafter] at hrecords
  cases hrecords

end Ashacky.Fido
