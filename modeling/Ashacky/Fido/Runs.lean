import Ashacky.Support.Machine
import Ashacky.Fido.Authenticator

/-!
# Fido — runs of the authenticator

The authenticator is called through `process` and `clear`, in any order, with any message, channel,
transaction and clock.  A call is observed by its response and by the calls of `store.sign` it made.

* `respond_eq_ok`: the steps behind a successful response.
* `respond_error`, `process_cases`: a call ends with a response that encodes a value, or with one
  status byte and no batch.
* `signing_loop`: the signing loop of `assertion` signs the matches in order, and replies with
  each signature once.
-/

namespace Ashacky.Fido
open Ashacky.Support

variable {ω : Type}

/-- A call of the authenticator. -/
inductive Event (ω : Type) where
  | process (message : Data) (channel : String) (tx : FIDOTransaction ω) (now : Nat)
  | clear

/-- What a call is seen to do. -/
structure Outcome where
  response : Option Data
  calls : List SignCall

section

variable (P : Platform) (store : FIDOKeyStore ω)

/-- The response of a call, and the authenticator after it. -/
def Event.run : Event ω → FIDO2Authenticator ω → Option Data × FIDO2Authenticator ω
  | .process message channel tx now, s =>
      ((s.process P store message channel tx now).1 |> some,
        (s.process P store message channel tx now).2)
  | .clear, s => (none, s.clear)

/-- One call, with its outcome. -/
def FIDO2Authenticator.Step (s : FIDO2Authenticator ω) (e : Event ω) (o : Outcome)
    (s' : FIDO2Authenticator ω) : Prop :=
  (o.response, s') = e.run P store s ∧ s'.calls = s.calls ++ o.calls

variable {P store} in
/-- The first call of an authenticator. -/
theorem FIDO2Authenticator.Step.of_run {s : FIDO2Authenticator ω} (hs : s.calls = [])
    (e : Event ω) :
    s.Step P store e ⟨(e.run P store s).1, (e.run P store s).2.calls⟩ (e.run P store s).2 :=
  ⟨rfl, by rw [hs, List.nil_append]⟩

variable {P store} in
/-- A call of `process` in a run. -/
theorem FIDO2Authenticator.Step.process_eq {s s' : FIDO2Authenticator ω} {message : Data}
    {channel : String} {tx : FIDOTransaction ω} {now : Nat} {o : Outcome}
    (h : s.Step P store (.process message channel tx now) o s') :
    ∃ r, o.response = some r ∧ s.process P store message channel tx now = (r, s') ∧
      s'.calls = s.calls ++ o.calls := by
  obtain ⟨hrun, hcalls⟩ := h
  obtain ⟨hr, hs⟩ := Prod.mk.inj hrun
  exact ⟨_, hr, Prod.ext rfl hs.symm, hcalls⟩

end

/-! ### One call -/

namespace FIDO2Authenticator

variable {P : Platform} {store : FIDOKeyStore ω} {message : Data} {channel : String}
  {tx : FIDOTransaction ω} {now : Nat} {s s' : FIDO2Authenticator ω} {r : Data}

/-- The state in which a command is performed: any command but GetNextAssertion drops the
batch. -/
def begun (s : FIDO2Authenticator ω) (command : UInt8) (w : ω) : FIDO2Authenticator ω :=
  { s with world := w, next := if command = 0x08 then s.next else none }

theorem begun_eq (s : FIDO2Authenticator ω) (command : UInt8) (w : ω) :
    (if command ≠ 0x08 then clear { s with world := w } else { s with world := w }) =
      s.begun command w := by
  by_cases hc : command = 0x08
  · rw [if_neg (not_not.mpr hc), begun, if_pos hc]
  · rw [if_pos hc, begun, if_neg hc, clear]

/-- **The steps behind a successful response.** -/
theorem respond_eq_ok : (respond P store message channel tx now).run s = .ok r s' ↔
    ∃ command body w₁ v s₂ w₂, message = command :: body ∧ message.length ≤ maximumMessage ∧
      tx.check.run s.world = .ok () w₁ ∧
      (perform P store command body channel tx now).run (s.begun command w₁) = .ok v s₂ ∧
      tx.check.run s₂.world = .ok () w₂ ∧ (0 :: v.encoded).length ≤ maximumMessage ∧
      r = 0 :: v.encoded ∧ s' = { s₂ with world := w₂ } := by
  rw [respond.eq_def, run_bind_eq_ok]
  constructor
  · rintro ⟨⟨⟩, s₁, h, h₁⟩
    obtain ⟨w₁, hw₁, rfl⟩ := run_onWorld_eq_ok.mp h
    split at h₁
    · cases h₁
    · rename_i command body
      split at h₁
      · rename_i hlen
        obtain ⟨_, s₁, hc, h₂⟩ := run_bind_eq_ok.mp h₁
        rw [EStateM.run_modify, begun_eq] at hc
        cases hc
        obtain ⟨v, s₂, hv, h₃⟩ := run_bind_eq_ok.mp h₂
        obtain ⟨⟨⟩, s₃, hw, h₄⟩ := run_bind_eq_ok.mp h₃
        obtain ⟨w₂, hw₂, rfl⟩ := run_onWorld_eq_ok.mp hw
        split at h₄
        · rename_i hfit
          cases h₄
          exact ⟨command, body, w₁, v, s₂, w₂, rfl, hlen, hw₁, hv, hw₂, hfit, rfl, rfl⟩
        · cases h₄
      · cases h₁
  · rintro ⟨command, body, w₁, v, s₂, w₂, rfl, hlen, hw₁, hv, hw₂, hfit, rfl, rfl⟩
    refine ⟨(), { s with world := w₁ }, run_onWorld_eq_ok.mpr ⟨w₁, hw₁, rfl⟩, ?_⟩
    simp only [hlen, if_true]
    refine run_bind_eq_ok.mpr ⟨(), s.begun command w₁, ?_, run_bind_eq_ok.mpr ⟨v, s₂, hv,
      run_bind_eq_ok.mpr ⟨(), { s₂ with world := w₂ },
        run_onWorld_eq_ok.mpr ⟨w₂, hw₂, rfl⟩, ?_⟩⟩⟩
    · rw [EStateM.run_modify, begun_eq]
    · rw [if_pos hfit]
      rfl

theorem fields_of_makeParameters {P : Platform} {request : CBOR} {p : MakeParameters}
    (h : makeParameters P request = .ok p) : request.fields.isNone = false := by
  obtain ⟨h1, -⟩ := makeParameters_eq_ok h
  cases hf : request.fields with
  | some m => rfl
  | none => simp [CBOR.index, CBOR.field, hf] at h1

/-- A command 1 performs `make`. -/
theorem perform_make (store : FIDOKeyStore ω) (tx : FIDOTransaction ω) {body : Data} {request : CBOR}
    (hd : CBOR.decode body = .ok request) (hf : request.fields.isNone = false) :
    perform P store 0x01 body channel tx now = make P store request tx := by
  rw [perform, if_neg (by decide), if_pos (by decide), hd]
  change (if request.fields.isNone = true then _ else _) = _
  rw [hf]
  rfl

/-- **A call of `process`** ends with a successful response, or with one status byte and no
batch. -/
theorem process_cases (h : s.process P store message channel tx now = (r, s')) :
    (respond P store message channel tx now).run s = .ok r s' ∨
      ∃ e s₁, (respond P store message channel tx now).run s = .error e s₁ ∧
        r = [status e] ∧ s' = s₁.clear := by
  simp only [process] at h
  split at h
  · rename_i hr
    cases h
    exact .inl hr
  · rename_i e s₁ hr
    cases h
    exact .inr ⟨e, s₁, hr, rfl, rfl⟩

end FIDO2Authenticator

/-! ### The signing loop -/

/-- The successful call that signed `data` for a credential. -/
def signedCall (data : Data) (x : FIDOCredential × Data) : SignCall := ⟨x.1, data, .ok x.2⟩

/-- The signature is what the store returned for the credential, in some world. -/
def Signs (store : FIDOKeyStore ω) (tx : FIDOTransaction ω) (data : Data)
    (x : FIDOCredential × Data) : Prop :=
  ∃ w w', (store.sign x.1 data tx).run w = .ok x.2 w'

/-- The replies for the matches and their signatures: the first of several carries their
number. -/
def repliesFor (data : Data) : List (FIDOCredential × Data) → List CBOR
  | [] => []
  | x :: rest =>
      assertionReply data x.2 x.1 (if rest.length + 1 > 1 then some (rest.length + 1) else none) ::
        rest.map fun x => assertionReply data x.2 x.1 none

section Loop

variable {P : Platform} {store : FIDOKeyStore ω} {p : AssertionParameters}
  {tx : FIDOTransaction ω} {count : Nat}

/-- The calls of an interrupted loop: each signs the same data for one of the matches. -/
def Attempts (P : Platform) (p : AssertionParameters) (matched : List FIDOCredential)
    (s s' : FIDO2Authenticator ω) : Prop :=
  s'.next = s.next ∧ ∃ new, s'.calls = s.calls ++ new ∧ ∀ call ∈ new,
    call.credential ∈ matched ∧ call.data = authData P p.relyingParty p.flags ++ p.clientHash

theorem Attempts.refl {matched : List FIDOCredential} (s : FIDO2Authenticator ω) (w : ω) :
    Attempts P p matched s { s with world := w } :=
  ⟨rfl, [], (List.append_nil _).symm, by simp⟩

theorem Attempts.mono {m m' : List FIDOCredential} {s s' : FIDO2Authenticator ω}
    (h : Attempts P p m s s') (hm : ∀ c ∈ m, c ∈ m') : Attempts P p m' s s' := by
  obtain ⟨hn, new, hc, hnew⟩ := h
  exact ⟨hn, new, hc, fun call hcall => ⟨hm _ (hnew call hcall).1, (hnew call hcall).2⟩⟩

/-- A successful signature before an interrupted loop. -/
theorem Attempts.cons {c : FIDOCredential} {cs : List FIDOCredential} {sig : Data}
    {s s₁ s' : FIDO2Authenticator ω} (h : Attempts P p cs s₁ s') (hn : s₁.next = s.next)
    (hc : s₁.calls = s.calls ++
      [signedCall (authData P p.relyingParty p.flags ++ p.clientHash) (c, sig)]) :
    Attempts P p (c :: cs) s s' := by
  obtain ⟨hn', new, hc', hnew⟩ := h
  refine ⟨hn'.trans hn, _ :: new, by rw [hc', hc, List.append_assoc]; rfl, ?_⟩
  intro call hcall
  rcases List.mem_cons.mp hcall with rfl | hcall
  · exact ⟨List.mem_cons_self, rfl⟩
  · exact ⟨List.mem_cons_of_mem _ (hnew call hcall).1, (hnew call hcall).2⟩

theorem assertionStep_wp (replies : List CBOR) (c : FIDOCredential) (s : FIDO2Authenticator ω) :
    wp (assertionStep P store p tx count replies c)
      (fun out s' => s'.next = s.next ∧ ∃ sig,
        Signs store tx (authData P p.relyingParty p.flags ++ p.clientHash) (c, sig) ∧
        s'.calls = s.calls ++
          [signedCall (authData P p.relyingParty p.flags ++ p.clientHash) (c, sig)] ∧
        out = replies ++ [assertionReply (authData P p.relyingParty p.flags) sig c
          (if replies.isEmpty ∧ count > 1 then some count else none)])
      (fun _ s' => Attempts P p [c] s s') s := by
  simp only [assertionStep, wp_bind, wp_onWorld, wp_signs, wp_pure]
  refine wp_intro (fun _ w _ => wp_intro (fun sig w' hsig => ?_) fun e w' _ => ?_)
    fun _ w _ => Attempts.refl s w
  · exact ⟨trivial, sig, ⟨w, w', hsig⟩, rfl, rfl⟩
  · exact ⟨rfl, _, rfl, by simp⟩

/-- After the first reply the loop adds one reply without a number for each match. -/
theorem signing_loop_rest (cs : List FIDOCredential) {replies : List CBOR} (hr : replies ≠ [])
    (s : FIDO2Authenticator ω) :
    wp (cs.foldlM (assertionStep P store p tx count) replies)
      (fun out s' => s'.next = s.next ∧
        ∃ pairs : List (FIDOCredential × Data), pairs.map Prod.fst = cs ∧
          (∀ x ∈ pairs,
            Signs store tx (authData P p.relyingParty p.flags ++ p.clientHash) x) ∧ s'.calls = s.calls ++
          pairs.map (signedCall (authData P p.relyingParty p.flags ++ p.clientHash)) ∧
        out = replies ++ pairs.map fun x =>
          assertionReply (authData P p.relyingParty p.flags) x.2 x.1 none)
      (fun _ s' => Attempts P p cs s s') s := by
  induction cs generalizing replies s with
  | nil => exact ⟨rfl, [], rfl, by simp, by simp, by simp⟩
  | cons c cs ih =>
      rw [List.foldlM_cons, wp_bind]
      refine wp_mono (assertionStep_wp replies c s) ?_ ?_
      · rintro _ s₁ ⟨hn, sig, hsig, hc, rfl⟩
        have he : replies.isEmpty = false := by simpa using hr
        simp only [he, Bool.false_eq_true, false_and, if_false]
        refine wp_mono (ih (by simp) s₁) ?_ ?_
        · rintro out s₂ ⟨hn₂, pairs, hp, hs₂, hc₂, rfl⟩
          exact ⟨hn₂.trans hn, (c, sig) :: pairs, by simp [hp],
            List.forall_mem_cons.mpr ⟨hsig, hs₂⟩, by simp [hc₂, hc], by simp⟩
        · intro _ s₂ h
          exact h.cons hn hc
      · intro _ s₁ h
        exact h.mono (by simp)

/-- **The signing loop** signs the matches in order and replies with each signature once. -/
theorem signing_loop (cs : List FIDOCredential) (s : FIDO2Authenticator ω) :
    wp (cs.foldlM (assertionStep P store p tx cs.length) [])
      (fun out s' => s'.next = s.next ∧
        ∃ pairs : List (FIDOCredential × Data), pairs.map Prod.fst = cs ∧
          (∀ x ∈ pairs,
            Signs store tx (authData P p.relyingParty p.flags ++ p.clientHash) x) ∧ s'.calls = s.calls ++
          pairs.map (signedCall (authData P p.relyingParty p.flags ++ p.clientHash)) ∧
        out = repliesFor (authData P p.relyingParty p.flags) pairs)
      (fun _ s' => Attempts P p cs s s') s := by
  cases cs with
  | nil => exact ⟨rfl, [], rfl, by simp, by simp, rfl⟩
  | cons c cs =>
      rw [List.foldlM_cons, wp_bind]
      refine wp_mono (assertionStep_wp [] c s) ?_ ?_
      · rintro _ s₁ ⟨hn, sig, hsig, hc, rfl⟩
        refine wp_mono (signing_loop_rest cs (by simp) s₁) ?_ ?_
        · rintro out s₂ ⟨hn₂, pairs, hp, hs₂, hc₂, rfl⟩
          have hl : pairs.length = cs.length := by rw [← hp, List.length_map]
          refine ⟨hn₂.trans hn, (c, sig) :: pairs, by simp [hp],
            List.forall_mem_cons.mpr ⟨hsig, hs₂⟩, by simp [hc₂, hc], ?_⟩
          simp [repliesFor, hl]
        · intro _ s₂ h
          exact h.cons hn hc
      · intro _ s₁ h
        exact h.mono (by simp)

end Loop

/-! ### GetAssertion and GetNextAssertion -/

/-- How `assertion` succeeds: with a pre-flight reply, or with the first of the signed replies,
the others queued. -/
inductive Asserted (P : Platform) (store : FIDOKeyStore ω) (request : CBOR) (channel : String)
    (tx : FIDOTransaction ω) (now : Nat) (s : FIDO2Authenticator ω) : CBOR → FIDO2Authenticator ω → Prop where
  | preflight {p : AssertionParameters} {existing : List FIDOCredential} {w : ω}
      {ids : List Data} {c : FIDOCredential} (hp : assertionParameters P request = .ok p)
      (hc : store.credentials.run s.world = .ok existing w) (hflight : p.preflight = true)
      (hids : p.allowed = some ids)
      (hfind : (existing.filter (p.selects P)).find? (·.protection < 3) = some c) :
      Asserted P store request channel tx now s (preflightReply P p.relyingParty c)
        { s with world := w }
  | signed {p : AssertionParameters} {existing : List FIDOCredential} {w : ω}
      {pairs : List (FIDOCredential × Data)} {v : CBOR} {rest : List CBOR}
      {s' : FIDO2Authenticator ω} (hp : assertionParameters P request = .ok p)
      (hc : store.credentials.run s.world = .ok existing w) (hflight : p.preflight = false)
      (hpairs : pairs.map Prod.fst = existing.filter (p.selects P))
      (hsigns : ∀ x ∈ pairs,
        Signs store tx (authData P p.relyingParty p.flags ++ p.clientHash) x)
      (hreplies : repliesFor (authData P p.relyingParty p.flags) pairs = v :: rest)
      (hcalls : s'.calls = s.calls ++
        pairs.map (signedCall (authData P p.relyingParty p.flags ++ p.clientHash)))
      (hnext : s'.next = if rest.isEmpty then s.next else some ⟨channel, now + 30000, rest⟩) :
      Asserted P store request channel tx now s v s'

/-- What a failed `assertion` leaves: calls for credentials of the relying party. -/
def Refused (P : Platform) (request : CBOR) (s s' : FIDO2Authenticator ω) : Prop :=
  s'.next = s.next ∧ ∃ new, s'.calls = s.calls ++ new ∧ ∀ call ∈ new,
    ∃ p, assertionParameters P request = .ok p ∧ P.same call.credential.rp p.relyingParty ∧
      call.data = authData P p.relyingParty p.flags ++ p.clientHash

theorem Refused.refl {P : Platform} {request : CBOR} (s : FIDO2Authenticator ω) (w : ω) :
    Refused P request s { s with world := w } :=
  ⟨rfl, [], (List.append_nil _).symm, by simp⟩

theorem AssertionParameters.rp_of_selects {P : Platform} {p : AssertionParameters}
    {c : FIDOCredential} (h : p.selects P c = true) : P.same c.rp p.relyingParty = true := by
  simp only [AssertionParameters.selects, Bool.and_eq_true] at h
  exact h.1

namespace FIDO2Authenticator

variable {P : Platform} {store : FIDOKeyStore ω} {request : CBOR} {channel : String}
  {tx : FIDOTransaction ω} {now : Nat}

/-- **What `assertion` does.** -/
theorem assertion_wp (s : FIDO2Authenticator ω) :
    wp (assertion P store request channel tx now)
      (fun v s' => Asserted P store request channel tx now s v s')
      (fun _ s' => Refused P request s s') s := by
  simp only [assertion, wp_bind, wp_onWorld]
  refine wp_fromExcept (fun p hp => ?_) fun e _ => Refused.refl s s.world
  refine wp_intro (fun existing w hc => ?_) fun e w _ => Refused.refl s w
  refine wp_ite (fun _ => Refused.refl s w) fun _ => ?_
  refine wp_ite (fun hflight => ?_) fun hflight => ?_
  · split
    · rename_i ids c hids hfind
      exact .preflight hp hc hflight hids hfind
    · exact Refused.refl s w
  · rw [wp_bind]
    refine wp_mono (signing_loop (existing.filter (p.selects P)) _) ?_ ?_
    · rintro _ s₁ ⟨hn, pairs, hpairs, hsigns, hcalls, rfl⟩
      cases hreplies : repliesFor (authData P p.relyingParty p.flags) pairs with
      | nil =>
          refine ⟨hn, _, hcalls, ?_⟩
          intro call hcall
          obtain ⟨x, hx, rfl⟩ := List.mem_map.mp hcall
          have hsel : x.1 ∈ existing.filter (p.selects P) := hpairs ▸ List.mem_map_of_mem hx
          exact ⟨p, hp, AssertionParameters.rp_of_selects (List.mem_filter.mp hsel).2, rfl⟩
      | cons first rest =>
          simp only [wp_bind, wp_modify, wp_pure]
          by_cases hr : rest.isEmpty
          · rw [if_pos hr]
            exact .signed hp hc (by simpa using hflight) hpairs hsigns hreplies hcalls
              (by simp [hr, hn])
          · rw [if_neg hr]
            exact .signed hp hc (by simpa using hflight) hpairs hsigns hreplies hcalls
              (by simp [hr])
    · rintro _ s₁ ⟨hn, new, hcalls, hnew⟩
      refine ⟨hn, new, hcalls, fun call hcall => ?_⟩
      obtain ⟨hsel, hdata⟩ := hnew call hcall
      exact ⟨p, hp, AssertionParameters.rp_of_selects (List.mem_filter.mp hsel).2, hdata⟩

/-- **What GetNextAssertion does**: it takes the first of the queued replies, on the channel of
the batch and before its deadline, or drops the batch. -/
theorem nextAssertion_wp (s : FIDO2Authenticator ω) :
    wp (nextAssertion channel now)
      (fun v s' => ∃ deadline rest, s.next = some ⟨channel, deadline, v :: rest⟩ ∧ now < deadline ∧
        s' = { s with next := if rest.isEmpty then none else some ⟨channel, deadline, rest⟩ })
      (fun e s' => e = .status 0x30 ∧ s' = s.clear) s := by
  simp only [nextAssertion, wp_bind, wp_get]
  split
  · rename_i c deadline first rest hnext
    refine wp_ite ?_ fun _ => ⟨rfl, rfl⟩
    rintro ⟨rfl, hnow⟩
    exact ⟨deadline, rest, hnext, hnow, rfl⟩
  · exact ⟨rfl, rfl⟩

end FIDO2Authenticator

end Ashacky.Fido
