import Ashacky.Fido.Sizes

/-!
# Fido — GetNextAssertion

A GetAssertion that matches several credentials returns the first signed reply and queues the rest
for GetNextAssertion, on the same channel and for 30 seconds.

* `repliesFor_index`: the replies are those of the matches in order, and only the first of several
  carries their number.
* `fetch_queued`: GetNextAssertion returns the queued replies in order, and then 0x30.
* `process_next`: what a call does to the batch.
* `assertion_enumeration`: each match is returned exactly once; and along every run a successful
  GetNextAssertion returns a reply queued by a GetAssertion on its channel, less than 30 seconds
  before, with only successful GetNextAssertion calls on that channel in between.
-/

namespace Ashacky.Fido
open Ashacky.Support

variable {ω : Type} {P : Platform} {store : FIDOKeyStore ω}

/-! ### The replies to a request -/

theorem length_repliesFor (data : Data) (pairs : List (FIDOCredential × Data)) :
    (repliesFor data pairs).length = pairs.length := by
  cases pairs with
  | nil => rfl
  | cons x rest => simp [repliesFor]

theorem index_assertionReply_credential (data signature : Data) (c : FIDOCredential)
    (number : Option Nat) :
    (assertionReply data signature c number).index 1 = some (descriptorOf c) ∧
      (assertionReply data signature c number).index 5 =
        number.map fun n => .int (Int64.ofNat n) := by
  cases number <;> exact ⟨rfl, rfl⟩

/-- **The replies in order**: each names its credential, and the number of credentials stands in
the first of several and nowhere else. -/
theorem repliesFor_index {data : Data} {pairs : List (FIDOCredential × Data)} {i : Nat}
    {x : FIDOCredential × Data} (hx : pairs[i]? = some x) :
    ∃ v, (repliesFor data pairs)[i]? = some v ∧ v.index 1 = some (descriptorOf x.1) ∧
      v.index 5 = if i = 0 ∧ pairs.length > 1 then some (.int (Int64.ofNat pairs.length))
        else none := by
  cases pairs with
  | nil => cases hx
  | cons y rest =>
      cases i with
      | zero =>
          obtain rfl : y = x := Option.some.inj hx
          obtain ⟨h1, h5⟩ := index_assertionReply_credential data y.2 y.1
            (if rest.length + 1 > 1 then some (rest.length + 1) else none)
          refine ⟨_, rfl, h1, h5.trans ?_⟩
          by_cases hr : rest.length + 1 > 1 <;> simp [hr]
      | succ i =>
          have hx' : rest[i]? = some x := hx
          obtain ⟨h1, h5⟩ := index_assertionReply_credential data x.2 x.1 none
          refine ⟨assertionReply data x.2 x.1 none, ?_, h1, ?_⟩
          · simp [repliesFor, hx']
          · simpa using h5

/-- What `credentials()` and the signatures of a store are bounded by. -/
structure FIDOKeyStore.Bounded (store : FIDOKeyStore ω) : Prop where
  credentials : ∀ {w l w'}, store.credentials.run w = .ok l w' →
    l.length ≤ maximumCredentials ∧ ∀ c ∈ l, c.InBounds
  sign : ∀ {c d tx w signature w'}, (store.sign c d tx).run w = .ok signature w' →
    signature.length ≤ 72

/-- `SecureEnclaveFIDOStore` is bounded: it checks the records it reads. -/
theorem secureEnclaveFIDOStore_bounded (P : Platform) (J : Coder) {env : Environment}
    (hsig : ∀ t k d signature, env.signature t k d = some signature → signature.length ≤ 72) :
    (secureEnclaveFIDOStore P J env).Bounded := by
  constructor
  · intro w l w' h
    obtain ⟨hl, -⟩ := SecureEnclaveFIDOStore.credentials_eq_ok.mp h
    cases he : w.entry with
    | absent =>
        rw [he] at hl
        cases hl
        exact ⟨by decide, by simp⟩
    | unopenable =>
        rw [he] at hl
        cases hl
    | file f =>
        rw [he, records] at hl
        split at hl
        · split at hl
          · cases hl
          · split at hl
            · rename_i hacc
              cases hl
              exact ⟨hacc.1, hacc.2.2⟩
            · cases hl
        · cases hl
  · intro c d tx w signature w' h
    have hw : wp (SecureEnclaveFIDOStore.sign env c d tx)
        (fun signature _ => signature.length ≤ 72) (fun _ _ => True) w := by
      simp only [SecureEnclaveFIDOStore.sign, wp_bind, wp_get]
      refine wp_intro (fun _ w₁ _ => ?_) fun _ _ _ => trivial
      split
      · trivial
      · refine wp_ite (fun _ => ?_) fun _ => trivial
        simp only [wp_tryCatch, wp_bind, wp_throw]
        have hcatch : ∀ w', wp tx.check (fun _ _ => True) (fun _ _ => True) w' := fun w' =>
          wp_intro (fun _ _ _ => trivial) fun _ _ _ => trivial
        split
        · rename_i signature hs
          simp only [wp_bind, wp_pure]
          exact wp_intro (fun _ _ _ => hsig _ _ _ _ hs) fun _ w' _ => hcatch w'
        · exact hcatch _
    exact hw.ok h

/-! ### What a call does to the batch -/

namespace FIDO2Authenticator

variable {message body : Data} {channel : String} {tx : FIDOTransaction ω} {now : Nat}
  {s s' : FIDO2Authenticator ω} {r : Data}

/-- The status of a failed check is not that of a success. -/
theorem check_wp_status (w : ω) :
    wp tx.check (fun _ _ => True) (fun e _ => status e ≠ 0) w := by
  simp only [FIDOTransaction.check, wp_bind, wp_modifyGet]
  refine wp_ite (fun _ => (by decide : (0x2d : UInt8) ≠ 0)) fun _ => ?_
  rw [wp_bind, wp_modifyGet]
  exact wp_ite (fun _ => trivial) fun _ => (by decide : (0x27 : UInt8) ≠ 0)

/-- **A GetNextAssertion call** takes the first of the queued replies, or ends with an error
status. -/
theorem respond_next_wp (s : FIDO2Authenticator ω) :
    wp (respond P store (0x08 :: body) channel tx now)
      (fun r s' => ∃ deadline v rest, body = [] ∧ s.next = some ⟨channel, deadline, v :: rest⟩ ∧
        now < deadline ∧ r = 0 :: v.encoded ∧
        s'.next = if rest.isEmpty then none else some ⟨channel, deadline, rest⟩)
      (fun e _ => status e ≠ 0) s := by
  simp only [respond.eq_def, wp_bind, wp_onWorld]
  refine wp_mono (check_wp_status _) (fun _ w _ => ?_) fun _ _ h => h
  refine wp_ite (fun _ => ?_) fun _ => (by decide : (0x03 : UInt8) ≠ 0)
  simp only [wp_bind, wp_modify, wp_onWorld]
  rw [begun_eq, perform, if_neg (by decide), if_neg (by decide), if_pos rfl]
  refine wp_ite (fun hbody => ?_) fun _ => (by decide : (0x03 : UInt8) ≠ 0)
  refine wp_mono (nextAssertion_wp _) ?_ ?_
  · rintro v _ ⟨deadline, rest, hn, hnow, rfl⟩
    refine wp_mono (check_wp_status _) (fun _ w' _ => ?_) fun _ _ h => h
    exact wp_ite (fun _ => ⟨deadline, v, rest, hbody, hn, hnow, rfl, rfl⟩)
      fun _ => (by decide : (0x15 : UInt8) ≠ 0)
  · rintro _ _ ⟨rfl, -⟩
    exact (by decide : (0x30 : UInt8) ≠ 0)

/-- A successful GetNextAssertion. -/
theorem process_next_success {d : Data}
    (h : s.process P store (0x08 :: body) channel tx now = (0 :: d, s')) :
    ∃ deadline v rest, body = [] ∧ s.next = some ⟨channel, deadline, v :: rest⟩ ∧
      now < deadline ∧ d = v.encoded ∧
      s'.next = if rest.isEmpty then none else some ⟨channel, deadline, rest⟩ := by
  rcases process_cases h with hr | ⟨e, s₁, hr, he, -⟩
  · obtain ⟨deadline, v, rest, hbody, hn, hnow, hd, hs'⟩ := (respond_next_wp s).ok hr
    exact ⟨deadline, v, rest, hbody, hn, hnow, (List.cons.inj hd).2, hs'⟩
  · exact absurd (List.cons.inj he).1.symm ((respond_next_wp s).error hr)

theorem make_next {request : CBOR} (s : FIDO2Authenticator ω) :
    wp (make P store request tx) (fun _ s' => s'.next = s.next) (fun _ _ => True) s := by
  simp only [make, wp_bind, wp_onWorld]
  refine wp_fromExcept (fun p _ => ?_) fun _ _ => trivial
  refine wp_intro (fun existing w _ => ?_) fun _ _ _ => trivial
  split
  · simp only [wp_bind, wp_signs, wp_throw]
    exact wp_intro (fun _ _ _ => trivial) fun _ _ _ => trivial
  · refine wp_ite (fun _ => ?_) fun _ => trivial
    simp only [makeNew, wp_bind, wp_onWorld, wp_signs, wp_pure]
    refine wp_fromExcept (fun _ _ => wp_fromExcept (fun _ _ => ?_) fun _ _ => trivial)
      fun _ _ => trivial
    refine wp_intro (fun _ _ _ => wp_fromExcept (fun _ _ => ?_) fun _ _ => trivial)
      fun _ _ _ => trivial
    refine wp_intro (fun _ _ _ => wp_intro (fun _ _ _ => ?_) fun _ _ _ => trivial)
      fun _ _ _ => trivial
    exact wp_intro (fun _ _ _ => rfl) fun _ _ _ => trivial

/-- **The batch after a call** was queued by it, a GetAssertion, or is what a successful
GetNextAssertion left of the batch before. -/
theorem process_next (h : s.process P store message channel tx now = (r, s')) {b : Batch}
    (hb : s'.next = some b) :
    (message.head? = some 0x02 ∧ b.channel = channel ∧ b.deadline = now + 30000) ∨
      ∃ v, message = [0x08] ∧ s.next = some ⟨channel, b.deadline, v :: b.responses⟩ ∧
        b.channel = channel ∧ now < b.deadline ∧ r = 0 :: v.encoded := by
  rcases process_cases h with hr | ⟨e, s₁, -, -, rfl⟩
  · obtain ⟨command, body, w₁, v, s₂, w₂, rfl, -, -, hperf, -, -, rfl, rfl⟩ := respond_eq_ok.mp hr
    by_cases h8 : command = 0x08
    · subst h8
      obtain ⟨deadline, v', rest, rfl, hn, hnow, hd, hs'⟩ := process_next_success h
      right
      rw [hs'] at hb
      split at hb
      · cases hb
      · cases hb
        exact ⟨v', rfl, hn, rfl, hnow, by rw [hd]⟩
    · -- every other command starts without a batch
      have hnone : (s.begun command w₁).next = none := by rw [begun, if_neg h8]
      have hw : wp (perform P store command body channel tx now)
          (fun _ s' => ∀ b, s'.next = some b →
            command = 0x02 ∧ b.channel = channel ∧ b.deadline = now + 30000)
          (fun _ _ => True) (s.begun command w₁) := by
        have hstays : ∀ s' : FIDO2Authenticator ω, s'.next = (s.begun command w₁).next →
            ∀ b, s'.next = some b →
              command = 0x02 ∧ b.channel = channel ∧ b.deadline = now + 30000 := by
          intro s' hs' b hb
          rw [hs', hnone] at hb
          cases hb
        rw [perform]
        refine wp_ite (fun _ => wp_ite (fun _ => hstays _ rfl) fun _ => trivial) fun _ => ?_
        refine wp_ite (fun h12 => ?_) fun _ => wp_ite (fun h => absurd h h8) fun _ => trivial
        rw [wp_bind]
        refine wp_fromExcept (fun request _ => ?_) fun _ _ => trivial
        refine wp_ite (fun _ => trivial) fun _ => wp_ite (fun _ => ?_) fun h1 => ?_
        · exact wp_mono (make_next _) (fun _ s' hs' => hstays s' hs') fun _ _ _ => trivial
        · refine wp_mono (assertion_wp _) ?_ fun _ _ _ => trivial
          intro v s' hv
          cases hv with
          | preflight => exact hstays _ rfl
          | signed hp hc hflight hpairs hsigns hreplies hcalls hnext =>
              intro b hb
              rw [hnext, hnone] at hb
              split at hb
              · cases hb
              · cases hb
                exact ⟨h12.resolve_left h1, rfl, rfl⟩
      obtain ⟨rfl, hc, hd⟩ := hw.ok hperf b hb
      exact .inl ⟨rfl, hc, hd⟩
  · cases hb

/-! ### Fetching the batch -/

/-- The transaction passes the two checks of a call that does not use the store. -/
def Quiet (tx : FIDOTransaction ω) (w : ω) : Prop :=
  ∃ w₁ w₂, tx.check.run w = .ok () w₁ ∧ tx.check.run w₁ = .ok () w₂

theorem process_next_queued {deadline : Nat} {v : CBOR} {rest : List CBOR}
    (hs : s.next = some ⟨channel, deadline, v :: rest⟩) (hnow : now < deadline)
    (hq : Quiet tx s.world) (hfit : (0 :: v.encoded).length ≤ maximumMessage)
    (h : s.process P store [0x08] channel tx now = (r, s')) :
    r = 0 :: v.encoded ∧
      s'.next = if rest.isEmpty then none else some ⟨channel, deadline, rest⟩ := by
  obtain ⟨w₁, w₂, hw₁, hw₂⟩ := hq
  have hperf : (perform P store 0x08 [] channel tx now).run (s.begun 0x08 w₁) = .ok v
      { s.begun 0x08 w₁ with
        next := (if rest.isEmpty then none else some ⟨channel, deadline, rest⟩) } := by
    refine run_eq_ok_of_wp ?_
    rw [perform, if_neg (by decide), if_neg (by decide), if_pos rfl, if_pos rfl]
    have hb : (s.begun 0x08 w₁).next = some ⟨channel, deadline, v :: rest⟩ := hs
    simp only [nextAssertion, wp_bind, wp_get, hb]
    refine wp_ite (fun _ => ⟨rfl, rfl⟩) fun hn => absurd ⟨trivial, hnow⟩ hn
  have hok : (respond P store [0x08] channel tx now).run s = .ok (0 :: v.encoded)
      { s.begun 0x08 w₁ with
        world := w₂
        next := (if rest.isEmpty then none else some ⟨channel, deadline, rest⟩) } :=
    respond_eq_ok.mpr ⟨0x08, [], w₁, v, _, w₂, rfl, by decide, hw₁, hperf, hw₂, hfit, rfl, rfl⟩
  simp only [process, hok] at h
  cases h
  exact ⟨rfl, rfl⟩

theorem process_next_none (hs : s.next = none) (hq : Quiet tx s.world)
    (h : s.process P store [0x08] channel tx now = (r, s')) : r = [0x30] := by
  obtain ⟨w₁, w₂, hw₁, -⟩ := hq
  have hw : wp (respond P store [0x08] channel tx now) (fun _ _ => False)
      (fun e _ => status e = 0x30) s := by
    simp only [respond.eq_def, wp_bind, wp_onWorld]
    refine wp_of_run_eq_ok hw₁ (wp_ite (fun _ => ?_) fun hn => absurd (by decide) hn)
    simp only [wp_bind, wp_modify, wp_onWorld]
    rw [begun_eq, perform, if_neg (by decide), if_neg (by decide), if_pos rfl, if_pos rfl]
    refine wp_mono (nextAssertion_wp _) ?_ ?_
    · rintro v _ ⟨deadline, rest, hn, -, -⟩
      rw [begun, if_pos rfl, hs] at hn
      cases hn
    · rintro _ _ ⟨rfl, -⟩
      rfl
  rcases process_cases h with hr | ⟨e, s₁, hr, rfl, -⟩
  · exact (hw.ok hr).elim
  · rw [hw.error hr]

/-- GetNextAssertion calls on a channel and before a deadline, one after the other, with the
responses they return.  No transaction is found stopped. -/
inductive Fetches (P : Platform) (store : FIDOKeyStore ω) (channel : String) (deadline : Nat) :
    FIDO2Authenticator ω → List Data → FIDO2Authenticator ω → Prop where
  | nil (s : FIDO2Authenticator ω) : Fetches P store channel deadline s [] s
  | cons {s s₁ s' : FIDO2Authenticator ω} {tx : FIDOTransaction ω} {now : Nat} {r : Data}
      {responses : List Data} (hnow : now < deadline) (hq : Quiet tx s.world)
      (h : s.process P store [0x08] channel tx now = (r, s₁))
      (hrest : Fetches P store channel deadline s₁ responses s') :
      Fetches P store channel deadline s (r :: responses) s'

/-- **Fetching a batch** returns its replies in order, and what is left stays queued. -/
theorem fetch_queued {deadline : Nat} {responses : List Data}
    (h : Fetches P store channel deadline s responses s') {taken : List CBOR} (rest : List CBOR)
    (hs : s.next = if (taken ++ rest).isEmpty then none
      else some ⟨channel, deadline, taken ++ rest⟩)
    (hl : responses.length = taken.length)
    (hfit : ∀ v ∈ taken, (0 :: v.encoded).length ≤ maximumMessage) :
    responses = taken.map (fun v => 0 :: v.encoded) ∧
      s'.next = if rest.isEmpty then none else some ⟨channel, deadline, rest⟩ := by
  induction h generalizing taken with
  | nil s =>
      obtain rfl : taken = [] := List.length_eq_zero_iff.mp hl.symm
      exact ⟨rfl, hs⟩
  | cons hnow hq h hrest ih =>
      cases taken with
      | nil => simp at hl
      | cons v taken =>
          obtain ⟨rfl, hs₁⟩ := process_next_queued hs hnow hq (hfit v List.mem_cons_self) h
          obtain ⟨rfl, hs'⟩ := ih hs₁ (Nat.succ.inj hl) fun v hv =>
            hfit v (List.mem_cons_of_mem _ hv)
          exact ⟨rfl, hs'⟩

/-- **A successful GetAssertion on the signing path.** -/
theorem process_signed {d : Data} {request : CBOR} {p : AssertionParameters}
    (h : s.process P store (0x02 :: body) channel tx now = (0 :: d, s')) (hd : d ≠ [])
    (hreq : CBOR.decode body = .ok request) (hp : assertionParameters P request = .ok p)
    (hflight : p.preflight = false) :
    ∃ w₁ existing w₂ pairs v rest, tx.check.run s.world = .ok () w₁ ∧
      store.credentials.run w₁ = .ok existing w₂ ∧
      pairs.map Prod.fst = existing.filter (p.selects P) ∧
      (∀ x ∈ pairs, Signs store tx (authData P p.relyingParty p.flags ++ p.clientHash) x) ∧
      repliesFor (authData P p.relyingParty p.flags) pairs = v :: rest ∧ d = v.encoded ∧
      s'.next = if rest.isEmpty then none else some ⟨channel, now + 30000, rest⟩ := by
  rcases process_cases h with hr | ⟨e, s₁, -, he, -⟩
  · obtain ⟨command, body', w₁, v, s₂, w₂, hm, -, hw₁, hperf, -, -, hv, rfl⟩ :=
      respond_eq_ok.mp hr
    obtain ⟨rfl, rfl⟩ := List.cons.inj hm
    rw [perform, if_neg (by decide), if_pos (by decide)] at hperf
    obtain ⟨request', s₁, hof, hperf⟩ := run_bind_eq_ok.mp hperf
    obtain ⟨hdec, rfl⟩ := run_fromExcept_eq_ok.mp hof
    obtain rfl : request = request' := Except.ok.inj (hreq.symm.trans hdec)
    split at hperf
    · cases hperf
    · rw [if_neg (by decide)] at hperf
      have ha := (assertion_wp (s.begun 0x02 w₁)).ok hperf
      cases ha with
      | preflight hp' _ hflight' =>
          obtain rfl := Except.ok.inj (hp.symm.trans hp')
          rw [hflight] at hflight'
          cases hflight'
      | signed hp' hc _ hpairs hsigns hreplies _ hnext =>
          obtain rfl := Except.ok.inj (hp.symm.trans hp')
          exact ⟨w₁, _, _, _, v, _, hw₁, hc, hpairs, hsigns, hreplies, (List.cons.inj hv).2, hnext⟩
  · exact absurd (List.cons.inj he).2 hd

end FIDO2Authenticator

theorem repliesFor_fit (hb : store.Bounded) {tx : FIDOTransaction ω} {p : AssertionParameters}
    {w w' : ω} {existing : List FIDOCredential} {pairs : List (FIDOCredential × Data)}
    (hc : store.credentials.run w = .ok existing w')
    (hpairs : pairs.map Prod.fst = existing.filter (p.selects P))
    (hsigns : ∀ x ∈ pairs,
      Signs store tx (authData P p.relyingParty p.flags ++ p.clientHash) x) :
    ∀ v ∈ repliesFor (authData P p.relyingParty p.flags) pairs,
      (0 :: v.encoded).length ≤ maximumMessage := by
  obtain ⟨hl, hin⟩ := hb.credentials hc
  have hlen : pairs.length ≤ 256 := by
    rw [← List.length_map, hpairs]
    exact (List.length_filter_le _ _).trans hl
  have hfit : ∀ x ∈ pairs, ∀ number : Option Nat, (∀ n, number = some n → n ≤ 256) →
      (0 :: (assertionReply (authData P p.relyingParty p.flags) x.2 x.1 number).encoded).length ≤
        maximumMessage := by
    intro x hx number hn
    have hmem : x.1 ∈ existing.filter (p.selects P) := hpairs ▸ List.mem_map_of_mem hx
    obtain ⟨w, w', hsig⟩ := hsigns x hx
    exact assertionReply_fits (length_authData P _ _) (hb.sign hsig)
      (hin _ (List.mem_filter.mp hmem).1) hn
  intro v hv
  cases pairs with
  | nil => cases hv
  | cons x rest =>
      rcases List.mem_cons.mp hv with rfl | hv
      · refine hfit x List.mem_cons_self _ fun n hn => ?_
        split at hn
        · cases hn
          exact hlen
        · cases hn
      · obtain ⟨y, hy, rfl⟩ := List.mem_map.mp hv
        exact hfit y (List.mem_cons_of_mem _ hy) none fun n hn => by cases hn

/-! ### Runs -/

/-- A successful GetNextAssertion on the channel and before the deadline. -/
def Fetched (channel : String) (deadline : Nat) (x : Event ω × Outcome) : Prop :=
  ∃ tx now d calls, x = (.process [0x08] channel tx now, ⟨some (0 :: d), calls⟩) ∧ now < deadline

/-- The trace from `s` ends with a GetAssertion on the channel, which queues `queued`, and `n`
successful GetNextAssertion calls on that channel and before the deadline. -/
def QueuedBy (P : Platform) (store : FIDOKeyStore ω) (s : FIDO2Authenticator ω)
    (t : List (Event ω × Outcome)) (channel : String) (deadline : Nat) (queued : List CBOR)
    (n : Nat) : Prop :=
  ∃ t₀ message tx now o fetched m m',
    t = t₀ ++ (.process message channel tx now, o) :: fetched ∧
      message.head? = some 0x02 ∧ deadline = now + 30000 ∧
      Steps (FIDO2Authenticator.Step P store) s t₀ m ∧
      m.Step P store (.process message channel tx now) o m' ∧
      m'.next = some ⟨channel, deadline, queued⟩ ∧
      fetched.length = n ∧ ∀ x ∈ fetched, Fetched channel deadline x

/-- What is queued comes from the GetAssertion that the trace ends with. -/
def QueuedAfter (P : Platform) (store : FIDOKeyStore ω) (s₀ s : FIDO2Authenticator ω)
    (t : List (Event ω × Outcome)) : Prop :=
  Steps (FIDO2Authenticator.Step P store) s₀ t s ∧ ∀ b, s.next = some b →
    ∃ queued n, QueuedBy P store s₀ t b.channel b.deadline queued n ∧
      b.responses = queued.drop n

theorem step_queued {s₀ s s' : FIDO2Authenticator ω} {t : List (Event ω × Outcome)} {e : Event ω}
    {o : Outcome} (hs : QueuedAfter P store s₀ s t) (h : s.Step P store e o s') :
    QueuedAfter P store s₀ s' (t ++ [(e, o)]) := by
  obtain ⟨hrun, hq⟩ := hs
  refine ⟨hrun.append (.one h), fun b hb => ?_⟩
  cases e with
  | clear =>
      obtain ⟨-, rfl⟩ := Prod.mk.inj h.1
      cases hb
  | process message channel tx now =>
      obtain ⟨r, hr, hp, -⟩ := h.process_eq
      obtain ⟨response, calls⟩ := o
      obtain rfl : response = some r := hr
      obtain ⟨bc, bd, br⟩ := b
      rcases FIDO2Authenticator.process_next hp hb with ⟨h2, hc, hd⟩ | ⟨v, rfl, hn, hc, hnow, rfl⟩
      · obtain rfl : bc = channel := hc
        obtain rfl : bd = now + 30000 := hd
        exact ⟨br, 0, ⟨t, message, tx, now, _, [], s, s', rfl, h2, rfl, hrun, h, hb, rfl, by simp⟩,
          rfl⟩
      · obtain rfl : bc = channel := hc
        obtain ⟨queued, n, hby, hdrop⟩ := hq _ hn
        obtain ⟨t₀, message, tx', now', o', fetched, m, m', rfl, h2, hd, ht₀, hm, hm', rfl, hf⟩ := hby
        refine ⟨queued, fetched.length + 1, ⟨t₀, message, tx', now', o', fetched ++ [_], m, m',
          List.append_assoc _ _ _, h2, hd, ht₀, hm, hm', List.length_append, ?_⟩, ?_⟩
        · rintro x hx
          rcases List.mem_append.mp hx with hx | hx
          · exact hf x hx
          · obtain rfl := List.mem_singleton.mp hx
            exact ⟨tx, now, _, calls, rfl, hnow⟩
        · change br = queued.drop (fetched.length + 1)
          rw [← List.tail_drop, ← hdrop]
          rfl

/-- One reply for each match, in order; only the first of several carries their number. -/
def Enumerates (found : List FIDOCredential) (replies : List CBOR) : Prop :=
  replies.length = found.length ∧ ∀ i c, found[i]? = some c →
    ∃ v, replies[i]? = some v ∧ v.index 1 = some (descriptorOf c) ∧
      v.index 5 = if i = 0 ∧ found.length > 1 then some (.int (Int64.ofNat found.length)) else none

theorem repliesFor_enumerates (data : Data) {pairs : List (FIDOCredential × Data)}
    {found : List FIDOCredential} (h : pairs.map Prod.fst = found) :
    Enumerates found (repliesFor data pairs) := by
  subst h
  rw [Enumerates, List.length_map]
  refine ⟨length_repliesFor data pairs, fun i c hc => ?_⟩
  rw [List.getElem?_map] at hc
  obtain ⟨x, hx, rfl⟩ := Option.map_eq_some_iff.mp hc
  exact repliesFor_index hx

open FIDO2Authenticator in
/-- **GetNextAssertion enumerates each match exactly once.**  The store of the repository is
bounded.  With a bounded store, a successful GetAssertion on the signing path and one
GetNextAssertion less than there are matches, on the same channel and before the deadline, return
one reply for each match, in the order of the store; the next call is refused.  And along every run
a successful GetNextAssertion returns the next reply of the batch queued by a GetAssertion on its
channel, before the deadline, with nothing but successful GetNextAssertion calls on that channel in
between. -/
theorem assertion_enumeration (P : Platform) (store : FIDOKeyStore ω) :
    (∀ J env, (∀ t k d signature, env.signature t k d = some signature → signature.length ≤ 72) →
      (secureEnclaveFIDOStore P J env).Bounded) ∧
    (store.Bounded → ∀ {s m : FIDO2Authenticator ω} {body d : Data} {channel : String}
        {tx : FIDOTransaction ω} {now : Nat} {request : CBOR} {p : AssertionParameters},
      s.process P store (0x02 :: body) channel tx now = (0 :: d, m) → d ≠ [] →
      CBOR.decode body = .ok request → assertionParameters P request = .ok p →
      p.preflight = false →
      ∃ w₁ existing w₂ replies, tx.check.run s.world = .ok () w₁ ∧
        store.credentials.run w₁ = .ok existing w₂ ∧
        Enumerates (existing.filter (p.selects P)) replies ∧ replies ≠ [] ∧
        ∀ {responses m'}, Fetches P store channel (now + 30000) m responses m' →
          responses.length = (existing.filter (p.selects P)).length - 1 →
          (0 :: d) :: responses = replies.map (fun v => 0 :: v.encoded) ∧
          ∀ channel' tx' now', Quiet tx' m'.world →
            (m'.process P store [0x08] channel' tx' now').1 = [0x30]) ∧
    ∀ {s s' : FIDO2Authenticator ω} {t t₁ t₂ : List (Event ω × Outcome)} {body d : Data}
        {channel : String} {tx : FIDOTransaction ω} {now : Nat} {calls : List SignCall},
      s.next = none → Steps (Step P store) s t s' →
      t = t₁ ++ (.process (0x08 :: body) channel tx now, ⟨some (0 :: d), calls⟩) :: t₂ →
      ∃ deadline queued n v, QueuedBy P store s t₁ channel deadline queued n ∧ now < deadline ∧
        queued[n]? = some v ∧ d = v.encoded := by
  refine ⟨fun J env hsig => secureEnclaveFIDOStore_bounded P J hsig, ?_, ?_⟩
  · intro hb s m body d channel tx now request p h hd hreq hp hflight
    obtain ⟨w₁, existing, w₂, pairs, v, rest, hw₁, hc, hpairs, hsigns, hreplies, rfl, hm⟩ :=
      process_signed h hd hreq hp hflight
    have henum := repliesFor_enumerates (authData P p.relyingParty p.flags) hpairs
    have hfit := repliesFor_fit hb hc hpairs hsigns
    rw [hreplies] at henum hfit
    refine ⟨w₁, existing, w₂, v :: rest, hw₁, hc, henum, by simp, ?_⟩
    intro responses m' hf hl
    rw [← henum.1, List.length_cons, Nat.add_sub_cancel] at hl
    obtain ⟨rfl, hm'⟩ := fetch_queued hf [] (by rw [List.append_nil]; exact hm) hl
      fun v hv => hfit v (List.mem_cons_of_mem _ hv)
    exact ⟨rfl, fun channel' tx' now' hq => process_next_none hm' hq rfl⟩
  · rintro s s' t t₁ t₂ body d channel tx now calls hs h rfl
    obtain ⟨m, m', hm, hstep, -⟩ := h.split_at
    obtain ⟨r, hr, hp, -⟩ := hstep.process_eq
    obtain rfl : 0 :: d = r := Option.some.inj hr
    -- the batch this call finds was queued along the trace before it
    have hinv : QueuedAfter P store s m ([] ++ t₁) :=
      Steps.invariant_trace (I := QueuedAfter P store s) (fun hI hstep => step_queued hI hstep) hm
        ⟨.refl s, fun b hb => by rw [hs] at hb; cases hb⟩
    obtain ⟨deadline, v, rest, rfl, hn, hnow, rfl, -⟩ := process_next_success hp
    obtain ⟨queued, n, hby, hdrop⟩ := hinv.2 _ hn
    refine ⟨deadline, queued, n, v, hby, hnow, ?_, rfl⟩
    rw [← List.head?_drop, ← hdrop]
    rfl

/-- Two credentials, fetched one after the other within 30 seconds. -/
theorem assertion_enumeration_two :
    let found := [Sample.credential 1 2, Sample.credential 2 3]
    let call := fun message now (s : FIDO2Authenticator Unit) =>
      s.process Sample.platform (Sample.store found) message "0000000a" Sample.transaction now
    let first := call (0x02 :: Sample.getAssertion []) 0 ⟨(), none, []⟩
    let second := call [0x08] 29999 first.2
    (∃ replies, Enumerates found replies ∧
      [first.1, second.1] = replies.map fun v => 0 :: v.encoded) ∧
      (call [0x08] 29999 second.2).1 = [0x30] := by
  intro found call first second
  have hbounded : (Sample.store found).Bounded := by
    constructor
    · intro w l w' h
      cases h
      decide +kernel
    · intro c d tx w signature w' h
      cases h
      decide
  have hquiet : ∀ w : Unit, FIDO2Authenticator.Quiet Sample.transaction w := fun _ =>
    ⟨(), (), rfl, rfl⟩
  have hfirst : first.1 = 0 :: first.1.tail ∧ first.1.tail ≠ [] := by decide +kernel
  have hbody : (CBOR.decode (Sample.getAssertion [])).toOption.any (fun request =>
      (assertionParameters Sample.platform request).toOption.any fun p =>
        decide (p.preflight = false ∧ found.filter (p.selects Sample.platform) = found)) = true := by
    decide +kernel
  -- the two calls are run no further than this
  have h₁ : call (0x02 :: Sample.getAssertion []) 0 ⟨(), none, []⟩ = first := rfl
  have h₂ : call [0x08] 29999 first.2 = second := rfl
  clear_value second first
  cases hd : CBOR.decode (Sample.getAssertion []) with
  | error e =>
      rw [hd] at hbody
      cases hbody
  | ok request =>
      rw [hd] at hbody
      change (assertionParameters Sample.platform request).toOption.any _ = true at hbody
      cases hp : assertionParameters Sample.platform request with
      | error e =>
          rw [hp] at hbody
          cases hbody
      | ok p =>
          rw [hp] at hbody
          obtain ⟨hflight, hfound⟩ := of_decide_eq_true hbody
          obtain ⟨_, _, _, replies, -, ⟨⟩, henum, -, hfetch⟩ :=
            (assertion_enumeration Sample.platform (Sample.store found)).2.1 hbounded
              (h₁.trans (Prod.ext hfirst.1 rfl)) hfirst.2 hd hp hflight
          rw [hfound] at henum hfetch
          obtain ⟨hall, hlast⟩ := hfetch
            (.cons (by decide) (hquiet _) h₂ (.nil second.2)) rfl
          rw [← hfirst.1] at hall
          exact ⟨⟨replies, henum, hall⟩, hlast _ _ _ (hquiet _)⟩

end Ashacky.Fido
