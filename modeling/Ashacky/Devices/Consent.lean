import Ashacky.Devices.Operations

/-!
# Devices — consent to a pairing

A numeric comparison is confirmed to the host's Bluetooth stack only for the user.  `answers_asked`:
whenever the service tells an attempt that its number is accepted, or refused, a request said so for
this operation, after the attempt had asked, and the attempt had no other answer in between; and the
operation is the one whose request had the attempt started, for a device at the requested address.

`Turn` says what an event does to the attempt under way and to the number that is shown for it.
-/

namespace Ashacky.Devices.BluetoothService
open Ashacky.Support
open Ashacky.Control (Json Object)

/-- The number that is shown for confirmation. -/
def Host.shown (h : Host) : Option Nat := h.operation.bind (·.confirmation)

/-- The answers to attempts. -/
def confirms (o : List Effect) : List (Nat × Bool) :=
  o.filterMap fun
    | .confirm attempt accepted => some (attempt, accepted)
    | _ => none

@[simp] theorem confirms_append (o p : List Effect) : confirms (o ++ p) = confirms o ++ confirms p :=
  List.filterMap_append

/-- A request to pair with the device at an address is accepted as `id`, and the attempt starts. -/
def Begins (e : Event) (o : List Effect) (id : String) (attempt : Attempt) : Prop :=
  ∃ value n address, e.call = .request value ∧ Object.text value "action" = some "bluetooth-pair" ∧
    Object.text value "address" = some address ∧
    (e.world.device attempt.device).address.map Host.normalized = some (Host.normalized address) ∧
    o = [.reply n (Host.accepted id), .start attempt]

/-- A request answers for the operation `id`. -/
def Answers (e : Event) (id : String) (accepted : Bool) : Prop :=
  ∃ value, e.call = .request value ∧ Object.text value "action" = some "bluetooth-confirm" ∧
    Object.text value "operationID" = some id ∧ value.lookup "accepted" = some (.bool accepted)

/-- What an event does to the attempt and to the number that is shown. -/
inductive Turn (h : Host) (e : Event) (o : List Effect) (h' : Host) : Prop where
  | kept (pairing : h'.pairing = h.pairing) (id : h'.pairingOperationID = h.pairingOperationID)
      (shown : h'.shown = h.shown) (silent : confirms o = [])
  | gone (pairing : h'.pairing = none) (silent : confirms o = [])
  | began {id : String} {attempt : Attempt} (begins : Begins e o id attempt)
      (pairing : h'.pairing = some attempt) (id' : h'.pairingOperationID = some id)
      (shown : h'.shown = none)
  | asked {attempt : Attempt} {n : Nat} (call : e.call = .confirmationRequest attempt.number n)
      (pairing : h.pairing = some attempt) (pairing' : h'.pairing = h.pairing)
      (id : h'.pairingOperationID = h.pairingOperationID) (silent : confirms o = [])
  | answered {id : String} {attempt : Attempt} {n : Nat} {accepted : Bool}
      (answers : Answers e id accepted) (pairing : h.pairing = some attempt)
      (id₀ : h.pairingOperationID = some id) (shown : h.shown = some n)
      (pairing' : h'.pairing = h.pairing) (id' : h'.pairingOperationID = h.pairingOperationID)
      (shown' : h'.shown = none) (confirmed : confirms o = [(attempt.number, accepted)])

/-! ### What keeps the attempt -/

/-- The attempt, its operation and the number shown are the same. -/
structure Same (h h' : Host) : Prop where
  pairing : h'.pairing = h.pairing
  id : h'.pairingOperationID = h.pairingOperationID
  shown : h'.shown = h.shown

section Same
variable {h h' h'' : Host} {S : Surroundings}

theorem Same.refl (h : Host) : Same h h := ⟨rfl, rfl, rfl⟩

/-- Steps that leave the attempts alone compose. -/
theorem Same.trans (s : Same h h') (s' : Same h' h'') : Same h h'' :=
  ⟨s'.pairing.trans s.pairing, s'.id.trans s.id, s'.shown.trans s.shown⟩

/-- A step that leaves the attempts alone and delivers no answer is an allowed turn. -/
theorem Same.turn {e : Event} {o : List Effect} (s : Same h h') (silent : confirms o = []) :
    Turn h e o h' := .kept s.pairing s.id s.shown silent

/-- Invalidating the snapshot leaves the attempts alone. -/
theorem Same.invalidate (s : Same h h') : Same h h'.invalidate := by
  rw [Host.invalidate]
  split <;> exact ⟨s.pairing, s.id, s.shown⟩

/-- Opening the manager leaves the attempts alone. -/
theorem same_prepareCentral (permission : Bool) : Same h (h.prepareCentral S permission) := by
  rw [Host.prepareCentral]
  split <;> exact ⟨rfl, rfl, rfl⟩

/-- Watching the connections leaves the attempts alone. -/
theorem same_observeConnections : Same h (h.observeConnections S) := by
  rw [Host.observeConnections]
  split <;> exact ⟨rfl, rfl, rfl⟩

/-- Finishing an operation leaves the attempts alone. -/
theorem same_finish : Same h (h.finish S).2 := by
  rw [Host.finish]
  split
  · have s : Same h (h.scanned S) := Same.invalidate ⟨rfl, rfl, rfl⟩
    dsimp only
    split
    · exact s
    · exact s.trans ⟨rfl, rfl, rfl⟩
  · exact .refl h

/-- Beginning the waiting operation leaves the attempts alone. -/
theorem same_beginIfReady : Same h (h.beginIfReady S).2 := by
  rw [Host.beginIfReady]
  split
  · have s : Same h
        { h with requested := false, scanning := true, lowEnergy := [], classicCount := 0 : Host }.invalidate :=
      Same.invalidate ⟨rfl, rfl, rfl⟩
    exact s.trans ⟨rfl, rfl, rfl⟩
  · exact .refl h

/-- Finishing an operation delivers no answer to an attempt. -/
theorem finish_confirms : confirms (h.finish S).1 = [] := by
  rw [Host.finish]
  split
  · dsimp only
    split <;> rfl
  · rfl

/-- Beginning the waiting operation delivers no answer to an attempt. -/
theorem beginIfReady_confirms : confirms (h.beginIfReady S).1 = [] := by
  rw [Host.beginIfReady]
  split <;> rfl

end Same

/-! ### One turn for each event -/

section Turns
variable {h : Host} {a : Activity} {S : Surroundings}

/-- Ending the pair operation leaves the record of the attempt as it is. -/
theorem finishPairOperation_pairing (device : Nat) (result : Int) :
    (h.finishPairOperation S device result).pairing = h.pairing := by
  rw [Host.finishPairOperation]
  split
  · rfl
  · exact (Same.invalidate ⟨rfl, rfl, rfl⟩ : Same { h with pairingOperationID := none, operation := _ } _).pairing

/-- A confirmation answers only the attempt that is asked, under the id it names. -/
theorem confirmation_turn {e : Event} {value : Object}
    (he : e.call = .request value) (haction : Object.text value "action" = some "bluetooth-confirm")
    (n : Nat) : Turn h e (h.confirmation n value).1 (h.confirmation n value).2 := by
  rw [Host.confirmation]
  split
  · exact (Same.refl h).turn rfl
  split
  · rename_i id accepted attempt hid haccepted hpairing
    split
    · rename_i hmine
      obtain ⟨number, hnumber⟩ := Option.isSome_iff_exists.mp hmine.2
      have s : Same { h with operation := h.operation.map fun o => { o with confirmation := none } }
          { h with operation := h.operation.map fun o => { o with confirmation := none } : Host }.invalidate :=
        (Same.refl _).invalidate
      refine .answered ⟨value, he, haction, hid, haccepted⟩ hpairing hmine.1.symm hnumber s.pairing
        s.id (s.shown.trans ?_) rfl
      simp only [Host.shown]
      cases h.operation <;> rfl
    · exact (Same.refl h).turn rfl
  · exact (Same.refl h).turn rfl
  · exact (Same.refl h).turn rfl

/-- A pair request starts a new attempt at most, and answers none. -/
theorem pair_turn (R : Represents h a) {value : Object}
    (haction : Object.text value "action" = some "bluetooth-pair") (n : Nat) :
    Turn h ⟨S, .request value⟩ (h.pair S n value).1 (h.pair S n value).2 := by
  rw [Host.pair]
  split
  · exact (Same.refl h).turn rfl
  rename_i address haddress
  split
  · exact (Same.refl h).turn rfl
  rename_i hidle
  obtain ⟨rfl, -⟩ := R.idle (S := S) (by simpa using hidle)
  split
  · exact (Same.refl h).turn rfl
  rename_i device hdevice
  have s : Same
      { h with
        operation := some (.pending S.uuid)
        pairingOperationID := some S.uuid
        issued := S.uuid :: h.issued }
      { h with
        operation := some (.pending S.uuid)
        pairingOperationID := some S.uuid
        issued := S.uuid :: h.issued : Host }.invalidate := (Same.refl _).invalidate
  dsimp only
  generalize Host.invalidate { h with
    operation := some (Operation.pending S.uuid)
    pairingOperationID := some S.uuid
    issued := S.uuid :: h.issued } = g at s ⊢
  have hnone : g.pairing = none := s.pairing.trans R.pairing
  split
  · exact .gone ((finishPairOperation_pairing device 0).trans hnone) rfl
  rw [Host.startPair]
  split
  · exact .gone (finishPairOperation_pairing device kIOReturnError) rfl
  rename_i result _
  dsimp only
  split
  · exact .gone (finishPairOperation_pairing device result) rfl
  · have hb : Begins ⟨S, .request value⟩ [.reply n (Host.accepted S.uuid), .start ⟨g.attempts, device⟩]
        S.uuid ⟨g.attempts, device⟩ :=
      ⟨value, n, address, rfl, haction, target_spec haddress, resolve_spec hdevice, rfl⟩
    exact .began hb rfl s.id s.shown

/-- A request that begins no pairing keeps the attempt, or there was none. -/
theorem connection_turn (R : Represents h a) {e : Event} (n : Nat) (value : Object) (connect : Bool) :
    Turn h e (h.connection S n value connect).1 (h.connection S n value connect).2 := by
  rw [Host.connection]
  split
  · exact (Same.refl h).turn rfl
  split
  · exact (Same.refl h).turn rfl
  rename_i hidle
  obtain ⟨rfl, -⟩ := R.idle (S := S) (by simpa using hidle)
  split
  · exact (Same.refl h).turn rfl
  · have s : Same
        { h with
          operation := some (.pending S.uuid)
          connectionBusy := true
          issued := S.uuid :: h.issued }
        { h with
          operation := some (.pending S.uuid)
          connectionBusy := true
          issued := S.uuid :: h.issued : Host }.invalidate := (Same.refl _).invalidate
    exact .gone (s.pairing.trans R.pairing) rfl

/-- Every action of the client is an allowed turn, whatever it names. -/
theorem perform_turn (R : Represents h a) {value : Object} {action : String}
    (haction : Object.text value "action" = some action) (n : Nat) :
    Turn h ⟨S, .request value⟩ (h.perform S n value action).1 (h.perform S n value action).2 := by
  rw [Host.perform]
  split
  · rename_i heq
    subst heq
    exact confirmation_turn rfl haction n
  split
  · rename_i heq
    subst heq
    exact pair_turn R haction n
  split
  · exact connection_turn R n value true
  split
  · exact connection_turn R n value false
  split
  · exact (Same.refl h).turn rfl
  split
  · rw [Host.listed]
    dsimp only
    split
    · exact (same_observeConnections (S := S)).invalidate.turn rfl
    · exact (same_observeConnections (S := S)).turn rfl
  split
  · exact (Same.refl h).turn rfl
  split
  · rw [Host.scan]
    split
    · exact (Same.refl h).turn rfl
    · have s : Same h { h with scanReply := some n, requested := true } := ⟨rfl, rfl, rfl⟩
      exact (s.trans (same_beginIfReady (S := S))).turn beginIfReady_confirms
  · exact (Same.refl h).turn rfl

/-- A turn of a state whose attempt and number are those of another. -/
theorem Turn.of_same {h h₁ h' : Host} {e : Event} {o : List Effect} (s : Same h h₁)
    (T : Turn h₁ e o h') : Turn h e o h' := by
  obtain ⟨s₁, s₂, s₃⟩ := s
  cases T with
  | kept p i n c => exact .kept (p.trans s₁) (i.trans s₂) (n.trans s₃) c
  | gone p c => exact .gone p c
  | began b p i n => exact .began b p i n
  | asked hc p p' i c => exact .asked hc (s₁.symm.trans p) (p'.trans s₁) (i.trans s₂) c
  | answered A p i n p' i' n' c =>
      exact .answered A (s₁.symm.trans p) (s₂.symm.trans i) (s₃.symm.trans n) (p'.trans s₁)
        (i'.trans s₂) n' c

/-- Every request of the client is an allowed turn. -/
theorem handle_turn (R : Represents h a) (n : Nat) (value : Object) :
    Turn h ⟨S, .request value⟩ (h.handle S n value).1 (h.handle S n value).2 := by
  rw [Host.handle]
  split
  · exact (Same.refl h).turn rfl
  split
  · exact (Same.refl h).turn rfl
  dsimp only
  refine .of_same (same_prepareCentral (S := S) false) ?_
  split
  · exact (Same.refl _).turn rfl
  split
  · exact (Same.refl _).turn rfl
  · rename_i haction
    exact perform_turn (R.prepareCentral false) haction n

/-- Every queued block, a delegate's question included, is an allowed turn when it runs. -/
theorem run_turn (R : Represents h a) {i : Nat} {b : Block} (hb : h.blocks[i]? = some b) {e : Event} :
    Turn h e ({ h with blocks := h.blocks.eraseIdx i : Host }.run S b).1
      ({ h with blocks := h.blocks.eraseIdx i : Host }.run S b).2 := by
  have s : Same h { h with blocks := h.blocks.eraseIdx i } := ⟨rfl, rfl, rfl⟩
  cases b with
  | change work =>
      rw [Host.run, Host.change]
      split
      · exact s.turn rfl
      · have s' : Same h { h with blocks := h.blocks.eraseIdx i, pendingChange := none } :=
          ⟨rfl, rfl, rfl⟩
        have s₁ := s'.trans (same_observeConnections (S := S))
        exact .kept s₁.pairing s₁.id s₁.shown rfl
  | scan generation =>
      rw [Host.run]
      split
      · exact (s.trans (same_finish (S := S))).turn finish_confirms
      · exact s.turn rfl
  | pair attempt =>
      rw [Host.run, Host.pairTimeout]
      split
      · exact .gone (finishPairOperation_pairing _ _) rfl
      · exact s.turn rfl
  | connected job result =>
      obtain ⟨job', rfl⟩ := R.connecting hb
      obtain ⟨rfl, R', -⟩ := R.connectionEnded (S := S) hb
      exact .gone R'.pairing rfl

/-- **One turn for each event.** -/
theorem step_turn (R : Represents h a) {e : Event} {o : List Effect} {h' : Host}
    (hstep : h.Step e o h') : Turn h e o h' := by
  obtain ⟨S, c⟩ := e
  cases c with
  | request value =>
      simp only [Host.Step, Host.step] at hstep
      split at hstep
      · cases hstep
      · have R₁ : Represents { h with requests := h.requests + 1 } a := { R with }
        have T := handle_turn R₁ (S := S) h.requests value
        rw [Option.some.inj hstep] at T
        have s : Same h { h with requests := h.requests + 1 } := ⟨rfl, rfl, rfl⟩
        exact .of_same s T
  | prepareCentral permission =>
      cases hstep
      exact (same_prepareCentral permission).turn rfl
  | didUpdateState =>
      simp only [Host.Step, Host.step] at hstep
      split at hstep
      · obtain ⟨rfl, rfl⟩ := Prod.mk.inj (Option.some.inj hstep)
        have s := (Same.refl h).invalidate
        split
        · refine ((s.trans (same_finish (S := S))).trans (same_beginIfReady (S := S))).turn ?_
          rw [confirms_append, confirms_append, finish_confirms, beginIfReady_confirms]
          rfl
        · refine (s.trans (same_beginIfReady (S := S))).turn ?_
          rw [confirms_append, beginIfReady_confirms]
          rfl
      · cases hstep
  | didDiscover identifier =>
      cases hstep
      split <;> exact Same.turn ⟨rfl, rfl, rfl⟩ rfl
  | inquiryDeviceFound inquiry count =>
      cases hstep
      split <;> exact Same.turn ⟨rfl, rfl, rfl⟩ rfl
  | inquiryComplete inquiry error =>
      simp only [Host.Step, Host.step, Host.inquiryComplete, Option.some.injEq] at hstep
      have s : Same h { h with classicResult := error } := ⟨rfl, rfl, rfl⟩
      split at hstep
      · split at hstep
        · have s' := s.trans (same_finish (S := S))
          have hc := finish_confirms (S := S) (h := { h with classicResult := error })
          rw [hstep] at s' hc
          exact s'.turn hc
        · cases hstep
          exact s.turn rfl
      · cases hstep
        exact (Same.refl h).turn rfl
  | confirmationRequest n value =>
      simp only [Host.Step, Host.step, Host.confirmationRequest, Option.some.injEq] at hstep
      split at hstep
      · cases hstep
        exact (Same.refl h).turn rfl
      · rename_i attempt hc
        have hp := Host.current_eq hc
        obtain ⟨id, rfl⟩ := R.attempt hp
        -- The current attempt has its operation, so that the number is shown and not refused.
        rw [if_neg (by rw [R.pairingOperationID]; rintro ⟨⟩)] at hstep
        cases hstep
        have s : Same
            { h with operation := h.operation.map fun o => { o with confirmation := some value } }
            { h with
              operation := h.operation.map fun o => { o with confirmation := some value } : Host }.invalidate :=
          (Same.refl _).invalidate
        obtain ⟨-, rfl⟩ := by simpa [Host.current, Option.filter_eq_some_iff] using hc
        exact .asked rfl hp s.pairing s.id rfl
  | passkeyNotification n passkey =>
      simp only [Host.Step, Host.step, Host.passkeyNotification, Option.some.injEq] at hstep
      split at hstep
      · cases hstep
        exact (Same.refl h).turn rfl
      · cases hstep
        refine Same.turn (Same.invalidate ⟨rfl, rfl, ?_⟩) rfl
        simp only [Host.shown]
        split
        · rfl
        · cases h.operation <;> rfl
  | pinCodeRequest n =>
      simp only [Host.Step, Host.step, Host.pinCodeRequest, Option.some.injEq] at hstep
      split at hstep
      · cases hstep
        exact (Same.refl h).turn rfl
      · cases hstep
        exact .gone (finishPairOperation_pairing _ _) rfl
  | pairingFinished n error =>
      simp only [Host.Step, Host.step, Host.pairingFinished, Option.some.injEq] at hstep
      split at hstep
      · cases hstep
        exact (Same.refl h).turn rfl
      · cases hstep
        exact .gone rfl rfl
  | deviceConnected | metadataChanged =>
      cases hstep
      exact (Same.refl h).invalidate.turn rfl
  | deviceDisconnected address notification =>
      cases hstep
      rw [Host.deviceDisconnected]
      split
      · exact (Same.refl h).turn rfl
      · refine Same.turn (Same.invalidate ?_) rfl
        exact ⟨rfl, rfl, rfl⟩
  | connectionReturns result =>
      simp only [Host.Step, Host.step] at hstep
      split at hstep
      · cases hstep
      · cases hstep
        exact Same.turn ⟨rfl, rfl, rfl⟩ rfl
  | block index =>
      simp only [Host.Step, Host.step, Option.map_eq_some_iff] at hstep
      obtain ⟨b, hb, hrun⟩ := hstep
      have T := run_turn R (S := S) hb (e := ⟨S, .block index⟩)
      rwa [hrun] at T
  | stop =>
      obtain ⟨rfl, rfl⟩ := Prod.mk.inj (Option.some.inj hstep)
      have s := same_finish (S := S) (h := h)
      refine .kept s.pairing s.id s.shown ?_
      rw [confirms_append, finish_confirms]
      cases (h.finish S).2.pairing <;> rfl

end Turns

/-! ### The run -/

abbrev Trace := List (Event × List Effect)

/-- The attempt was started by the request that has this operation. -/
def Began (id : String) (attempt : Attempt) (t : Trace) : Prop :=
  ∃ u e o v, t = u ++ (e, o) :: v ∧ Begins e o id attempt

/-- And then it asked, and was not answered since. -/
def Asked (id : String) (attempt : Attempt) (t : Trace) : Prop :=
  ∃ u e o v n, t = u ++ (e, o) :: v ∧ Began id attempt u ∧
    e.call = .confirmationRequest attempt.number n ∧
    ∀ x ∈ v, ∀ accepted, (attempt.number, accepted) ∉ confirms x.2

/-- An attempt that began stays begun as the trace grows. -/
theorem Began.snoc {id : String} {attempt : Attempt} {t : Trace} (h : Began id attempt t)
    (x : Event × List Effect) : Began id attempt (t ++ [x]) := by
  obtain ⟨u, e, o, v, rfl, hb⟩ := h
  exact ⟨u, e, o, v ++ [x], by simp, hb⟩

/-- A question stays the standing one through a step that delivers no answer. -/
theorem Asked.snoc {id : String} {attempt : Attempt} {t : Trace} (h : Asked id attempt t)
    {e : Event} {o : List Effect} (silent : confirms o = []) : Asked id attempt (t ++ [(e, o)]) := by
  obtain ⟨u, e', o', v, n, rfl, hb, hc, hv⟩ := h
  refine ⟨u, e', o', v ++ [(e, o)], n, by simp, hb, hc, ?_⟩
  intro x hx accepted
  obtain hx | hx := List.mem_append.mp hx
  · exact hv x hx accepted
  · cases List.mem_singleton.mp hx
    simp [silent]

/-- The attempt under way was started by its operation's request, and a number that is shown for it
is one that it asked about. -/
structure Attended (h : Host) (t : Trace) : Prop where
  represents : ∃ a, Represents h a
  began : ∀ attempt id, h.pairing = some attempt → h.pairingOperationID = some id →
    Began id attempt t
  asked : ∀ attempt id n, h.pairing = some attempt → h.pairingOperationID = some id →
    h.shown = some n → Asked id attempt t

/-- Nothing is asked and nothing was answered at the start. -/
theorem attended_initial : Attended .initial [] where
  represents := ⟨.none, represents_initial⟩
  began := by rintro _ _ ⟨⟩
  asked := by rintro _ _ _ ⟨⟩

/-- Each step of the host keeps every standing question backed by the trace. -/
theorem attended_step {h h' : Host} {t : Trace} {e : Event} {o : List Effect} (hs : Attended h t)
    (hstep : h.Step e o h') : Attended h' (t ++ [(e, o)]) := by
  obtain ⟨⟨a, R⟩, hbegan, hasked⟩ := hs
  obtain ⟨a', R', -⟩ := step_move R hstep
  refine ⟨⟨a', R'⟩, ?_, ?_⟩
  · intro attempt id hp hid
    cases step_turn R hstep with
    | kept p i | asked _ _ p i | answered _ _ _ _ p i =>
        exact (hbegan attempt id (p.symm.trans hp) (i.symm.trans hid)).snoc _
    | gone p => cases p.symm.trans hp
    | began b p i =>
        cases p.symm.trans hp
        cases i.symm.trans hid
        exact ⟨t, e, o, [], rfl, b⟩
  · intro attempt id n hp hid hn
    cases step_turn R hstep with
    | kept p i s silent =>
        exact (hasked attempt id n (p.symm.trans hp) (i.symm.trans hid) (s.symm.trans hn)).snoc silent
    | gone p => cases p.symm.trans hp
    | began b p i s => cases s.symm.trans hn
    | asked hc p p' i silent =>
        cases p.symm.trans (p'.symm.trans hp)
        exact ⟨t, e, o, [], _, rfl, hbegan attempt id p (i.symm.trans hid), hc,
          List.forall_mem_nil _⟩
    | answered _ _ _ _ _ _ s => cases s.symm.trans hn

/-- **Consent.**  Whenever an attempt is answered, the event is a request that answers so for an
operation; before it, the attempt was started by the request that has this operation, for a device at
the address that request named; then the attempt asked, and nothing answered it in between. -/
theorem answers_asked {t u v : Trace} {h : Host} {e : Event} {o : List Effect} {number : Nat}
    {accepted : Bool} (r : Steps Host.Step .initial t h) (ht : t = u ++ (e, o) :: v)
    (hc : Effect.confirm number accepted ∈ o) :
    ∃ id attempt, attempt.number = number ∧ Answers e id accepted ∧ Asked id attempt u := by
  subst ht
  obtain ⟨m, m', hu, hstep, -⟩ := r.split_at
  obtain ⟨⟨a, R⟩, -, hasked⟩ := hu.invariant_trace (I := Attended) attended_step attended_initial
  have hmem : (number, accepted) ∈ confirms o := List.mem_filterMap.mpr ⟨_, hc, rfl⟩
  cases step_turn R hstep with
  | kept _ _ _ silent | gone _ silent | asked _ _ _ _ silent =>
      rw [silent] at hmem
      cases hmem
  | began b =>
      obtain ⟨_, _, _, _, _, _, _, rfl⟩ := b
      simp [confirms] at hmem
  | @answered id attempt n b A p i s _ _ _ c =>
      rw [c] at hmem
      cases List.mem_singleton.mp hmem
      exact ⟨id, attempt, rfl, A, by simpa using hasked attempt id n p i s⟩

def sampleConfirm : Event where
  world := { sampleWorld with uuid := "two" }
  call := .request [("action", .str "bluetooth-confirm"), ("operationID", .str "one"),
    ("accepted", .bool true)]

/-- The service asks for the first attempt, and the user agrees. -/
def sampleAsked : Host := ((sampleAfter samplePair).2.confirmationRequest 0 123456).2

def sampleAgreed : Trace :=
  [(⟨sampleWorld, .prepareCentral false⟩, []),
    (⟨sampleWorld, .request samplePair⟩, (sampleAfter samplePair).1),
    (⟨sampleWorld, .confirmationRequest 0 123456⟩, [])]

/-- The sample trace, with the user's agreement at its end, is a run of the host. -/
theorem sampleAgreed_steps : ∃ h, Steps Host.Step .initial
    (sampleAgreed ++ (sampleConfirm, [Effect.confirm 0 true, .reply 1 [("ok", .bool true)]]) :: []) h :=
  ⟨_, (sampleAfter_steps samplePair).append
    (.more (show Host.Step _ _ _ sampleAsked from rfl) (.one rfl))⟩

/-- In the sample run the answer that is delivered is to the question of the first attempt. -/
theorem answers_asked_sample : ∃ id attempt, attempt.number = 0 ∧ Answers sampleConfirm id true ∧
    Asked id attempt sampleAgreed := by
  obtain ⟨h, r⟩ := sampleAgreed_steps
  exact answers_asked r rfl List.mem_cons_self

end Ashacky.Devices.BluetoothService
