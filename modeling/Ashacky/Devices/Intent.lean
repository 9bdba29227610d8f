import Ashacky.Devices.Radio

/-!
# Devices — Intent

Whether the choice that waits for the host is the user's latest one.

* `observe_chosen`, `apply_chosen`: what an observed position and the host's state make of it.
* `stale_choice`: a choice survives a failed request, and a later move of the switch is not seen as
  a choice any more.
* `latest_choice`: where the switch does not move in that time, the pending choice is the position
  that was observed last, and so is what the host is asked for.
-/

namespace Ashacky.Devices
open Ashacky.Support

/-- The pending choice is the last position, and the service has not written since. -/
def Chosen (r : RadioIntent) (observed : Int) : Prop :=
  ∀ c, r.pending = some c → c.2 = decide (observed = 0) ∧ r.soft = observed ∧ r.expected = none

/-- The switch does not move while a choice waits that the service would not replace. -/
def Still (r : RadioIntent) (soft : Int) : Prop :=
  r.pending.isSome → r.initialized = false → soft = r.soft

section Intent
variable {r : RadioIntent} {observed soft : Int}

@[simp] theorem observe_initialized : (r.observe soft).2.initialized = r.initialized := by
  unfold RadioIntent.observe
  dsimp only
  split <;> rfl

@[simp] theorem observe_index : (r.observe soft).2.index = r.index := by
  unfold RadioIntent.observe
  dsimp only
  split <;> rfl

/-- After an event at which the switch is still, a pending choice is the position it shows. -/
theorem observe_chosen (h : Chosen r observed) (hstill : Still r soft) :
    Chosen (r.observe soft).2 soft := by
  unfold RadioIntent.observe
  dsimp only
  split
  · rename_i hsame
    intro c hc
    obtain ⟨hchoice, hsoft, hexpected⟩ := h c hc
    -- No echo is expected while a choice is pending, so the position has not changed.
    have heq : soft = r.soft := by
      rcases hsame with hecho | heq | hinit
      · rw [hexpected] at hecho
        cases hecho
      · exact heq
      · exact hstill (Option.isSome_of_eq_some hc) (by simpa using hinit)
    exact ⟨by rw [hchoice, heq, hsoft], rfl, rfl⟩
  · intro c hc
    cases hc
    exact ⟨rfl, rfl, rfl⟩

/-- A choice that was sent no longer waits, and one that was made since is kept. -/
theorem attempted_chosen (h : Chosen r observed) (attempt : Option Choice) :
    Chosen (r.attempted attempt) observed := by
  unfold RadioIntent.attempted
  split
  · exact nofun
  · exact h

/-- Writing the switch leaves the pending choice. -/
theorem writeRadio_pending (powered written : Bool) :
    (r.writeRadio powered written).2.pending = r.pending := by
  unfold RadioIntent.writeRadio
  split
  · rfl
  split <;> rfl

/-- Applying the host's status keeps a pending choice the last position. -/
theorem apply_chosen (h : Chosen r observed) (powered written : Bool) :
    Chosen (r.apply powered written).2 observed := by
  unfold RadioIntent.apply
  dsimp only
  cases hpending : r.pending with
  | none =>
      intro c hc
      rw [writeRadio_pending] at hc
      cases hc
  | some choice =>
      dsimp only
      split
      · exact fun c hc => h c (hpending.trans hc)
      · intro c hc
        rw [writeRadio_pending] at hc
        cases hc

end Intent

/-! ### What a read observes -/

/-- The event is one of the service's radio. -/
def RfkillEvent.isFor (e : RfkillEvent) (r : RadioIntent) : Prop := e.kind = 1 ∧ e.index = r.index

instance (e : RfkillEvent) (r : RadioIntent) : Decidable (e.isFor r) :=
  inferInstanceAs (Decidable (_ ∧ _))

instance (r : RadioIntent) (soft : Int) : Decidable (Still r soft) :=
  inferInstanceAs (Decidable (_ → _ → _))

/-- An event that was observed: the radio before it, and its position. -/
abbrev Sight := RadioIntent × Int

/-- The checks of `read_radio`. -/
def RfkillEvent.isValid (e : RfkillEvent) : Bool :=
  e.operation ≠ 1 && (e.operation = 0 || e.operation = 2) && (e.soft = 0 || e.soft = 1) &&
    (e.hard = 0 || e.hard = 1)

/-- The events that a read of the file observes. -/
def sights (r : RadioIntent) : List Reading → List Sight
  | [] | .broken :: _ => []
  | .event e :: rest =>
      if ¬ e.isFor r then sights r rest
      else if !e.isValid then []
      else (r, (e.soft : Int)) :: sights (r.observe e.soft).2 rest

/-- What concerns the choices. -/
structure Core where
  radio : RadioIntent
  key : Option HostKey
  flight : Option Flight
  busy : Bool
  closed : Bool
  error : Bool
  queue : List Reading

def WiFiPower.core (w : WiFiPower) : Core :=
  ⟨w.radio, w.key, w.flight, w.busy, w.closed, w.error, w.queue⟩

/-! ### Steps -/

/-- What is kept by every step. -/
structure Intended (w : WiFiPower) : Prop where
  chosen : Chosen w.radio w.observed
  flight : ∀ f, w.flight = some f → ∀ c, f.attempt = some c → c.2 = f.position

section Steps
variable {w : WiFiPower}

@[simp] theorem notify_radio : w.notify.radio = w.radio := by
  unfold WiFiPower.notify
  split <;> rfl

@[simp] theorem notify_observed : w.notify.observed = w.observed := by
  unfold WiFiPower.notify
  split <;> rfl

@[simp] theorem notify_flight : w.notify.flight = w.flight := by
  unfold WiFiPower.notify
  split <;> rfl

/-- Only the radio, the last position and the flight matter. -/
theorem Intended.congr {w' : WiFiPower} (h : Intended w) (hradio : w'.radio = w.radio)
    (hobserved : w'.observed = w.observed) (hflight : w'.flight = w.flight) : Intended w' where
  chosen := by
    rw [hradio, hobserved]
    exact h.chosen
  flight := by
    rw [hflight]
    exact h.flight

/-- Announcing the state keeps what is intended. -/
theorem Intended.notify (h : Intended w) : Intended w.notify :=
  h.congr notify_radio notify_observed notify_flight

/-- A change on the host keeps what is intended. -/
theorem Intended.hostChanged (h : Intended w) : Intended w.hostChanged := by
  unfold WiFiPower.hostChanged
  split
  · have hinactive : Intended { w with radio := w.radio.inactive } := ⟨nofun, h.flight⟩
    exact hinactive.notify
  · exact h.notify

@[simp] theorem notify_core : w.notify.core = w.core := by
  unfold WiFiPower.notify
  split <;> rfl

/-- One event: it is not of the radio, or it is invalid, or it is observed. -/
theorem readEvent_cases (w : WiFiPower) (e : RfkillEvent) :
    (¬ e.isFor w.radio ∧ w.readEvent e = (false, w)) ∨
      (e.isFor w.radio ∧ e.isValid = false ∧ w.readEvent e = (true, w)) ∨
      (e.isFor w.radio ∧ e.isValid = true ∧ (w.readEvent e).1 = false ∧
        (w.readEvent e).2.core = { w.core with radio := (w.radio.observe e.soft).2 } ∧
        (w.readEvent e).2.observed = e.soft) := by
  by_cases hfor : e.isFor w.radio
  · right
    have hown : ¬ (e.kind ≠ 1 ∨ e.index ≠ w.radio.index) := by simpa [RfkillEvent.isFor] using hfor
    unfold WiFiPower.readEvent
    rw [if_neg hown]
    by_cases hvalid : e.isValid = true
    · right
      have hgood := hvalid
      simp only [RfkillEvent.isValid, Bool.and_eq_true, Bool.or_eq_true, decide_eq_true_eq] at hgood
      obtain ⟨⟨⟨hkept, hoperation⟩, hsoft⟩, hhard⟩ := hgood
      rw [if_neg hkept, if_neg (by omega)]
      generalize w.radio.observe e.soft = r
      obtain ⟨chosen, radio⟩ := r
      cases chosen with
      | false => exact ⟨hfor, hvalid, rfl, rfl, rfl⟩
      | true => exact ⟨hfor, hvalid, rfl, notify_core, notify_observed⟩
    · left
      refine ⟨hfor, by simpa using hvalid, ?_⟩
      split
      · rfl
      · next hkept =>
          rw [if_pos]
          by_contra hgood
          apply hvalid
          simp only [RfkillEvent.isValid, Bool.and_eq_true, Bool.or_eq_true, decide_eq_true_eq]
          omega
  · left
    refine ⟨hfor, ?_⟩
    unfold WiFiPower.readEvent
    rw [if_pos]
    by_contra hown
    exact hfor (by simpa [RfkillEvent.isFor] using hown)

/-- A valid event of the radio is observed, and the rest after it. -/
theorem sights_own {r : RadioIntent} {e : RfkillEvent} (hfor : e.isFor r) (hvalid : e.isValid = true)
    (rest : List Reading) :
    sights r (.event e :: rest) = (r, (e.soft : Int)) :: sights (r.observe e.soft).2 rest := by
  rw [sights, if_neg (not_not.mpr hfor), if_neg (by simp [hvalid])]

/-- The events of other switches are passed over. -/
theorem sights_other {r : RadioIntent} {e : RfkillEvent} (hfor : ¬ e.isFor r) (rest : List Reading) :
    sights r (.event e :: rest) = sights r rest := by
  rw [sights, if_pos hfor]

/-- An invalid event ends the read. -/
theorem sights_invalid {r : RadioIntent} {e : RfkillEvent} (hfor : e.isFor r)
    (hvalid : e.isValid = false) (rest : List Reading) : sights r (.event e :: rest) = [] := by
  rw [sights, if_neg (not_not.mpr hfor), if_pos (by simp [hvalid])]

/-- **A read of the file** that finds the switch still. -/
theorem Intended.readQueue {readings : List Reading} (h : Intended w)
    (hstill : ∀ x ∈ sights w.radio readings, Still x.1 x.2) : Intended (w.readQueue readings).2 := by
  induction readings generalizing w with
  | nil => exact h.congr rfl rfl rfl
  | cons reading rest ih =>
      cases reading with
      | broken => exact h.congr rfl rfl rfl
      | event e =>
          unfold WiFiPower.readQueue
          rcases readEvent_cases w e with ⟨hfor, hread⟩ | ⟨hfor, hvalid, hread⟩ |
            ⟨hfor, hvalid, hraised, hcore, hobserved⟩
          · rw [sights_other hfor] at hstill
            rw [hread]
            exact ih h hstill
          · rw [hread]
            exact h.congr rfl rfl rfl
          · rw [sights_own hfor hvalid, List.forall_mem_cons] at hstill
            generalize w.readEvent e = r at hraised hcore hobserved
            obtain ⟨raised, w'⟩ := r
            obtain rfl : raised = false := hraised
            have hradio : w'.radio = (w.radio.observe e.soft).2 := congrArg Core.radio hcore
            have hflight : w'.flight = w.flight := congrArg Core.flight hcore
            have hchosen : Intended w' := by
              refine ⟨?_, hflight ▸ h.flight⟩
              rw [hradio, hobserved]
              exact observe_chosen h.chosen hstill.1
            exact ih hchosen (hradio ▸ hstill.2)

/-- The step reads the switch. -/
def WiFiPower.reads (w : WiFiPower) : RadioEvent → Bool
  | .radioReady hungUp => !hungUp
  | .fire .refresh => !(w.closed || w.busy || !w.dirty || !isActive w.key)
  | .finish _ => !w.closed
  | _ => false

/-- What the step observes. -/
def WiFiPower.seen (w : WiFiPower) (e : RadioEvent) : List Sight :=
  if w.reads e then sights w.radio w.queue else []

/-- The step does not observe that the switch moved while a choice waits and the service is not
initialized. -/
def Calm (w : WiFiPower) (event : RadioEvent) : Prop := ∀ x ∈ w.seen event, Still x.1 x.2

instance (w : WiFiPower) (event : RadioEvent) : Decidable (Calm w event) :=
  inferInstanceAs (Decidable (∀ _ ∈ _, _))

/-- In a calm step that reads, the switch is still at every event of the file. -/
theorem Calm.still {w : WiFiPower} {event : RadioEvent} (h : Calm w event)
    (hreads : w.reads event = true) : ∀ x ∈ sights w.radio w.queue, Still x.1 x.2 := by
  rwa [Calm, WiFiPower.seen, if_pos hreads] at h

/-- Reading the file in a calm step keeps what is intended. -/
theorem Intended.radioReady (h : Intended w) {hungUp : Bool} (hcalm : Calm w (.radioReady hungUp)) :
    Intended (w.radioReady hungUp) := by
  unfold WiFiPower.radioReady
  cases hungUp with
  | true => exact h.congr rfl rfl rfl
  | false =>
      have hread : Intended w.readRadio.2 := h.readQueue (hcalm.still rfl)
      rw [if_neg Bool.false_ne_true]
      generalize w.readRadio = r at hread ⊢
      obtain ⟨raised, w'⟩ := r
      cases raised
      · exact hread
      · exact hread.congr rfl rfl rfl

/-- Reading the host's status keeps what is intended. -/
theorem Intended.readHost (h : Intended w) (key : Option HostKey) : Intended (w.readHost key) := by
  have hchanged : ∀ {w' : WiFiPower} {transition : Bool}, Intended w' →
      Intended (if transition then w'.hostChanged else w') := by
    intro w' transition h'
    split
    · exact h'.hostChanged
    · exact h'
  unfold WiFiPower.readHost
  refine hchanged ?_
  split <;> exact h.congr rfl rfl rfl

/-- **A choice is submitted** as it was observed. -/
theorem Intended.refresh (h : Intended w) (hcalm : Calm w (.fire .refresh)) :
    Intended w.refresh := by
  unfold WiFiPower.refresh
  split
  · exact h
  rename_i hgo
  have hread : Intended w.readRadio.2 := 
    h.readQueue (hcalm.still (by simpa [WiFiPower.reads, and_assoc] using hgo))
  generalize w.readRadio = r at hread ⊢
  obtain ⟨raised, w'⟩ := r
  cases raised with
  | true => exact hread.congr rfl rfl rfl
  | false =>
      refine ⟨hread.chosen, ?_⟩
      rintro f hf c hc
      cases hf
      simp only at hc ⊢
      split at hc
      · exact (hread.chosen c hc).1
      · cases hc

/-- A timer keeps what is intended when its step is calm. -/
theorem Intended.fire (h : Intended w) {name : Timer} (hcalm : Calm w (.fire name)) :
    Intended (w.fire name) := by
  have hpopped : Intended { w with sources := w.sources.filter (· ≠ name) } := h.congr rfl rfl rfl
  unfold WiFiPower.fire
  dsimp only
  split
  · exact hpopped
  cases name with
  | refresh => exact hpopped.refresh hcalm
  | retry => exact hpopped.notify
  | fallback => exact hpopped.hostChanged.congr rfl rfl rfl

/-- Settling the work keeps what is intended. -/
theorem Intended.settle (h : Intended w) (powered : Option Bool) (written : Bool) :
    Intended (w.settle powered written) := by
  have hnotify : ∀ {w' : WiFiPower}, Intended w' →
      Intended (if w'.dirty then w'.notify else w') := by
    intro w' h'
    split
    · exact h'.notify
    · exact h'
  unfold WiFiPower.settle
  cases powered with
  | none => exact hnotify ⟨h.chosen, h.flight⟩
  | some powered =>
      have happly := apply_chosen h.chosen powered written
      dsimp only
      generalize w.radio.apply powered written = r at happly ⊢
      obtain ⟨raised, radio⟩ := r
      cases raised with
      | true => exact ⟨happly, h.flight⟩
      | false =>
          have happlied : Intended
              { w with radio := radio, dirty := w.dirty || radio.pending.isSome } :=
            ⟨happly, h.flight⟩
          exact hnotify happlied

theorem Intended.finish (h : Intended w) {written : Bool} (hcalm : Calm w (.finish written))
    (key : Option HostKey) (attempt : Option Choice) (powered : Option Bool)
    (problem : Option String) :
    Intended (({ w with flight := none } : WiFiPower).finish key attempt powered problem written) := by
  have hlanded : Intended { w with flight := none } := ⟨h.chosen, nofun⟩
  unfold WiFiPower.finish
  split
  · exact hlanded
  rename_i hopen
  have hidle : Intended { w with flight := none, busy := false } := hlanded.congr rfl rfl rfl
  have hread : Intended ({ w with flight := none, busy := false } : WiFiPower).readRadio.2 :=
    hidle.readQueue (hcalm.still (by simpa [WiFiPower.reads] using hopen))
  dsimp only
  generalize WiFiPower.readRadio _ = r at hread ⊢
  obtain ⟨raised, w'⟩ := r
  cases raised with
  | true => exact hread.congr rfl rfl rfl
  | false =>
      have hattempted : Intended { w' with radio := w'.radio.attempted attempt } :=
        ⟨attempted_chosen hread.chosen attempt, hread.flight⟩
      dsimp only
      split
      · exact hattempted.notify
      · exact (hattempted.congr rfl rfl rfl : Intended
          { w' with radio := w'.radio.attempted attempt, failed := problem.isSome }).settle _ _

/-- The worker changes only the phase of its flight, and asks for what the attempt says. -/
theorem WiFiPower.work_eq {f : Flight} {event : RadioEvent} {o : List HostRequest} {w' : WiFiPower}
    (h : w.work f event = some (o, w')) :
    (∃ phase, w' = { w with flight := some { f with phase := phase } }) ∧
      ∀ enabled, .power enabled ∈ o → ∃ c, f.attempt = some c ∧ enabled = c.2 := by
  unfold WiFiPower.work at h
  split at h
  · split at h
    · rename_i attempt hphase hattempt
      split at h
      · cases h
        exact ⟨⟨_, rfl⟩, nofun⟩
      · cases h
        refine ⟨⟨_, rfl⟩, fun enabled henabled => ⟨attempt, hattempt, ?_⟩⟩
        simpa using henabled
    · cases h
  · obtain ⟨problem, -, h⟩ := Option.map_eq_some_iff.mp h
    cases h
    exact ⟨⟨_, rfl⟩, fun enabled henabled => by simp at henabled⟩
  · cases h

/-- The host is asked for a choice only by the worker. -/
theorem WiFiPower.step_power {event : RadioEvent} {o : List HostRequest} {w' : WiFiPower}
    (h : w.step event = some (o, w')) {enabled : Bool} (henabled : .power enabled ∈ o) :
    ∃ f c, w.flight = some f ∧ f.attempt = some c ∧ enabled = c.2 := by
  unfold WiFiPower.step at h
  split at h
  case h_7 =>
    obtain ⟨f, hf, hwork⟩ := Option.bind_eq_some_iff.mp h
    obtain ⟨c, hc, heq⟩ := (WiFiPower.work_eq hwork).2 enabled henabled
    exact ⟨f, c, hf, hc, heq⟩
  all_goals
    try split at h
  all_goals cases h
  all_goals cases henabled

theorem Intended.step (h : Intended w) {event : RadioEvent} {o : List HostRequest} {w' : WiFiPower}
    (hstep : w.step event = some (o, w')) (hcalm : Calm w event) : Intended w' := by
  unfold WiFiPower.step at hstep
  split at hstep
  · cases hstep
    exact h.congr rfl rfl rfl
  · split at hstep
    · cases hstep
    · cases hstep
      exact h.radioReady hcalm
  · split at hstep
    · cases hstep
    · cases hstep
      exact h.readHost _
  · split at hstep
    · cases hstep
      exact h.fire hcalm
    · cases hstep
  · split at hstep
    · cases hstep
      exact h.finish hcalm _ _ _ _
    · cases hstep
  · cases hstep
    exact h.congr rfl rfl rfl
  · obtain ⟨f, hf, hwork⟩ := Option.bind_eq_some_iff.mp hstep
    obtain ⟨⟨phase, rfl⟩, -⟩ := WiFiPower.work_eq hwork
    refine ⟨h.chosen, ?_⟩
    rintro f' hf' c hc
    cases hf'
    exact h.flight f hf c hc

end Steps

/-! ### Runs -/

/-- A run in which the switch does not move while a choice waits that the service would not
replace. -/
abbrev CalmRun : WiFiPower → List (RadioEvent × List HostRequest) → WiFiPower → Prop :=
  Steps fun w e o w' => w.step e = some (o, w') ∧ Calm w e

/-- **The latest choice.**  In every state of such a run the pending choice is the position that was
observed last, and the host is asked for the position that was observed last when the request was
submitted. -/
theorem latest_choice (index : Nat) (soft : Int) (t : List (RadioEvent × List HostRequest))
    (w : WiFiPower) (h : CalmRun (.new index soft) t w) :
    (∀ c, w.radio.pending = some c → c.2 = decide (w.observed = 0)) ∧
    ∀ e o w', w.step e = some (o, w') → ∀ enabled, .power enabled ∈ o →
      ∃ f, w.flight = some f ∧ enabled = f.position := by
  have hintended : Intended w :=
    Steps.invariant (I := Intended) (fun hi hs => hi.step hs.1 hs.2) h ⟨nofun, nofun⟩
  refine ⟨fun c hc => (hintended.chosen c hc).1, fun e o w' hstep enabled henabled => ?_⟩
  obtain ⟨f, c, hf, hc, rfl⟩ := WiFiPower.step_power hstep henabled
  exact ⟨f, hf, hintended.flight f hf c hc⟩

/-- The status of an active host. -/
def exampleKey : HostKey := ⟨"epoch:1", some true, some 0⟩

/-- The switch moves. -/
def moved (soft : Nat) : RadioEvent := .arrive (.event ⟨0, 1, 2, soft, 0⟩)

/-- The user blocks the radio, and the request is submitted. -/
def blocked : List RadioEvent :=
  [.readHost (some exampleKey), .fire .refresh, .fetched (.ok true), .finish true, moved 1,
    .radioReady false, .fire .refresh]

/-- The user unblocks it while the request is on its way; the host does not tell its state then,
and the user blocks it again. -/
def blockedAgain : List RadioEvent :=
  blocked ++ [moved 0, .radioReady false, .powered none, .fetched (.error "OSError"), .finish true,
    moved 1, .radioReady false]

/-- The host tells its state again, and the choice that was left is submitted. -/
def unblocked : List RadioEvent :=
  blockedAgain ++ [RadioEvent.fire .refresh, .fetched (.ok false), .finish true, .fire .refresh]

/-- **A stale choice.**  The radio is to be on, and the switch was observed as blocked; then the
host is asked to turn it on. -/
theorem stale_choice :
    (∃ t w, (WiFiPower.new 0 0).Run t w ∧ w.radio.pending = some (2, true) ∧ w.observed = 1) ∧
    ∃ t w, (WiFiPower.new 0 0).Run t w ∧ w.observed = 1 ∧
      ∃ w', w.step (.powered none) = some ([.power true], w') := by
  have hagain : (play WiFiPower.step (.new 0 0) blockedAgain).map
      (fun r => (r.2.radio.pending, r.2.observed)) = some (some (2, true), 1) := by decide
  have hon : (play WiFiPower.step (.new 0 0) unblocked).map
      (fun r => (r.2.observed, (r.2.step (.powered none)).map Prod.fst)) =
        some (1, some [.power true]) := by decide
  obtain ⟨⟨t, w⟩, hplay, hw⟩ := Option.map_eq_some_iff.mp hagain
  obtain ⟨⟨t', w'⟩, hplay', hw'⟩ := Option.map_eq_some_iff.mp hon
  obtain ⟨hobserved, hasked⟩ := Prod.mk.inj hw'
  obtain ⟨⟨o, w''⟩, hstep, rfl⟩ := Option.map_eq_some_iff.mp hasked
  exact ⟨⟨t, w, .of_play hplay, (Prod.mk.inj hw).1, (Prod.mk.inj hw).2⟩,
    ⟨t', w', .of_play hplay', hobserved, w'', hstep⟩⟩

/-- In the run that blocks the radio, the pending choice is that it be off. -/
theorem latest_choice_blocked :
    ∃ t w, CalmRun (.new 0 0) t w ∧ w.radio.pending = some (1, false) ∧
      false = decide (w.observed = 0) := by
  have hplayed : (play (fun w e => if Calm w e then w.step e else none) (.new 0 0) blocked).map
      (fun r => r.2.radio.pending) = some (some (1, false)) := by decide
  obtain ⟨⟨t, w⟩, hplay, hpending⟩ := Option.map_eq_some_iff.mp hplayed
  have hrun : CalmRun (.new 0 0) t w := .of_play_guarded hplay
  exact ⟨t, w, hrun, hpending, (latest_choice 0 0 t w hrun).1 (1, false) hpending⟩

end Ashacky.Devices
