import Ashacky.Devices.Intent
import Mathlib.Data.Nat.Basic
import Mathlib.Order.Basic

/-!
# Devices — Choices

Which choices of the user reach the host, and how often.

The rfkill file reports the service's own writes with those of everyone else.  A write comes with an
event of the radio: its own, or one that was there before it and had the same effect; so each step has
the readings that arrive while it runs (`late`).  `finish` runs from an idle source, so when it raises no
other callback runs after it, and none runs it after another one has raised (`Service`).

* `step_moves`: what a step of the service does to the radio, the key and the flight.
* `Waits`: after a write the file holds an event of the radio until one is observed.
* `Booked`: the serials that were sent are below the one that is pending.
* `choices_submitted`.
-/

namespace Ashacky.Devices
open Ashacky.Support

/-! ### Reads -/

/-- The radio after these events. -/
def drain (r : RadioIntent) (l : List Sight) : RadioIntent := l.foldl (fun r x => (r.observe x.2).2) r

section Reading
variable {w : WiFiPower}

/-- **A read of the file** observes its events one by one. -/
theorem readQueue_core (w : WiFiPower) (readings : List Reading) :
    (w.readQueue readings).2.core = { w.core with
      radio := drain w.radio (sights w.radio readings)
      queue := (w.readQueue readings).2.queue } := by
  induction readings generalizing w with
  | nil => rfl
  | cons reading rest ih =>
      cases reading with
      | broken => rfl
      | event e =>
          rcases readEvent_cases w e with ⟨hfor, hread⟩ | ⟨hfor, hvalid, hread⟩ |
            ⟨hfor, hvalid, hraised, hcore, -⟩
          · rw [WiFiPower.readQueue, hread, sights_other hfor]
            exact ih w
          · rw [WiFiPower.readQueue, hread, sights_invalid hfor hvalid]
            rfl
          · rw [WiFiPower.readQueue, sights_own hfor hvalid]
            generalize w.readEvent e = r at hraised hcore
            obtain ⟨raised, w'⟩ := r
            obtain rfl : raised = false := hraised
            have hradio : w'.radio = (w.radio.observe e.soft).2 := congrArg Core.radio hcore
            change (w'.readQueue rest).2.core = _
            rw [ih, hradio, show w'.core = _ from hcore]
            rfl

/-- The file holds an event of the radio. -/
def Waits (r : RadioIntent) (readings : List Reading) : Prop :=
  ∃ e, Reading.event e ∈ readings ∧ e.isFor r ∧ e.isValid = true

/-- A read that does not observe such an event raises. -/
theorem readQueue_unseen {readings : List Reading} (hwaits : Waits w.radio readings)
    (hunseen : sights w.radio readings = []) : (w.readQueue readings).1 = true := by
  induction readings with
  | nil =>
      obtain ⟨e, he, -⟩ := hwaits
      cases he
  | cons reading rest ih =>
      obtain ⟨e, he, hown, hgood⟩ := hwaits
      cases reading with
      | broken => rfl
      | event e' =>
          rcases readEvent_cases w e' with ⟨hfor, hread⟩ | ⟨hfor, hvalid, hread⟩ | ⟨hfor, hvalid, -⟩
          · rw [sights_other hfor] at hunseen
            rcases List.mem_cons.mp he with heq | he
            · obtain rfl : e = e' := Reading.event.inj heq
              exact absurd hown hfor
            · rw [WiFiPower.readQueue, hread]
              exact ih ⟨e, he, hown, hgood⟩ hunseen
          · rw [WiFiPower.readQueue, hread]
          · rw [sights_own hfor hvalid] at hunseen
            cases hunseen

/-- The file is read, and the read raises or not. -/
theorem readRadio_cases (w : WiFiPower) :
    ∃ raised w₁, w.readRadio = (raised, w₁) ∧
      w₁.core = { w.core with radio := drain w.radio (sights w.radio w.queue), queue := w₁.queue } ∧
      (raised = false → Waits w.radio w.queue → sights w.radio w.queue ≠ []) := by
  refine ⟨w.readRadio.1, w.readRadio.2, rfl, readQueue_core w w.queue, ?_⟩
  intro hraised hwaits hunseen
  rw [WiFiPower.readRadio, readQueue_unseen hwaits hunseen] at hraised
  cases hraised

end Reading

/-! ### Steps -/

/-- The radio after the step has read the file. -/
def WiFiPower.drained (w : WiFiPower) (e : RadioEvent) : RadioIntent := drain w.radio (w.seen e)

/-- The radio after the host's status was read. -/
def WiFiPower.hosted (w : WiFiPower) (key : Option HostKey) : RadioIntent :=
  if isActive key then w.radio else w.radio.inactive

/-- The read of the step observes an event, if the file holds one of the radio. -/
def WiFiPower.Observes (w : WiFiPower) (e : RadioEvent) : Prop :=
  Waits w.radio w.queue → w.seen e ≠ []

/-- What a step does. -/
inductive Moves (w : WiFiPower) : RadioEvent → List HostRequest → Core → Prop where
  | arrived (reading : Reading) :
      Moves w (.arrive reading) [] { w.core with queue := w.queue ++ [reading] }
  | idle {e : RadioEvent} (hunread : w.reads e = false) : Moves w e [] w.core
  | failed {e : RadioEvent} (hunread : w.reads e = false) : Moves w e [] { w.core with error := true }
  | closed : Moves w .close [] { w.core with closed := true }
  | read {e : RadioEvent} (raised : Bool) (queue : List Reading) (hland : ∀ written, e ≠ .finish written)
      (hseen : raised = false → w.Observes e) :
      Moves w e [] { w.core with radio := w.drained e, error := w.error || raised, queue := queue }
  | hosted (key : Option HostKey) {e : RadioEvent} (hunread : w.reads e = false)
      (hland : ∀ written, e ≠ .finish written) :
      Moves w e [] { w.core with key := key, radio := w.hosted key }
  | submitted (position : Bool) (queue : List Reading) (hopen : w.closed = false) (hidle : w.busy = false)
      (hactive : isActive w.key = true) (hseen : w.Observes (.fire .refresh)) :
      Moves w (.fire .refresh) [] { w.core with
        radio := w.drained (.fire .refresh)
        queue := queue
        busy := true
        flight := some ⟨w.key, if (w.drained (.fire .refresh)).initialized then
          (w.drained (.fire .refresh)).pending else none, .submitted, position⟩ }
  | powered (f : Flight) (c : Choice) (problem : Option String) (hf : w.flight = some f)
      (hphase : f.phase = .submitted) (hc : f.attempt = some c) :
      Moves w (.powered problem) [.power c.2]
        { w.core with flight := some { f with phase := .attempted problem } }
  | worked {e : RadioEvent} {o : List HostRequest} (f : Flight) (phase : Phase) (hf : w.flight = some f)
      (hphase : phase ≠ .submitted) (hunread : w.reads e = false)
      (ho : ∀ enabled, HostRequest.power enabled ∉ o) :
      Moves w e o { w.core with flight := some { f with phase := phase } }
  /-- The service is closed. -/
  | stopped (written : Bool) (hclosed : w.closed = true) :
      Moves w (.finish written) [] { w.core with flight := none }
  /-- The read of the file raised. -/
  | broke (written : Bool) (queue : List Reading) :
      Moves w (.finish written) [] { w.core with
        radio := w.drained (.finish written)
        queue := queue
        flight := none
        busy := false
        error := true }
  /-- The host's status has changed since. -/
  | stale (written : Bool) (queue : List Reading) (f : Flight) (hf : w.flight = some f)
      (hseen : w.Observes (.finish written)) :
      Moves w (.finish written) [] { w.core with
        radio := (w.drained (.finish written)).attempted f.attempt
        queue := queue
        flight := none
        busy := false }
  /-- The host's radio is not known. -/
  | unknown (written : Bool) (queue : List Reading) (f : Flight) (hf : w.flight = some f)
      (hseen : w.Observes (.finish written)) :
      Moves w (.finish written) [] { w.core with
        radio := { (w.drained (.finish written)).attempted f.attempt with initialized := false }
        queue := queue
        flight := none
        busy := false }
  | known (written : Bool) (queue : List Reading) (f : Flight) (powered error : Bool)
      (problem : Option String) (hf : w.flight = some f) (hphase : f.phase = .done (some powered) problem)
      (hkey : f.key = w.key) (hactive : isActive w.key = true) (hseen : w.Observes (.finish written)) :
      Moves w (.finish written) [] { w.core with
        radio := (((w.drained (.finish written)).attempted f.attempt).apply powered written).2
        queue := queue
        flight := none
        busy := false
        error := error }

section Moving
variable {w w' : WiFiPower} {e : RadioEvent} {o : List HostRequest}

/-- A step that reads the file drains what it holds. -/
theorem drained_of_reads (hread : w.reads e = true) :
    w.drained e = drain w.radio (sights w.radio w.queue) := by
  rw [WiFiPower.drained, WiFiPower.seen, if_pos hread]

/-- A step observes when its read meets an event of the radio. -/
theorem observes_of_reads (hread : w.reads e = true)
    (hseen : Waits w.radio w.queue → sights w.radio w.queue ≠ []) : w.Observes e := by
  intro hwaits
  rw [WiFiPower.seen, if_pos hread]
  exact hseen hwaits

/-- A change on the host touches the radio alone. -/
theorem hostChanged_core (w : WiFiPower) :
    w.hostChanged.core = { w.core with radio := w.hosted w.key } := by
  rw [WiFiPower.hostChanged, notify_core, WiFiPower.hosted]
  cases isActive w.key <;> rfl

/-- Reading the host's status is an allowed move. -/
theorem readHost_moves (w : WiFiPower) (key : Option HostKey) :
    Moves w (.readHost key) [] (w.readHost key).core := by
  rw [WiFiPower.readHost]
  dsimp only
  split
  · rw [hostChanged_core]
    cases key with
    | none => exact .hosted none rfl nofun
    | some k => exact .hosted (some k) rfl nofun
  · next hsame =>
      have heq : key = w.key := by
        by_contra hne
        exact hsame (decide_eq_true (.inl hne))
      subst heq
      have hunread : w.reads (.readHost w.key) = false := rfl
      split
      · exact .idle hunread
      · exact .idle hunread

/-- A file that is ready is an allowed move, whether it hung up or not. -/
theorem radioReady_moves (w : WiFiPower) (hungUp : Bool) :
    Moves w (.radioReady hungUp) [] (w.radioReady hungUp).core := by
  cases hungUp with
  | true => exact .failed rfl
  | false =>
      have hread : w.reads (.radioReady false) = true := rfl
      obtain ⟨raised, w₁, heq, hcore, hseen⟩ := readRadio_cases w
      rw [← drained_of_reads hread] at hcore
      rw [WiFiPower.radioReady, if_neg Bool.false_ne_true, heq]
      cases raised with
      | true =>
          change Moves w _ _ { w₁.core with error := true }
          rw [hcore, ← Bool.or_true w.error]
          exact .read true _ nofun nofun
      | false =>
          have hmoves : Moves w (.radioReady false) [] _ :=
            .read false w₁.queue nofun fun _ => observes_of_reads hread (hseen rfl)
          rw [Bool.or_false] at hmoves
          change Moves w _ _ w₁.core
          rw [hcore]
          exact hmoves

/-- The timer that submits the work is an allowed move. -/
theorem refresh_moves (w : WiFiPower) (sources : List Timer) :
    Moves w (.fire .refresh) [] ({ w with sources := sources } : WiFiPower).refresh.core := by
  rw [WiFiPower.refresh]
  dsimp only
  split
  · next hidle =>
      have hnone : (w.closed || w.busy || !w.dirty || !isActive w.key) = true := by
        simpa [or_assoc] using hidle
      exact .idle (by rw [WiFiPower.reads, hnone]; rfl)
  · next hgo =>
      have hread : w.reads (.fire .refresh) = true := by
        simpa [WiFiPower.reads, and_assoc] using hgo
      obtain ⟨hopen, hbusy, -, hactive⟩ : w.closed = false ∧ w.busy = false ∧ w.dirty = true ∧
          isActive w.key = true := by simpa [not_or] using hgo
      obtain ⟨raised, w₁, heq, hcore, hseen⟩ := readRadio_cases { w with sources := sources }
      change w₁.core = { w.core with
        radio := drain w.radio (sights w.radio w.queue), queue := w₁.queue } at hcore
      rw [← drained_of_reads hread] at hcore
      have hradio : w₁.radio = w.drained (.fire .refresh) := congrArg Core.radio hcore
      have hkey : w₁.key = w.key := congrArg Core.key hcore
      rw [heq]
      cases raised with
      | true =>
          change Moves w _ _ { w₁.core with error := true }
          rw [hcore, ← Bool.or_true w.error]
          exact .read true _ (by rintro _ ⟨⟩) (by rintro ⟨⟩)
      | false =>
          change Moves w _ _ { w₁.core with busy := true, flight := some ⟨w₁.key, _, _, _⟩ }
          rw [hradio, hkey, hcore]
          exact .submitted _ _ hopen hbusy hactive (observes_of_reads hread (hseen rfl))

/-- Every timer is an allowed move. -/
theorem fire_moves (w : WiFiPower) (name : Timer) : Moves w (.fire name) [] (w.fire name).core := by
  unfold WiFiPower.fire
  dsimp only
  split
  · next hclosed =>
      change w.closed = true at hclosed
      cases name with
      | refresh => exact .idle (by rw [WiFiPower.reads, hclosed]; rfl)
      | retry => exact .idle rfl
      | fallback => exact .idle rfl
  · cases name with
    | refresh => exact refresh_moves w _
    | retry =>
        rw [notify_core]
        exact .idle rfl
    | fallback =>
        change Moves w _ _ (WiFiPower.hostChanged _).core
        rw [hostChanged_core]
        exact .hosted w.key rfl (by rintro _ ⟨⟩)

/-- What the worker does is an allowed move. -/
theorem work_moves {f : Flight} (hf : w.flight = some f) (h : w.work f e = some (o, w')) :
    Moves w e o w'.core := by
  unfold WiFiPower.work at h
  split at h
  · next problem =>
      split at h
      · next attempt hphase hattempt =>
          split at h
          · cases h
            exact .worked f _ hf nofun rfl nofun
          · cases h
            exact .powered f attempt problem hf hphase hattempt
      · cases h
  · obtain ⟨problem, -, h⟩ := Option.map_eq_some_iff.mp h
    cases h
    refine .worked f _ hf ?_ rfl (by simp)
    split <;> nofun
  · cases h

/-- Announcing the state does not touch the core. -/
theorem notify_if_core (w : WiFiPower) : (if w.dirty then w.notify else w).core = w.core := by
  split
  · exact notify_core
  · rfl

/-- Work that learnt no status leaves the radio uninitialized. -/
theorem settle_unknown (w : WiFiPower) (written : Bool) :
    (w.settle none written).core =
      { w.core with radio := { w.radio with initialized := false } } :=
  notify_if_core _

/-- Work that learnt the status has it applied to the radio. -/
theorem settle_known (w : WiFiPower) (powered written : Bool) :
    ∃ error, (w.settle (some powered) written).core =
      { w.core with radio := (w.radio.apply powered written).2, error := error } := by
  rw [WiFiPower.settle]
  dsimp only
  generalize w.radio.apply powered written = r
  obtain ⟨raised, radio⟩ := r
  cases raised with
  | true => exact ⟨true, rfl⟩
  | false =>
      exact ⟨w.error, notify_if_core { w with radio := radio, dirty := w.dirty || radio.pending.isSome }⟩

/-- The end of the work lands it, reads the file and submits anew where that is due. -/
theorem finish_moves {f : Flight} {powered : Option Bool} {problem : Option String} (written : Bool)
    (hf : w.flight = some f) (hphase : f.phase = .done powered problem) :
    Moves w (.finish written) []
      (({ w with flight := none } : WiFiPower).finish f.key f.attempt powered problem written).core := by
  rw [WiFiPower.finish]
  split
  · next hclosed => exact .stopped written hclosed
  · next hopen =>
      have hread : w.reads (.finish written) = true := by simpa [WiFiPower.reads] using hopen
      obtain ⟨raised, w₁, heq, hcore, hseen⟩ := readRadio_cases { w with flight := none, busy := false }
      change w₁.core = { w.core with
        radio := drain w.radio (sights w.radio w.queue)
        queue := w₁.queue
        flight := none
        busy := false } at hcore
      rw [← drained_of_reads hread] at hcore
      -- The file is read first, so that what follows is about the radio after it.
      have hobserves : raised = false → w.Observes (.finish written) :=
        fun hraised => observes_of_reads hread (hseen hraised)
      have hradio : w₁.radio = w.drained (.finish written) := congrArg Core.radio hcore
      have hkey : w₁.key = w.key := congrArg Core.key hcore
      dsimp only
      rw [heq]
      cases raised with
      | true =>
          change Moves w _ _ { w₁.core with error := true }
          rw [hcore]
          exact .broke written _
      | false =>
          dsimp only
          split
          · rw [notify_core]
            change Moves w _ _ { w₁.core with radio := w₁.radio.attempted f.attempt }
            rw [hradio, hcore]
            exact .stale written _ f hf (hobserves rfl)
          · next hcurrent =>
              obtain ⟨hsame, hactive⟩ : f.key = w.key ∧ isActive w.key = true := by
                simpa [not_or, hkey] using hcurrent
              cases powered with
              | none =>
                  rw [settle_unknown]
                  change Moves w _ _ { w₁.core with
                    radio := { w₁.radio.attempted f.attempt with initialized := false } }
                  rw [hradio, hcore]
                  exact .unknown written _ f hf (hobserves rfl)
              | some powered =>
                  obtain ⟨error, hsettle⟩ := settle_known { w₁ with
                    radio := w₁.radio.attempted f.attempt, failed := problem.isSome } powered written
                  rw [hsettle]
                  change Moves w _ _ { w₁.core with
                    radio := ((w₁.radio.attempted f.attempt).apply powered written).2, error := error }
                  rw [hradio, hcore]
                  exact .known written _ f powered error problem hf hphase hsame hactive (hobserves rfl)

/-- **What a step does.** -/
theorem step_moves (h : w.step e = some (o, w')) : Moves w e o w'.core := by
  unfold WiFiPower.step at h
  split at h
  · cases h
    exact .arrived _
  · split at h
    · cases h
    · cases h
      exact radioReady_moves w _
  · split at h
    · cases h
    · cases h
      exact readHost_moves w _
  · split at h
    · cases h
      exact fire_moves w _
    · cases h
  · next written =>
      split at h
      · next key attempt powered problem position hflight =>
          cases h
          exact finish_moves (f := ⟨key, attempt, .done powered problem, position⟩) written hflight rfl
      · cases h
  · cases h
    exact .closed
  · obtain ⟨f, hf, hwork⟩ := Option.bind_eq_some_iff.mp h
    exact work_moves hf hwork

end Moving

/-! ### What a read and a write do to the radio -/

section Radio
variable {r : RadioIntent}

/-- The sight made the choice. -/
def Sight.Chose (x : Sight) (c : Choice) : Prop :=
  c = (x.1.serial + 1, decide (x.2 = 0)) ∧ x.1.initialized = true ∧ x.2 ≠ x.1.soft ∧
    x.1.expected ≠ some x.2

@[simp] theorem drain_nil : drain r [] = r := rfl

/-- An observed event makes a choice with the next serial, or leaves the pending one. -/
theorem observe_cases (r : RadioIntent) (soft : Int) :
    ((r.observe soft).2.pending = r.pending ∧ (r.observe soft).2.serial = r.serial) ∨
      ∃ c, (r.observe soft).2.pending = some c ∧ Sight.Chose (r, soft) c ∧
        (r.observe soft).2.serial = r.serial + 1 := by
  unfold RadioIntent.observe
  dsimp only
  split
  · exact .inl ⟨rfl, rfl⟩
  · next hchosen =>
      simp only [not_or, Bool.not_eq_true', Bool.not_eq_false] at hchosen
      exact .inr ⟨_, rfl, ⟨rfl, hchosen.2.2, hchosen.2.1, hchosen.1⟩, rfl⟩

/-- The radio after a read: the choice that waits is the old one, or one that was observed. -/
theorem drain_cases (r : RadioIntent) (readings : List Reading) :
    ((drain r (sights r readings)).pending = r.pending ∧
        (drain r (sights r readings)).serial = r.serial) ∨
      ∃ c before x after, sights r readings = before ++ x :: after ∧ x.Chose c ∧ (before = [] → x.1 = r) ∧
        x.1.initialized = r.initialized ∧ (drain r (sights r readings)).pending = some c ∧
        (drain r (sights r readings)).serial = c.1 ∧ r.serial < c.1 := by
  induction readings generalizing r with
  | nil => exact .inl ⟨rfl, rfl⟩
  | cons reading rest ih =>
      cases reading with
      | broken => exact .inl ⟨rfl, rfl⟩
      | event e =>
          by_cases hfor : e.isFor r
          case neg =>
            rw [sights_other hfor]
            exact ih r
          cases hvalid : e.isValid with
          | false =>
              rw [sights_invalid hfor hvalid]
              exact .inl ⟨rfl, rfl⟩
          | true =>
              rw [sights_own hfor hvalid]
              change ((drain (r.observe e.soft).2 _).pending = _ ∧ (drain (r.observe e.soft).2 _).serial = _) ∨
                ∃ c before x after, _ ∧ _ ∧ _ ∧ _ ∧ (drain (r.observe e.soft).2 _).pending = _ ∧
                  (drain (r.observe e.soft).2 _).serial = _ ∧ _
              rcases ih (r.observe e.soft).2 with ⟨hpending, hserial⟩ |
                ⟨c, before, x, after, hsplit, hchose, -, hinit, hpending, hserial, hlt⟩
              · rcases observe_cases r e.soft with ⟨hpending', hserial'⟩ | ⟨c, hpending', hchose, hserial'⟩
                · exact .inl ⟨hpending.trans hpending', hserial.trans hserial'⟩
                · have hc : c.1 = r.serial + 1 := congrArg Prod.fst hchose.1
                  exact .inr ⟨c, [], _, _, rfl, hchose, fun _ => rfl, rfl, hpending.trans hpending',
                    by omega, by omega⟩
              · have hle : r.serial ≤ (r.observe e.soft).2.serial := by
                  rcases observe_cases r e.soft with ⟨-, hserial'⟩ | ⟨-, -, -, hserial'⟩ <;> omega
                exact .inr ⟨c, _ :: before, x, after, congrArg (List.cons _) hsplit, hchose, nofun,
                  hinit.trans observe_initialized, hpending, hserial, by omega⟩

/-- Reading events neither initializes the radio nor moves its index. -/
theorem drain_kept (r : RadioIntent) (l : List Sight) :
    (drain r l).initialized = r.initialized ∧ (drain r l).index = r.index := by
  induction l generalizing r with
  | nil => exact ⟨rfl, rfl⟩
  | cons x l ih =>
      obtain ⟨hinit, hindex⟩ := ih (r.observe x.2).2
      exact ⟨hinit.trans observe_initialized, hindex.trans observe_index⟩

/-- A choice that was sent is all that the end of an attempt takes from the radio. -/
@[simp] theorem attempted_kept (r : RadioIntent) (attempt : Option Choice) :
    (r.attempted attempt).initialized = r.initialized ∧ (r.attempted attempt).index = r.index ∧
      (r.attempted attempt).soft = r.soft ∧ (r.attempted attempt).expected = r.expected ∧
      (r.attempted attempt).serial = r.serial := by
  unfold RadioIntent.attempted
  split <;> exact ⟨rfl, rfl, rfl, rfl, rfl⟩

/-- What waits after an attempt is another choice. -/
theorem attempted_pending {attempt : Option Choice} {c : Choice} :
    (r.attempted attempt).pending = some c ↔ r.pending = some c ∧ attempt ≠ some c := by
  unfold RadioIntent.attempted
  split
  · next heq =>
      constructor
      · nofun
      · rintro ⟨hpending, hne⟩
        exact absurd (heq.2.symm.trans hpending) hne
  · next hne =>
      refine ⟨fun hpending => ⟨hpending, fun hattempt => hne ?_⟩, And.left⟩
      rw [hpending, hattempt]
      exact ⟨rfl, rfl⟩

/-- The switch is written and the write is expected back, or nothing changes. -/
theorem writeRadio_cases (r : RadioIntent) (powered written : Bool) :
    (r.writeRadio powered written).2 = r ∨
      ((r.writeRadio powered written).2.expected = some (r.writeRadio powered written).2.soft ∧
        (r.writeRadio powered written).2.pending = r.pending ∧
        (r.writeRadio powered written).2.serial = r.serial ∧
        (r.writeRadio powered written).2.index = r.index ∧
        (r.writeRadio powered written).2.initialized = r.initialized) := by
  unfold RadioIntent.writeRadio
  split
  · exact .inl rfl
  split
  · exact .inl rfl
  · exact .inr ⟨rfl, rfl, rfl, rfl, rfl⟩

/-- `apply` writes, or leaves what was expected. -/
theorem apply_cases (r : RadioIntent) (powered written : Bool) :
    (r.apply powered written).2.initialized = true ∧ (r.apply powered written).2.serial = r.serial ∧
      (r.apply powered written).2.index = r.index ∧
      ((r.apply powered written).2.soft ≠ r.soft →
        (r.apply powered written).2.expected = some (r.apply powered written).2.soft) ∧
      (∀ c, (r.apply powered written).2.pending = some c → r.pending = some c) ∧
      ∀ c, r.pending = some c → (r.apply powered written).2.pending = some c ∨ powered = c.2 := by
  unfold RadioIntent.apply
  dsimp only
  split
  · next choice hpending =>
      split
      · exact ⟨rfl, rfl, rfl, nofun, fun _ hc => hc, fun _ hc => .inl hc⟩
      · next hsame =>
          have hpowered : ∀ c, r.pending = some c → powered = c.2 := by
            intro c hc
            cases hc.symm.trans hpending
            exact (not_not.mp hsame).symm
          rcases writeRadio_cases { r with initialized := true, pending := none } powered written with
            heq | ⟨hexpected, hpending', hserial, hindex, hinit⟩
          · rw [heq]
            exact ⟨rfl, rfl, rfl, fun hne => absurd rfl hne, nofun, fun c hc => .inr (hpowered c hc)⟩
          · refine ⟨hinit, hserial, hindex, fun _ => hexpected, ?_, fun c hc => .inr (hpowered c hc)⟩
            rw [hpending']
            nofun
  · next hpending =>
      have hnone : r.pending = none := hpending
      rcases writeRadio_cases { r with initialized := true } powered written with
        heq | ⟨hexpected, hpending', hserial, hindex, hinit⟩
      · rw [heq]
        exact ⟨rfl, rfl, rfl, fun hne => absurd rfl hne, fun _ hc => hc, fun _ hc => .inl hc⟩
      · refine ⟨hinit, hserial, hindex, fun _ => hexpected, ?_, ?_⟩
        · rw [hpending']
          exact fun _ hc => hc
        · rw [hpending']
          exact fun _ hc => .inl hc

end Radio

/-! ### The service -/

/-- The service, and whether `finish` has ended its main loop. -/
structure Service where
  power : WiFiPower
  quit : Bool
deriving DecidableEq

/-- An event, and the readings that arrive while it is handled. -/
structure Turn where
  event : RadioEvent
  late : List Reading

/-- What a turn does. -/
structure Deed where
  seen : List Sight
  /-- The position that is written to the rfkill file. -/
  wrote : Option Int
  /-- The choice of the work that is submitted. -/
  submitted : Option Choice
  sent : Option Choice

/-- The choice that is passed to `wifi-power`. -/
def WiFiPower.sends (w : WiFiPower) : List HostRequest → Option Choice
  | .power _ :: _ => w.flight.bind Flight.attempt
  | _ => none

/-- Reads apart, only a write changes `soft`. -/
def WiFiPower.deed (w w' : WiFiPower) (e : RadioEvent) (o : List HostRequest) : Deed where
  seen := w.seen e
  wrote := if w'.radio.soft = (w.drained e).soft then none else some w'.radio.soft
  submitted := if w.flight.isNone then w'.flight.bind Flight.attempt else none
  sent := w.sends o

namespace Service

def new (index : Nat) (soft : Int) : Service := ⟨.new index soft, false⟩

/-- The main loop has ended.  It ends before another idle source is dispatched. -/
def ended (s : Service) : RadioEvent → Bool
  | .radioReady _ | .readHost _ | .fire _ => s.quit
  | .finish _ => s.quit || s.power.error
  | _ => false

/-- Whether `finish` raised. -/
def breaks (error : Bool) : RadioEvent → Bool
  | .finish _ => error
  | _ => false

/-- An event of the radio arrives. -/
def answers (r : RadioIntent) (late : List Reading) : Bool :=
  late.any fun
    | .event e => decide (e.isFor r) && e.isValid
    | .broken => false

/-- A step of the service.  The kernel queues an event of the radio before a write returns. -/
def step (s : Service) (turn : Turn) : Option (Deed × Service) :=
  if s.ended turn.event then none
  else
    (s.power.step turn.event).bind fun (o, w) =>
      let deed := s.power.deed w turn.event o
      if deed.wrote.isSome && !answers w.radio turn.late then none
      else some (deed, ⟨{ w with queue := w.queue ++ turn.late }, s.quit || breaks w.error turn.event⟩)

abbrev Step (s : Service) (turn : Turn) (d : Deed) (s' : Service) : Prop := s.step turn = some (d, s')

/-- A run of the service. -/
abbrev Run : Service → List (Turn × Deed) → Service → Prop := Steps Step

end Service

/-- The positions that were written since an event was observed. -/
def unanswered (t : List (Turn × Deed)) : List Int :=
  t.foldl (fun l x => (if x.2.seen = [] then l else []) ++ x.2.wrote.toList) []

/-- The main loop takes the host's status, which is known, and is that of the session. -/
def Succeeded (_ : List (Turn × Deed)) (s : Service) (turn : Turn) (_ : Deed) (_ : Service) : Prop :=
  ∃ written f powered problem, turn.event = .finish written ∧ s.power.flight = some f ∧
    f.phase = .done (some powered) problem ∧ f.key = s.power.key ∧ isActive s.power.key = true

/-- The host stays active. -/
def Remains (_ : Service) (_ : Turn) (_ : Deed) (s' : Service) : Prop := isActive s'.power.key = true

/-- The turn observes the event that is the choice `c`: it changes the position, the host is active and
its status is known since, and the event is not the first one since a write of its position. -/
def Made (start : Service) (c : Choice) (t : List (Turn × Deed)) (s : Service) (_ : Turn) (d : Deed)
    (_ : Service) : Prop :=
  ∃ before r soft after, d.seen = before ++ (r, soft) :: after ∧ c = (r.serial + 1, decide (soft = 0)) ∧
    soft ≠ r.soft ∧ Since Service.Step Succeeded Remains start t s ∧
    (before = [] → soft ∉ unanswered t)

/-! ### The serials -/

/-- The serials that were sent, and the choice that waits or is on its way.  When the service is shut, no
work is submitted. -/
structure Booked (sent : List Nat) (r : RadioIntent) (flight : Option Flight) (busy shut : Bool) :
    Prop where
  sorted : sent.Pairwise (· < ·)
  bounded : ∀ n ∈ sent, n ≤ r.serial
  pending : ∀ c, r.pending = some c → c.1 = r.serial
  idle : shut = false → busy = false → flight = none
  waiting : flight = none → shut = false → ∀ c, r.pending = some c → ∀ n ∈ sent, n < c.1
  flown : ∀ f, flight = some f → ∀ c, r.pending = some c →
    f.attempt = some c ∨ (∀ n ∈ sent, n < c.1) ∧ ∀ a, f.attempt = some a → a.1 < c.1
  attempt : ∀ f, flight = some f → ∀ a, f.attempt = some a →
    a.1 ≤ r.serial ∧ (f.phase = .submitted → ∀ n ∈ sent, n < a.1)

section Booked
variable {sent : List Nat} {r r' : RadioIntent} {flight : Option Flight} {busy shut : Bool} {f : Flight}

/-- A service that shuts has no more to keep. -/
theorem Booked.shuts {shut' : Bool} (h : Booked sent r flight busy shut) (hshut : shut = true → shut' = true) :
    Booked sent r flight busy shut' := by
  have hopen : shut' = false → shut = false := by
    intro hopen
    cases hs : shut with
    | false => rfl
    | true => rw [hshut hs] at hopen; cases hopen
  exact { h with
    idle := fun hs => h.idle (hopen hs)
    waiting := fun hnone hs => h.waiting hnone (hopen hs) }

/-- A choice that waits is kept, or replaced by a newer one. -/
theorem Booked.observes (h : Booked sent r flight busy shut) (hserial : r.serial ≤ r'.serial)
    (hpending : ∀ c, r'.pending = some c →
      (r.pending = some c ∧ r'.serial = r.serial) ∨ (c.1 = r'.serial ∧ r.serial < c.1)) :
    Booked sent r' flight busy shut where
  sorted := h.sorted
  bounded n hn := (h.bounded n hn).trans hserial
  pending c hc := by
    rcases hpending c hc with ⟨hold, hsame⟩ | ⟨hnew, -⟩
    · rw [hsame, h.pending c hold]
    · exact hnew
  idle := h.idle
  waiting hnone hopen c hc n hn := by
    rcases hpending c hc with ⟨hold, -⟩ | ⟨-, hlt⟩
    · exact h.waiting hnone hopen c hold n hn
    · exact (h.bounded n hn).trans_lt hlt
  flown f hf c hc := by
    rcases hpending c hc with ⟨hold, -⟩ | ⟨-, hlt⟩
    · exact h.flown f hf c hold
    · exact .inr ⟨fun n hn => (h.bounded n hn).trans_lt hlt,
        fun a ha => (h.attempt f hf a ha).1.trans_lt hlt⟩
  attempt f hf a ha := ⟨(h.attempt f hf a ha).1.trans hserial, (h.attempt f hf a ha).2⟩

/-- The books stay right while events are read: each choice has a serial of its own. -/
theorem Booked.drain (h : Booked sent r flight busy shut) (readings : List Reading) :
    Booked sent (drain r (sights r readings)) flight busy shut := by
  rcases drain_cases r readings with ⟨hpending, hserial⟩ | ⟨c, -, -, -, -, -, -, -, hpending, hserial, hlt⟩
  · exact h.observes hserial.ge fun c hc => .inl ⟨hpending.symm.trans hc, hserial⟩
  · refine h.observes (by omega) fun c' hc' => .inr ?_
    cases hpending.symm.trans hc'
    exact ⟨hserial.symm, hlt⟩

/-- The books stay right when the host's status is read. -/
theorem Booked.hosted {w : WiFiPower} (h : Booked sent w.radio flight busy shut) (key : Option HostKey) :
    Booked sent (w.hosted key) flight busy shut := by
  rw [WiFiPower.hosted]
  split
  · exact h
  · exact h.observes le_rfl nofun

/-- The work ends: its attempt does not wait any more. -/
theorem Booked.lands (h : Booked sent r (some f) busy shut) (hserial : r'.serial = r.serial)
    (hpending : ∀ c, r'.pending = some c → r.pending = some c ∧ f.attempt ≠ some c) :
    Booked sent r' none false shut where
  sorted := h.sorted
  bounded n hn := (h.bounded n hn).trans hserial.ge
  pending c hc := (h.pending c (hpending c hc).1).trans hserial.symm
  idle _ _ := rfl
  waiting _ _ c hc := by
    obtain ⟨hold, hother⟩ := hpending c hc
    rcases h.flown f rfl c hold with hsame | ⟨hlt, -⟩
    · exact absurd hsame hother
    · exact hlt
  flown f hf := by cases hf
  attempt f hf := by cases hf

/-- The service is shut when its work ends. -/
theorem Booked.breaks {busy' : Bool} (h : Booked sent r flight busy shut) :
    Booked sent r none busy' true where
  sorted := h.sorted
  bounded := h.bounded
  pending := h.pending
  idle := nofun
  waiting := nofun
  flown f hf := by cases hf
  attempt f hf := by cases hf

/-- The choice that waits is submitted, or no choice is. -/
theorem Booked.submits (h : Booked sent r none busy shut) (hopen : shut = false)
    (hattempt : f.attempt = r.pending ∨ f.attempt = none) : Booked sent r (some f) true shut where
  sorted := h.sorted
  bounded := h.bounded
  pending := h.pending
  idle := nofun
  waiting := nofun
  flown := by
    rintro f' ⟨⟩ c hc
    rcases hattempt with hsame | hnone
    · exact .inl (hsame.trans hc)
    · exact .inr ⟨h.waiting rfl hopen c hc, by simp [hnone]⟩
  attempt := by
    rintro f' ⟨⟩ a ha
    rcases hattempt with hsame | hnone
    · have hpending : r.pending = some a := hsame.symm.trans ha
      exact ⟨(h.pending a hpending).le, fun _ => h.waiting rfl hopen a hpending⟩
    · rw [hnone] at ha
      cases ha

/-- The worker goes on. -/
theorem Booked.works {phase : Phase} (h : Booked sent r (some f) busy shut) (hphase : phase ≠ .submitted) :
    Booked sent r (some { f with phase := phase }) busy shut where
  sorted := h.sorted
  bounded := h.bounded
  pending := h.pending
  idle hopen hidle := nomatch h.idle hopen hidle
  waiting := nofun
  flown := by
    rintro f' ⟨⟩
    exact h.flown f rfl
  attempt := by
    rintro f' ⟨⟩ a ha
    exact ⟨(h.attempt f rfl a ha).1, fun hsubmitted => absurd hsubmitted hphase⟩

/-- The worker sends its attempt. -/
theorem Booked.sends {c : Choice} {phase : Phase} (h : Booked sent r (some f) busy shut)
    (hf : f.phase = .submitted) (hc : f.attempt = some c) (hphase : phase ≠ .submitted) :
    Booked (sent ++ [c.1]) r (some { f with phase := phase }) busy shut := by
  obtain ⟨hle, hlt⟩ := h.attempt f rfl c hc
  refine { h.works hphase with sorted := ?_, bounded := ?_, waiting := nofun, flown := ?_, attempt := ?_ }
  · rw [List.pairwise_append]
    exact ⟨h.sorted, List.pairwise_singleton _ _, by simpa using hlt hf⟩
  · simp only [List.mem_append, List.mem_singleton]
    rintro n (hn | rfl)
    · exact h.bounded n hn
    · exact hle
  · rintro f' ⟨⟩ c' hc'
    refine (h.flown f rfl c' hc').imp_right fun ⟨hold, hnew⟩ => ⟨?_, hnew⟩
    simp only [List.mem_append, List.mem_singleton]
    rintro n (hn | rfl)
    · exact hold n hn
    · exact hnew c hc
  · rintro f' ⟨⟩ a ha
    exact ⟨(h.attempt f rfl a ha).1, fun hsubmitted => absurd hsubmitted hphase⟩

/-- **A step** keeps the books. -/
theorem Moves.booked {w : WiFiPower} {e : RadioEvent} {o : List HostRequest} {c : Core} {quit : Bool}
    (h : Booked sent w.radio w.flight w.busy (quit || w.closed)) (hmoves : Moves w e o c)
    (hopen : (⟨w, quit⟩ : Service).ended e = false) :
    Booked (sent ++ ((w.sends o).map Prod.fst).toList) c.radio c.flight c.busy
      (quit || Service.breaks c.error e || c.closed) := by
  have hmono : ∀ b : Bool, (quit || w.closed) = true → (quit || b || w.closed) = true := by
    intro b
    cases quit <;> cases b <;> simp
  have hnil : sent ++ ((w.sends []).map Prod.fst).toList = sent := List.append_nil _
  have hdrained : ∀ e, Booked sent (w.drained e) w.flight w.busy (quit || w.closed) := by
    intro e
    rw [WiFiPower.drained, WiFiPower.seen]
    split
    · exact h.drain w.queue
    · exact h
  -- The books change when work is submitted, when it sends a choice, and when it ends.
  cases hmoves with
  | arrived reading =>
      rw [hnil]
      exact h.shuts (hmono _)
  | idle hunread =>
      rw [hnil]
      exact h.shuts (hmono _)
  | failed hunread =>
      rw [hnil]
      exact h.shuts (hmono _)
  | closed =>
      rw [hnil]
      exact h.shuts fun _ => Bool.or_true _
  | read raised queue hland hseen =>
      rw [hnil]
      exact (hdrained e).shuts (hmono _)
  | hosted key hunread =>
      rw [hnil]
      exact (h.hosted key).shuts (hmono _)
  | submitted position queue hclosed hidle hactive hseen =>
      have hquit : quit = false := hopen
      have hshut : (quit || w.closed) = false := by rw [hquit, hclosed]; rfl
      -- Nothing is in flight: the service is open, and not busy.
      have hlanded : w.flight = none := h.idle hshut hidle
      have hnone := hdrained (.fire .refresh)
      rw [hlanded] at hnone
      rw [hnil]
      refine Booked.shuts ?_ (hmono _)
      refine hnone.submits hshut ?_
      dsimp only
      split
      · exact .inl rfl
      · exact .inr rfl
  | powered f ch problem hf hphase hc =>
      rw [hf] at h
      have hsends : w.sends [.power ch.2] = some ch := by rw [WiFiPower.sends, hf]; exact hc
      rw [hsends]
      have hsent : Booked (sent ++ [ch.1]) w.radio (some { f with phase := .attempted problem }) w.busy
          (quit || w.closed) := h.sends hphase hc (by rintro ⟨⟩)
      exact hsent.shuts (hmono _)
  | worked f phase hf hphase hunread ho =>
      have hsends : w.sends o = none := by
        cases o with
        | nil => rfl
        | cons request rest =>
            cases request with
            | power enabled => exact absurd List.mem_cons_self (ho enabled)
            | status => rfl
      rw [hf] at h
      rw [hsends, Option.map_none, Option.toList_none, List.append_nil]
      exact (h.works hphase).shuts (hmono _)
  | stopped written hclosed =>
      rw [hnil]
      exact h.breaks.shuts fun _ => by simp [WiFiPower.core, hclosed]
  | broke written queue =>
      rw [hnil]
      exact (hdrained (.finish written)).breaks.shuts fun _ => by simp [Service.breaks]
  | stale written queue f hf hseen =>
      have hflown := hdrained (.finish written)
      rw [hf] at hflown
      rw [hnil]
      refine Booked.shuts (hflown.lands ?_ fun c hc => attempted_pending.mp hc) (hmono _)
      exact (attempted_kept _ _).2.2.2.2
  | unknown written queue f hf hseen =>
      have hflown := hdrained (.finish written)
      rw [hf] at hflown
      rw [hnil]
      refine Booked.shuts (hflown.lands ?_ fun c hc => attempted_pending.mp hc) (hmono _)
      exact (attempted_kept (w.drained (.finish written)) f.attempt).2.2.2.2
  | known written queue f powered error problem hf hphase hkey hactive hseen =>
      have hflown := hdrained (.finish written)
      rw [hf] at hflown
      obtain ⟨-, hserial, -, -, hpending, -⟩ :=
        apply_cases ((w.drained (.finish written)).attempted f.attempt) powered written
      rw [hnil]
      refine Booked.shuts (hflown.lands ?_ fun c hc => attempted_pending.mp (hpending c hc)) (hmono _)
      exact hserial.trans (attempted_kept _ _).2.2.2.2

end Booked

/-! ### The choices -/

section Choosing
variable {w : WiFiPower} {e : RadioEvent} {o : List HostRequest} {c : Core} {ch : Choice}

/-- A step that does not read the file leaves the radio as it is. -/
theorem drained_of_unread (hunread : w.reads e = false) : w.drained e = w.radio := by
  rw [WiFiPower.drained, WiFiPower.seen, hunread]
  rfl

/-- No read initializes the radio or moves its index. -/
theorem drained_kept (w : WiFiPower) (e : RadioEvent) :
    (w.drained e).initialized = w.radio.initialized ∧ (w.drained e).index = w.radio.index :=
  drain_kept _ _

/-- What the end of the work does to the radio. -/
inductive Lands (w : WiFiPower) (r : RadioIntent) (f : Flight) : RadioIntent → Prop where
  | stale : Lands w r f (r.attempted f.attempt)
  | unknown : Lands w r f { r.attempted f.attempt with initialized := false }
  | known (powered written : Bool) (problem : Option String)
      (hphase : f.phase = .done (some powered) problem) (hkey : f.key = w.key)
      (hactive : isActive w.key = true) :
      Lands w r f ((r.attempted f.attempt).apply powered written).2

/-- The radio after a step. -/
theorem Moves.radio (h : Moves w e o c) :
    (c.key = w.key ∧ c.radio = w.drained e) ∨ (c.radio = w.hosted c.key ∧ w.reads e = false ∧ ∀ written, e ≠ .finish written) ∨
      ∃ written f, e = .finish written ∧ w.flight = some f ∧ w.Observes e ∧ c.key = w.key ∧
        Lands w (w.drained e) f c.radio := by
  cases h with
  | arrived | closed | powered => exact .inl ⟨rfl, (drained_of_unread rfl).symm⟩
  | idle hunread | failed hunread => exact .inl ⟨rfl, (drained_of_unread hunread).symm⟩
  | worked f phase hf hphase hunread => exact .inl ⟨rfl, (drained_of_unread hunread).symm⟩
  | stopped written hclosed => exact .inl ⟨rfl, (drained_of_unread (by simp [WiFiPower.reads, hclosed])).symm⟩
  | read | submitted | broke => exact .inl ⟨rfl, rfl⟩
  | hosted key hunread hland => exact .inr (.inl ⟨rfl, hunread, hland⟩)
  | stale written queue f hf hseen => exact .inr (.inr ⟨written, f, rfl, hf, hseen, rfl, .stale⟩)
  | unknown written queue f hf hseen => exact .inr (.inr ⟨written, f, rfl, hf, hseen, rfl, .unknown⟩)
  | known written queue f powered error problem hf hphase hkey hactive hseen =>
      exact .inr (.inr ⟨written, f, rfl, hf, hseen, rfl, .known powered written problem hphase hkey hactive⟩)

section Lands
variable {r r' : RadioIntent} {f : Flight}

/-- The attempt does not wait any more; another choice that waits does, unless the host has its state. -/
theorem Lands.pending (h : Lands w r f r') :
    (∀ ch, r'.pending = some ch → r.pending = some ch) ∧
      ∀ powered problem, f.phase = .done (some powered) problem →
        ∀ ch, r.pending = some ch → f.attempt ≠ some ch → r'.pending = some ch ∨ powered = ch.2 := by
  cases h with
  | stale | unknown =>
      exact ⟨fun ch hc => (attempted_pending.mp hc).1,
        fun powered problem _ ch hc hother => .inl (attempted_pending.mpr ⟨hc, hother⟩)⟩
  | known powered written problem hphase hkey hactive =>
      obtain ⟨-, -, -, -, hold, hkept⟩ := apply_cases (r.attempted f.attempt) powered written
      refine ⟨fun ch hc => (attempted_pending.mp (hold ch hc)).1, ?_⟩
      intro powered' problem' hphase' ch hc hother
      cases hphase.symm.trans hphase'
      exact hkept ch (attempted_pending.mpr ⟨hc, hother⟩)

/-- Landing the work leaves the radio's index. -/
theorem Lands.index (h : Lands w r f r') : r'.index = r.index := by
  cases h with
  | stale | unknown => exact (attempted_kept r f.attempt).2.1
  | known powered written =>
      exact (apply_cases _ powered written).2.2.1.trans (attempted_kept r f.attempt).2.1

/-- A write expects its position. -/
theorem Lands.expected (h : Lands w r f r') (hwrote : r'.soft ≠ r.soft) : r'.expected = some r'.soft := by
  obtain ⟨-, -, hsoft, -⟩ := attempted_kept r f.attempt
  cases h with
  | stale | unknown => exact absurd hsoft hwrote
  | known powered written =>
      rw [← hsoft] at hwrote
      exact (apply_cases _ powered written).2.2.2.1 hwrote

/-- Only a status that is known, and current, initializes the radio. -/
theorem Lands.initialized (h : Lands w r f r') (hinit : r'.initialized = true) :
    r.initialized = true ∨ ∃ powered problem, f.phase = .done (some powered) problem ∧ f.key = w.key ∧
      isActive w.key = true := by
  cases h with
  | stale => exact .inl ((attempted_kept r f.attempt).1.symm.trans hinit)
  | unknown => cases hinit
  | known powered written problem hphase hkey hactive => exact .inr ⟨powered, problem, hphase, hkey, hactive⟩

end Lands

/-- A choice that waits was there after the read. -/
theorem Moves.pending (h : Moves w e o c) (hc : c.radio.pending = some ch) :
    (w.drained e).pending = some ch := by
  rcases h.radio with ⟨-, hradio⟩ | ⟨hradio, hunread, -⟩ | ⟨written, f, -, -, -, -, hlands⟩
  · rw [← hradio]
    exact hc
  · rw [drained_of_unread hunread]
    rw [hradio, WiFiPower.hosted] at hc
    split at hc
    · exact hc
    · cases hc
  · exact hlands.pending.1 ch hc

/-- No step moves the radio's index. -/
theorem Moves.index (h : Moves w e o c) : c.radio.index = w.radio.index := by
  rcases h.radio with ⟨-, hradio⟩ | ⟨hradio, -⟩ | ⟨written, f, -, -, -, -, hlands⟩
  · rw [hradio]
    exact (drained_kept w e).2
  · rw [hradio, WiFiPower.hosted]
    split <;> rfl
  · exact hlands.index.trans (drained_kept w e).2

/-- A write expects its position, and the step has observed an event if there was one. -/
theorem Moves.wrote (h : Moves w e o c) (hwrote : c.radio.soft ≠ (w.drained e).soft) :
    c.radio.expected = some c.radio.soft ∧ (∃ written, e = .finish written) ∧ w.Observes e := by
  rcases h.radio with ⟨-, hradio⟩ | ⟨hradio, hunread, -⟩ | ⟨written, f, he, -, hseen, -, hlands⟩
  · rw [hradio] at hwrote
    exact absurd rfl hwrote
  · rw [hradio, drained_of_unread hunread, WiFiPower.hosted] at hwrote
    split at hwrote <;> exact absurd rfl hwrote
  · exact ⟨hlands.expected hwrote, ⟨written, he⟩, hseen⟩

/-- The echo of a write is expected while no event is observed. -/
theorem Moves.echo (h : Moves w e o c) (hunseen : w.seen e = [])
    (hwaits : w.error = false → Waits w.radio w.queue)
    (hfinish : ∀ written, e = .finish written → w.error = false) :
    c.radio.expected = w.radio.expected ∧ (c.error = false → Waits c.radio c.queue) := by
  have hdrained : w.drained e = w.radio := by rw [WiFiPower.drained, hunseen]; rfl
  have hobserves : w.Observes e → w.error = true := by
    intro hseen
    by_contra herror
    exact hseen (hwaits (Bool.eq_false_iff.mpr herror)) hunseen
  cases h with
  | arrived reading =>
      refine ⟨rfl, fun herror => ?_⟩
      obtain ⟨e, he, hown⟩ := hwaits herror
      exact ⟨e, List.mem_append_left _ he, hown⟩
  | idle | closed | powered | worked | stopped => exact ⟨rfl, hwaits⟩
  | failed => exact ⟨rfl, nofun⟩
  | read raised queue hland hseen =>
      refine ⟨congrArg RadioIntent.expected hdrained, fun herror => ?_⟩
      obtain ⟨hbefore, hraised⟩ := Bool.or_eq_false_iff.mp herror
      rw [hobserves (hseen hraised)] at hbefore
      cases hbefore
  | hosted key hunread =>
      have hradio : (w.hosted key).expected = w.radio.expected ∧ (w.hosted key).index = w.radio.index := by
        rw [WiFiPower.hosted]
        split <;> exact ⟨rfl, rfl⟩
      refine ⟨hradio.1, fun herror => ?_⟩
      obtain ⟨e, he, ⟨hkind, hindex⟩, hvalid⟩ := hwaits herror
      exact ⟨e, he, ⟨hkind, hindex.trans hradio.2.symm⟩, hvalid⟩
  | submitted position queue hopen hidle hactive hseen =>
      refine ⟨congrArg RadioIntent.expected hdrained, fun herror => ?_⟩
      have hbefore : w.error = false := herror
      rw [hobserves hseen] at hbefore
      cases hbefore
  | broke written queue => exact ⟨congrArg RadioIntent.expected hdrained, nofun⟩
  | stale written queue f hf hseen | unknown written queue f hf hseen =>
      have hbefore := hfinish written rfl
      rw [hobserves hseen] at hbefore
      cases hbefore
  | known written queue f powered error problem hf hphase hkey hactive hseen =>
      have hbefore := hfinish written rfl
      rw [hobserves hseen] at hbefore
      cases hbefore

/-- The radio is initialized by a known status, and is not when the host becomes inactive. -/
theorem Moves.initialized (h : Moves w e o c) (hinit : c.radio.initialized = true)
    (hbefore : w.radio.initialized = true → isActive w.key = true) :
    isActive c.key = true ∧ (w.radio.initialized = true ∨
      ∃ written f powered problem, e = .finish written ∧ w.flight = some f ∧
        f.phase = .done (some powered) problem ∧ f.key = w.key ∧ isActive w.key = true) := by
  rcases h.radio with ⟨hkey, hradio⟩ | ⟨hradio, -⟩ | ⟨written, f, he, hf, -, hkey, hlands⟩
  · rw [hradio, (drained_kept w e).1] at hinit
    rw [hkey]
    exact ⟨hbefore hinit, .inl hinit⟩
  · rw [hradio, WiFiPower.hosted] at hinit
    split at hinit
    · next hactive => exact ⟨hactive, .inl hinit⟩
    · cases hinit
  · rw [hkey]
    rcases hlands.initialized hinit with hold | ⟨powered, problem, hphase, hsame, hactive⟩
    · rw [(drained_kept w e).1] at hold
      exact ⟨hbefore hold, .inl hold⟩
    · exact ⟨hactive, .inr ⟨written, f, powered, problem, he, hf, hphase, hsame, hactive⟩⟩

/-- A flight is an old one, or is submitted while the host is active, with the choice that waits. -/
theorem Moves.flight {f : Flight} (h : Moves w e o c) (hf : c.flight = some f) (ha : f.attempt = some ch) :
    (∃ f', w.flight = some f' ∧ f'.attempt = some ch) ∨
      (w.closed = false ∧ w.busy = false ∧ e = .fire .refresh ∧ isActive w.key = true ∧
        c.radio.pending = some ch) := by
  cases h with
  | arrived | idle | failed | closed | read | hosted => exact .inl ⟨f, hf, ha⟩
  | submitted position queue hopen hidle hactive hseen =>
      cases hf
      refine .inr ⟨hopen, hidle, rfl, hactive, ?_⟩
      dsimp only at ha
      split at ha
      · exact ha
      · cases ha
  | powered f' ch' problem hf' hphase hc =>
      cases hf
      exact .inl ⟨f', hf', ha⟩
  | worked f' phase hf' =>
      cases hf
      exact .inl ⟨f', hf', ha⟩
  | stopped | broke | stale | unknown | known => cases hf

/-- The end of the work, when another choice waits. -/
theorem Moves.landed {written powered : Bool} {f : Flight} {problem : Option String}
    (h : Moves w (.finish written) o c) (hf : w.flight = some f)
    (hphase : f.phase = .done (some powered) problem) (hc : (w.drained (.finish written)).pending = some ch)
    (hother : f.attempt ≠ some ch) : c.radio.pending = some ch ∨ powered = ch.2 := by
  rcases h.radio with ⟨-, hradio⟩ | ⟨-, -, hland⟩ | ⟨-, f', -, hf', -, -, hlands⟩
  · rw [hradio]
    exact .inl hc
  · exact absurd rfl (hland written)
  · cases hf.symm.trans hf'
    exact hlands.pending.2 powered problem hphase ch hc hother

end Choosing

/-- What led to the state of the service. -/
structure Justified (start : Service) (t : List (Turn × Deed)) (s : Service) : Prop where
  initialized : s.power.radio.initialized = true →
    isActive s.power.key = true ∧ Since Service.Step Succeeded Remains start t s
  made : ∀ c, s.power.radio.pending = some c → Once Service.Step (Made start c) start t s
  echo : unanswered t = [] ∨ ∃ soft, unanswered t = [soft] ∧ s.power.radio.expected = some soft ∧
    (s.power.error = false → Waits s.power.radio s.power.queue)
  flown : ∀ f c, s.power.flight = some f → f.attempt = some c → ∃ x ∈ t, x.2.submitted = some c

section Service
variable {start s s' : Service} {t : List (Turn × Deed)} {turn : Turn} {d : Deed}

/-- A step of the service is one of the bridge, whose write the kernel answers. -/
theorem Service.step_cases (h : s.step turn = some (d, s')) :
    s.ended turn.event = false ∧ ∃ o w', s.power.step turn.event = some (o, w') ∧
      d = s.power.deed w' turn.event o ∧ (d.wrote.isSome → answers w'.radio turn.late = true) ∧
      s' = ⟨{ w' with queue := w'.queue ++ turn.late }, s.quit || breaks w'.error turn.event⟩ := by
  obtain ⟨hended, h⟩ := Option.ite_none_left_eq_some.mp h
  obtain ⟨⟨o, w'⟩, hpower, h⟩ := Option.bind_eq_some_iff.mp h
  obtain ⟨hanswered, h⟩ := Option.ite_none_left_eq_some.mp h
  obtain ⟨hdeed, hs'⟩ := Prod.mk.inj (Option.some.inj h)
  refine ⟨Bool.eq_false_iff.mpr hended, o, w', hpower, hdeed.symm, ?_, hs'.symm⟩
  intro hwrote
  rw [← hdeed] at hwrote
  simpa [hwrote] using hanswered

/-- One more step forgets the writes before it when it observes an event. -/
theorem unanswered_snoc (t : List (Turn × Deed)) (x : Turn × Deed) :
    unanswered (t ++ [x]) = (if x.2.seen = [] then unanswered t else []) ++ x.2.wrote.toList := by
  rw [unanswered, List.foldl_append]
  rfl

/-- The kernel's answer to a write waits in the file. -/
theorem waits_of_answers {r : RadioIntent} {late : List Reading} (h : Service.answers r late = true)
    (queue : List Reading) : Waits r (queue ++ late) := by
  obtain ⟨reading, hmem, hown⟩ := List.any_eq_true.mp h
  cases reading with
  | event e =>
      obtain ⟨hfor, hvalid⟩ := Bool.and_eq_true_iff.mp hown
      exact ⟨e, List.mem_append_right _ hmem, of_decide_eq_true hfor, hvalid⟩
  | broken => cases hown

/-- A choice that waits after the read was there before it, or is made by it. -/
theorem Justified.drained {c : Choice} (h : Justified start t s) (hseen : d.seen = s.power.seen turn.event)
    (hc : (s.power.drained turn.event).pending = some c) :
    s.power.radio.pending = some c ∨ Made start c t s turn d s' := by
  rw [WiFiPower.drained, WiFiPower.seen] at hc
  split at hc
  · next hreads =>
      rcases drain_cases s.power.radio s.power.queue with ⟨hpending, -⟩ |
        ⟨c', before, ⟨r, soft⟩, after, hsplit, ⟨hchosen, hinit, hmoved, hunexpected⟩, hfirst, hsame, hpending, -⟩
      · exact .inl (hpending.symm.trans hc)
      · obtain rfl : c' = c := Option.some.inj (hpending.symm.trans hc)
        rw [WiFiPower.seen, if_pos hreads, hsplit] at hseen
        refine .inr ⟨before, r, soft, after, hseen, hchosen, hmoved, ?_, ?_⟩
        · exact (h.initialized (hsame.symm.trans hinit)).2
        · intro hnone
          have hr : r = s.power.radio := hfirst hnone
          -- The echo is expected as long as no event is observed.
          rcases h.echo with hempty | ⟨written, hlist, hexpected, -⟩
          · rw [hempty]
            exact List.not_mem_nil
          · rw [hlist, List.mem_singleton]
            rintro rfl
            exact hunexpected (hr ▸ hexpected)
  · exact .inl hc

/-- An event that waits still waits behind later ones. -/
theorem Waits.append {r : RadioIntent} {queue : List Reading} (h : Waits r queue) (late : List Reading) :
    Waits r (queue ++ late) := by
  obtain ⟨e, he, hown⟩ := h
  exact ⟨e, List.mem_append_left _ he, hown⟩

/-- The echo of the write that is unanswered is expected. -/
theorem Justified.echoes {o : List HostRequest} {w' : WiFiPower} (h : Justified start t s)
    (hmoves : Moves s.power turn.event o w'.core)
    (hfinish : ∀ written, turn.event = .finish written → s.power.error = false)
    (hseen : d.seen = s.power.seen turn.event)
    (hwrote : d.wrote = if w'.radio.soft = (s.power.drained turn.event).soft then none
      else some w'.radio.soft)
    (hanswered : d.wrote.isSome → Service.answers w'.radio turn.late = true)
    (hcore : s'.power.core = { w'.core with queue := w'.queue ++ turn.late }) :
    (if d.seen = [] then unanswered t else []) ++ d.wrote.toList = [] ∨
      ∃ soft, (if d.seen = [] then unanswered t else []) ++ d.wrote.toList = [soft] ∧
        s'.power.radio.expected = some soft ∧
        (s'.power.error = false → Waits s'.power.radio s'.power.queue) := by
  have hradio : s'.power.radio = w'.radio := congrArg Core.radio hcore
  have herror : s'.power.error = w'.error := congrArg Core.error hcore
  have hqueue : s'.power.queue = w'.queue ++ turn.late := congrArg Core.queue hcore
  rw [hradio, herror, hqueue]
  by_cases hsame : w'.radio.soft = (s.power.drained turn.event).soft
  · rw [hwrote, if_pos hsame, Option.toList_none, List.append_nil]
    by_cases hunseen : d.seen = []
    · rw [if_pos hunseen]
      rcases h.echo with hempty | ⟨soft, hlist, hexpected, hwaits⟩
      · exact .inl hempty
      · obtain ⟨hkept, hstill⟩ := hmoves.echo (hseen.symm.trans hunseen) hwaits hfinish
        exact .inr ⟨soft, hlist, hkept.trans hexpected, fun hfine => (hstill hfine).append turn.late⟩
    · exact .inl (if_neg hunseen)
  · obtain ⟨hexpected, ⟨written, he⟩, hobserves⟩ := hmoves.wrote hsame
    rw [if_neg hsame] at hwrote
    -- The file was read before the write, so the one before was answered.
    have hbase : (if d.seen = [] then unanswered t else []) = [] := by
      split
      · next hunseen =>
          rcases h.echo with hempty | ⟨-, -, -, hwaits⟩
          · exact hempty
          · exact absurd (hseen.symm.trans hunseen) (hobserves (hwaits (hfinish written he)))
      · rfl
    refine .inr ⟨w'.radio.soft, by rw [hbase, hwrote]; rfl, hexpected, fun _ => ?_⟩
    exact waits_of_answers (hanswered (by rw [hwrote]; rfl)) w'.queue

/-- Each step keeps a reason for what the state shows. -/
theorem Justified.step (h : Justified start t s) (hidle : (s.quit || s.power.closed) = false →
    s.power.busy = false → s.power.flight = none) (hrun : Service.Run start t s)
    (hstep : s.step turn = some (d, s')) : Justified start (t ++ [(turn, d)]) s' := by
  obtain ⟨hended, o, w', hpower, hdeed, hanswered, hs'⟩ := Service.step_cases hstep
  have hmoves := step_moves hpower
  have hcore : s'.power.core = { w'.core with queue := w'.queue ++ turn.late } := by rw [hs']; rfl
  have hradio : s'.power.radio = w'.radio := congrArg Core.radio hcore
  have hkey : s'.power.key = w'.key := congrArg Core.key hcore
  have hflight : s'.power.flight = w'.flight := congrArg Core.flight hcore
  have hseen : d.seen = s.power.seen turn.event := by rw [hdeed]; rfl
  refine ⟨fun hinit => ?_, fun c hc => ?_, ?_, fun f c hf ha => ?_⟩
  · rw [hradio] at hinit
    obtain ⟨hactive, hsince⟩ := hmoves.initialized hinit fun hold => (h.initialized hold).1
    have hremains : isActive s'.power.key = true := by rw [hkey]; exact hactive
    refine ⟨hremains, ?_⟩
    rcases hsince with hold | hsucceeded
    · exact (h.initialized hold).2.later hstep hremains
    · exact Since.now hrun hstep hsucceeded
  · rw [hradio] at hc
    rcases h.drained hseen (hmoves.pending hc) with hold | hmade
    · exact (h.made c hold).later hstep
    · exact Since.now hrun hstep hmade
  · have hfinish : ∀ written, turn.event = .finish written → s.power.error = false := by
      intro written he
      rw [he] at hended
      exact (Bool.or_eq_false_iff.mp hended).2
    have hwrote : d.wrote = if w'.radio.soft = (s.power.drained turn.event).soft then none
        else some w'.radio.soft := by rw [hdeed]; rfl
    rw [unanswered_snoc]
    exact h.echoes hmoves hfinish hseen hwrote hanswered hcore
  · rw [hflight] at hf
    rcases hmoves.flight hf ha with ⟨f', hf', ha'⟩ | ⟨hopen, hbusy, he, -, -⟩
    · obtain ⟨x, hx, hsubmitted⟩ := h.flown f' c hf' ha'
      exact ⟨x, List.mem_append_left _ hx, hsubmitted⟩
    · refine ⟨(turn, d), by simp, ?_⟩
      have hquit : s.quit = false := by rw [he] at hended; exact hended
      have hnone : s.power.flight = none := hidle (by rw [hquit, hopen]; rfl) hbusy
      rw [hdeed]
      simp only [WiFiPower.deed]
      rw [hnone, hf]
      exact ha

/-- The serials that were sent. -/
def serials (t : List (Turn × Deed)) : List Nat := (t.filterMap fun x => x.2.sent).map Prod.fst

/-- One more step adds the serial it sends, if it sends one. -/
theorem serials_snoc (t : List (Turn × Deed)) (x : Turn × Deed) :
    serials (t ++ [x]) = serials t ++ (x.2.sent.map Prod.fst).toList := by
  rw [serials, List.filterMap_append, List.map_append]
  cases hx : x.2.sent <;> simp [serials, hx]

/-- What every run keeps. -/
structure Faithful (start : Service) (t : List (Turn × Deed)) (s : Service) : Prop where
  run : Service.Run start t s
  booked : Booked (serials t) s.power.radio s.power.flight s.power.busy (s.quit || s.power.closed)
  justified : Justified start t s

/-- Each step keeps the books, and the reasons for what they say. -/
theorem Faithful.step (h : Faithful start t s) (hstep : s.step turn = some (d, s')) :
    Faithful start (t ++ [(turn, d)]) s' where
  run := h.run.append (.one hstep)
  booked := by
    obtain ⟨hended, o, w', hpower, hdeed, -, hs'⟩ := Service.step_cases hstep
    have hbooked := (step_moves hpower).booked h.booked hended
    rw [serials_snoc, hdeed, hs']
    exact hbooked
  justified := h.justified.step h.booked.idle h.run hstep

/-- A new service has sent nothing and has nothing to account for. -/
theorem faithful_new (index : Nat) (soft : Int) : Faithful (.new index soft) [] (.new index soft) where
  run := .refl _
  booked :=
    { sorted := .nil
      bounded := List.forall_mem_nil _
      pending := fun c hc => by cases hc
      idle := fun _ _ => rfl
      waiting := fun _ _ c hc => by cases hc
      flown := fun f hf => by cases hf
      attempt := fun f hf => by cases hf }
  justified :=
    { initialized := fun hinit => by cases hinit
      made := fun c hc => by cases hc
      echo := .inl rfl
      flown := fun f c hf => by cases hf }

end Service

/-- **The choices.**  In every run the serials that are sent increase, so that none is sent twice.  What is
sent was submitted; a choice is submitted while the host is active, and was made by an event that changed
the position, while the host was active and its status known, and that was not the first event since a
write of its position.  When the host tells its state after the work, a choice that is not that of the
work still waits, unless the host has its state. -/
theorem choices_submitted (index : Nat) (soft : Int) (t : List (Turn × Deed)) (s : Service)
    (h : (Service.new index soft).Run t s) :
    (serials t).Pairwise (· < ·) ∧
    ∀ turn d s', s.step turn = some (d, s') →
      (∀ c, d.sent = some c → ∃ x ∈ t, x.2.submitted = some c) ∧
      (∀ c, d.submitted = some c → isActive s.power.key = true ∧
        Once Service.Step (Made (.new index soft) c) (.new index soft) (t ++ [(turn, d)]) s') ∧
      ∀ written f powered problem c, turn.event = .finish written → s.power.flight = some f →
        f.phase = .done (some powered) problem → (s.power.drained turn.event).pending = some c →
        f.attempt ≠ some c → s'.power.radio.pending = some c ∨ powered = c.2 := by
  have hfaithful : Faithful (.new index soft) t s := by
    have hrun := Steps.invariant_trace (I := fun s t => Faithful (.new index soft) t s)
      (fun hi hs => hi.step hs) h (faithful_new index soft)
    exact hrun
  refine ⟨hfaithful.booked.sorted, fun turn d s' hstep => ?_⟩
  obtain ⟨hended, o, w', hpower, hdeed, -, hs'⟩ := Service.step_cases hstep
  have hmoves := step_moves hpower
  have hradio : s'.power.radio = w'.radio := by rw [hs']
  refine ⟨fun c hc => ?_, fun c hc => ?_, ?_⟩
  · have hsends : s.power.sends o = some c := by rw [← hc, hdeed]; rfl
    rw [WiFiPower.sends.eq_def] at hsends
    split at hsends
    · obtain ⟨f, hf, ha⟩ := Option.bind_eq_some_iff.mp hsends
      exact hfaithful.justified.flown f c hf ha
    · cases hsends
  · have hsubmitted : (if s.power.flight.isNone then w'.flight.bind Flight.attempt else none) = some c := by
      rw [← hc, hdeed]
      rfl
    obtain ⟨hnone, hsubmitted⟩ := Option.ite_none_right_eq_some.mp hsubmitted
    obtain ⟨f, hf, ha⟩ := Option.bind_eq_some_iff.mp hsubmitted
    rcases hmoves.flight hf ha with ⟨f', hf', -⟩ | ⟨-, -, -, hactive, hpending⟩
    · rw [hf'] at hnone
      cases hnone
    · exact ⟨hactive, (hfaithful.step hstep).justified.made c (by rw [hradio]; exact hpending)⟩
  · intro written f powered problem c he hf hphase hc hother
    rw [hradio]
    rw [he] at hmoves hc
    exact hmoves.landed hf hphase hc hother

/-- The user blocks the radio: the choice is submitted. -/
theorem choices_submitted_blocked :
    ∃ t s turn d s', (Service.new 0 0).Run t s ∧ s.step turn = some (d, s') ∧ d.submitted = some (1, false) ∧
      isActive s.power.key = true := by
  have hplayed : (play Service.step (.new 0 0) (blocked.dropLast.map fun e => ⟨e, []⟩)).map (fun r =>
      (r.2.step ⟨.fire .refresh, []⟩).map fun x => x.1.submitted) = some (some (some (1, false))) := by decide
  obtain ⟨⟨t, s⟩, hplay, hs⟩ := Option.map_eq_some_iff.mp hplayed
  obtain ⟨⟨d, s'⟩, hstep, hd⟩ := Option.map_eq_some_iff.mp hs
  have hrun : (Service.new 0 0).Run t s := .of_play hplay
  exact ⟨t, s, _, d, s', hrun, hstep, hd,
    (((choices_submitted 0 0 t s hrun).2 _ d s' hstep).2.1 (1, false) hd).1⟩

end Ashacky.Devices
