import Ashacky.Support.DelayedWork
import Ashacky.Wifi.Carrier

/-!
# Wi-Fi — Timers

The two delayed works of the driver, on a clock.  An entry point runs whole, under the wiphy mutex, but
time passes in it: `jiffies` is read for a deadline, and again when `mod_delayed_work` sets the timer.  A
worker may have the work and wait for the mutex while other entry points run.

The stack closes the device under RTNL: the device is not opened again, nor closed, before `stop_device`
has waited for both workers, and cfg80211 scans and disconnects only while the device runs.

* `Timely`: the deadline of a pending request is as long after its beginning as it should be, and its
  work is on its way or its timer goes off by then.
* `timers`: in every run.
-/

namespace Ashacky.Wifi
open Ashacky.Support

namespace Priv

/-- A request of the kind is pending. -/
def Pending (p : Priv) : Work → Prop
  | .timeout => p.scan.isSome = true
  | .connectionTimeout => p.connection.operation ≠ .none

instance (p : Priv) : (w : Work) → Decidable (p.Pending w)
  | .timeout => inferInstanceAs (Decidable (_ = _))
  | .connectionTimeout => inferInstanceAs (Decidable (_ ≠ _))

def deadline (p : Priv) : Work → UInt64
  | .timeout => p.scanDeadline
  | .connectionTimeout => p.connectionDeadline

end Priv

/-- The ticks a request has. -/
def span (hz : UInt64) : Work → Nat
  | .timeout => 45 * hz.toNat
  | .connectionTimeout => 90 * hz.toNat

/-- The delay of the work that the calls set, if they do. -/
def arms (calls : List Call) (w : Work) : Option UInt64 :=
  calls.findSome? fun
    | .modDelayedWork work delay => if work = w then some delay else none
    | _ => none

/-! ### The driver on a clock -/

/-- A delayed work; when the request began that it is for, and how many ticks passed between the reading
of the counter and the setting of the timer. -/
structure Watch where
  work : DelayedWork
  begun : Nat
  late : Nat
deriving DecidableEq

structure Timed where
  driver : Priv
  now : Nat
  watch : Work → Watch
  /-- The works that `stop_device` has not cancelled yet. -/
  stopping : List Work

inductive TimedEvent where
  /-- An entry point that is not a worker; time passes in it. -/
  | entry (e : Event) (ticks : Nat)
  | wait (ticks : Nat)
  /-- The timer of the work goes off. -/
  | expire (w : Work)
  /-- A worker takes the work. -/
  | take (w : Work)
  /-- The worker gets the mutex; time passes until it reads the counter again, and until it sets the
  timer. -/
  | work (w : Work) (reread set : Nat)
  /-- `stop_device` cancels the work. -/
  | cancel (w : Work)

/-- The entry point is one, and reads the counter. -/
def Event.reads (jiffies : UInt64) : Event → Bool
  | .startScan _ j | .connectNetwork _ j | .disconnectNetwork _ j | .getStation _ j | .dumpStation _ j
  | .control _ _ _ j _ => decide (j = jiffies)
  | .scanTimeout _ _ | .connectionTimeout _ _ => false
  | _ => true

/-- The entry point of the worker. -/
def Work.event (jiffies later : UInt64) : Work → Event
  | .timeout => .scanTimeout jiffies later
  | .connectionTimeout => .connectionTimeout jiffies later

namespace Timed

/-- After `lh_init`. -/
def new (lower : Option Lower) (now : Nat) : Timed := ⟨.init lower, now, fun _ => ⟨.idle, now, 0⟩, []⟩

/-- What the stack and cfg80211 call. -/
def permits (s : Timed) : Event → Bool
  | .startScan _ _ | .disconnectNetwork _ _ => s.driver.running
  | .openDevice | .stopDevice => s.stopping.isEmpty
  | _ => true

/-- The works that are cancelled after the mutex is released. -/
def cancels : Event → List Work
  | .stopDevice => [.timeout, .connectionTimeout]
  | _ => []

/-- After an entry point. -/
def entered (s : Timed) (e : Event) (ticks : Nat) (r : Output × Priv) : Timed where
  driver := r.2
  now := s.now + ticks
  watch w :=
    match arms r.1.calls w with
    | some delay => ⟨(s.watch w).work.modify (s.now + ticks) delay, s.now, ticks⟩
    | none => s.watch w
  stopping := s.stopping ++ cancels e

/-- After a worker, which has set its timer or not. -/
def worked (s : Timed) (w : Work) (reread set : Nat) (r : Output × Priv) : Timed :=
  let watch :=
    match arms r.1.calls w with
    | some delay =>
        { s.watch w with
          work := ((s.watch w).work.modify (s.now + reread + set) delay).finish
          late := reread + set }
    | none => { s.watch w with work := (s.watch w).work.finish }
  { s with driver := r.2, now := s.now + reread + set, watch := Function.update s.watch w watch }

/-- A step, with the calls the driver made. -/
def step (hz : UInt64) (s : Timed) : TimedEvent → Option (List Call × Timed)
  | .entry e ticks =>
      if e.reads (.ofNat s.now) && s.permits e then
        let r := s.driver.step hz e
        some (r.1.calls, s.entered e ticks r)
      else none
  | .wait ticks => some ([], { s with now := s.now + ticks })
  | .expire w =>
      ((s.watch w).work.expire s.now).map fun work =>
        ([], { s with watch := Function.update s.watch w { s.watch w with work := work } })
  | .take w =>
      (s.watch w).work.take.map fun work =>
        ([], { s with watch := Function.update s.watch w { s.watch w with work := work } })
  | .work w reread set =>
      if (s.watch w).work.running then
        let r := s.driver.step hz (w.event (.ofNat s.now) (.ofNat (s.now + reread)))
        some (r.1.calls, s.worked w reread set r)
      else none
  | .cancel w =>
      if s.stopping.head? = some w then
        (s.watch w).work.cancel.map fun work =>
          ([], { s with
            watch := Function.update s.watch w { s.watch w with work := work }
            stopping := s.stopping.tail })
      else none

/-- When the request of the kind is to end. -/
def due (hz : UInt64) (s : Timed) (w : Work) : Nat := (s.watch w).begun + span hz w

/-- The counter is not half its range past the deadline of a pending request. -/
def Near (hz : UInt64) (s : Timed) : Prop := ∀ w, s.driver.Pending w → s.now < s.due hz w + 2 ^ 63

/-- A run of the driver on the clock. -/
abbrev Run (hz : UInt64) : Timed → List (TimedEvent × List Call) → Timed → Prop :=
  Steps fun s e o s' => s.step hz e = some (o, s') ∧ s'.Near hz

end Timed

/-! ### What an entry point does to the requests -/

section Entries
variable {hz : UInt64} {p p' : Priv} {e : Event} {o : Output}

/-- The event begins a request. -/
def Event.begins : Event → Bool
  | .startScan _ _ | .connectNetwork _ _ | .disconnectNetwork _ _ => true
  | _ => false

/-- What begins a scan or an operation is a request. -/
theorem isRequest_of_begins (h : e.begins = true) : e.isRequest = true := by
  cases e with
  | startScan | connectNetwork | disconnectNetwork => rfl
  | _ => cases h

/-- Nothing but its beginning makes a request pending, or sets its deadline. -/
theorem Transition.deadline (h : Transition hz p e o p') (he : e.begins = false) (w : Work) :
    (p'.Pending w → p.Pending w) ∧ p'.deadline w = p.deadline w := by
  cases h with
  | scanStarted | connectStarted | disconnectStarted => cases he
  | failed | quiet | linkDown | roamed | sampled => cases w <;> exact ⟨id, rfl⟩
  | scanFinished =>
      cases w with
      | timeout => exact ⟨nofun, rfl⟩
      | connectionTimeout => exact ⟨id, rfl⟩
  | established | ended =>
      cases w with
      | timeout => exact ⟨id, rfl⟩
      | connectionTimeout => exact ⟨fun hpending => absurd rfl hpending, rfl⟩
  | stopped hq =>
      cases w with
      | timeout =>
          rcases hq with ⟨-, rfl, -⟩ | ⟨-, rfl, -⟩ <;> exact ⟨nofun, rfl⟩
      | connectionTimeout =>
          rcases hq with ⟨-, rfl, -⟩ | ⟨-, rfl, -⟩
          · exact ⟨fun hpending => absurd rfl hpending, rfl⟩
          · exact ⟨id, rfl⟩

/-- The call sets no timer. -/
def Call.isArming : Call → Bool
  | .modDelayedWork _ _ => true
  | _ => false

/-- Calls that arm no timer leave each as it is. -/
theorem arms_none {calls : List Call} (h : ∀ c ∈ calls, c.isArming = false) (w : Work) :
    arms calls w = none := by
  refine List.findSome?_eq_none_iff.mpr fun c hc => ?_
  have hc' := h c hc
  cases c <;> first | rfl | cases hc'

/-- What is told to the kernel when a request ends. -/
theorem finishScan_arming (p : Priv) (aborted : Bool) :
    ∀ c ∈ (p.finishScan aborted).1, c.isArming = false := by
  rw [Priv.finishScan]
  split <;> simp [Call.isArming]

/-- Finishing a connection arms no timer. -/
theorem finishConnection_arming (p : Priv) (status : UInt16) (bssid : Option Address) :
    ∀ c ∈ (p.finishConnection status bssid).1, c.isArming = false := by
  rw [Priv.finishConnection]
  dsimp only
  split
  · exact List.forall_mem_nil _
  · split
    · simp [Call.isArming]
    · dsimp only
      split <;> simp [Call.isArming]

/-- Ending the association arms no timer. -/
theorem endCalls_arming (p : Priv) (status : UInt16) (bssid : Option Address) :
    ∀ c ∈ p.endCalls status bssid, c.isArming = false := by
  rw [Priv.endCalls]
  split
  · exact List.forall_mem_nil _
  · simp [Call.isArming]
  · split <;> simp [Call.isArming]

/-- A link report arms no timer. -/
theorem reportLink_arming (p : Priv) (u : LinkInput) (informed : Bool) :
    ∀ c ∈ (p.reportLink u informed).1.calls, c.isArming = false := by
  unfold Priv.reportLink
  dsimp only
  repeat' split
  all_goals simp [Priv.fail, Call.isArming]

/-- Publishing a network arms no timer. -/
theorem publish_arming (p : Priv) (capable copied : Bool) (buffer : Data) (informed : Bool) :
    ∀ c ∈ (p.publish capable copied buffer informed).1.calls, c.isArming = false := by
  unfold Priv.publish
  dsimp only
  repeat' split
  all_goals simp [Priv.fail, Call.isArming]

/-- No command of the bridge arms a timer. -/
theorem control_arming (p : Priv) (file : Nat) (capable copied : Bool) (jiffies : UInt64) (cmd : Command) :
    ∀ c ∈ (p.control file capable copied jiffies cmd).1.calls, c.isArming = false := by
  unfold Priv.control
  cases capable
  · exact List.forall_mem_nil _
  cases copied
  · cases cmd <;> exact List.forall_mem_nil _
  cases cmd with
  | unknown | getScan | getConnection | getCapabilities | getLink => exact List.forall_mem_nil _
  | reportLink input informed => exact reportLink_arming p input informed
  | finishScan sequence | abortScan sequence =>
      change ∀ c ∈ (p.completeScan sequence _).1.calls, c.isArming = false
      rw [Priv.completeScan]
      split
      · exact List.forall_mem_nil _
      · exact finishScan_arming p _
  | connectionResult completion =>
      change ∀ c ∈ (p.completeConnection completion).1.calls, c.isArming = false
      rw [Priv.completeConnection]
      split
      · exact List.forall_mem_nil _
      split
      · exact List.forall_mem_nil _
      split
      · exact List.forall_mem_nil _
      · exact finishConnection_arming p _ _
  | signal sample =>
      change ∀ c ∈ (p.sample sample jiffies).1.calls, c.isArming = false
      rw [Priv.sample]
      split
      · exact List.forall_mem_nil _
      split <;> exact List.forall_mem_nil _

/-- Stopping the device arms no timer. -/
theorem stopDevice_arming (p : Priv) : ∀ c ∈ p.stopDevice.1.calls, c.isArming = false := by
  rw [Priv.stopDevice]
  dsimp only
  have hscans := finishScan_arming { p with running := false } true
  generalize Priv.finishScan _ true = r at hscans
  obtain ⟨scans, p₁⟩ := r
  have hconnections := finishConnection_arming p₁ statusUnspecifiedFailure none
  dsimp only at hscans ⊢
  generalize p₁.finishConnection statusUnspecifiedFailure none = r at hconnections
  obtain ⟨connections, p₂⟩ := r
  dsimp only at hconnections ⊢
  simp only [List.mem_append]
  rintro c (((hc | hc) | hc) | hc)
  · exact hscans c hc
  · exact hconnections c hc
  · split at hc
    · obtain rfl := List.mem_singleton.mp hc
      rfl
    · cases hc
  · simp only [List.mem_cons, List.not_mem_nil, or_false] at hc
    rcases hc with rfl | rfl <;> rfl

/-- A timer is only armed by what begins a scan or an operation. -/
theorem step_arming (hz : UInt64) (p : Priv) {jiffies : UInt64} (hreads : e.reads jiffies = true)
    (hbegins : e.begins = false) : ∀ c ∈ (p.step hz e).1.calls, c.isArming = false := by
  cases e with
  | startScan | connectNetwork | disconnectNetwork => cases hbegins
  | scanTimeout | connectionTimeout => cases hreads
  | abortScan => exact finishScan_arming p true
  | getStation mac j =>
      change ∀ c ∈ (p.getStation hz mac j).1.calls, c.isArming = false
      rw [Priv.getStation]
      split <;> exact List.forall_mem_nil _
  | dumpStation idx j =>
      change ∀ c ∈ (p.dumpStation hz idx j).1.calls, c.isArming = false
      rw [Priv.dumpStation, Priv.getStation]
      split
      · exact List.forall_mem_nil _
      split <;> exact List.forall_mem_nil _
  | control file capable copied j cmd => exact control_arming p file capable copied j cmd
  | publish capable copied buffer informed => exact publish_arming p capable copied buffer informed
  | bridgeOpen file capable =>
      change ∀ c ∈ (p.bridgeOpen file capable).1.calls, c.isArming = false
      rw [Priv.bridgeOpen]
      split <;> exact List.forall_mem_nil _
  | bridgePoll file capable =>
      change ∀ c ∈ (p.bridgePoll file capable).1.calls, c.isArming = false
      rw [Priv.bridgePoll]
      split <;> exact List.forall_mem_nil _
  | bridgeRelease | openDevice => exact List.forall_mem_nil _
  | stopDevice => exact stopDevice_arming p
  | lowerEvent event lower =>
      change ∀ c ∈ (p.lowerEvent event lower).1.calls, c.isArming = false
      rw [Priv.lowerEvent]
      split
      · exact List.forall_mem_nil _
      · cases event <;> exact List.forall_mem_nil _

@[simp] theorem ofNat_span_timeout : UInt64.ofNat (span hz .timeout) = 45 * hz := by
  rw [span, UInt64.ofNat_mul, UInt64.ofNat_toNat]
  rfl

@[simp] theorem ofNat_span_connection : UInt64.ofNat (span hz .connectionTimeout) = 90 * hz := by
  rw [span, UInt64.ofNat_mul, UInt64.ofNat_toNat]
  rfl

/-- What an entry point does to the requests of a kind: it begins one and sets its timer, or it begins
none and leaves the timer. -/
theorem step_requests {jiffies : UInt64} (h : p.step hz e = (o, p')) (hreads : e.reads jiffies = true)
    (w : Work) :
    (arms o.calls w = none ∧ (p'.Pending w → p.Pending w ∧ p'.deadline w = p.deadline w)) ∨
      (arms o.calls w = some (.ofNat (span hz w)) ∧ e.begins = true ∧
        p'.deadline w = jiffies + .ofNat (span hz w)) := by
  have ht : Transition hz p e o p' := by
    have ht := step_transition hz p e
    rwa [h] at ht
  cases hbegins : e.begins with
  | false =>
      obtain ⟨hpending, hdeadline⟩ := ht.deadline hbegins w
      have hcalls := step_arming hz p hreads hbegins
      rw [h] at hcalls
      exact .inl ⟨arms_none hcalls w, fun hp => ⟨hpending hp, hdeadline⟩⟩
  | true =>
      have hread : ∀ {j}, decide (j = jiffies) = true → j = jiffies := of_decide_eq_true
      cases ht with
      | failed => exact .inl ⟨rfl, fun hp => ⟨hp, rfl⟩⟩
      | scanStarted hscan =>
          obtain rfl := hread hreads
          cases w with
          | timeout => exact .inr ⟨by rw [ofNat_span_timeout]; rfl, rfl, by rw [ofNat_span_timeout]; rfl⟩
          | connectionTimeout => exact .inl ⟨rfl, fun hp => ⟨hp, rfl⟩⟩
      | connectStarted hscan =>
          obtain rfl := hread hreads
          cases w with
          | timeout => exact .inl ⟨rfl, fun hp => ⟨hp, rfl⟩⟩
          | connectionTimeout =>
              exact .inr ⟨by rw [ofNat_span_connection]; rfl, rfl, by rw [ofNat_span_connection]; rfl⟩
      | disconnectStarted hop hq =>
          obtain rfl := hread hreads
          have hended := arms_none (endCalls_arming p statusUnspecifiedFailure none)
          cases w with
          | timeout =>
              refine .inl ⟨?_, ?_⟩
              · rw [List.append_assoc, arms, List.findSome?_append, ← arms, hended]
                rfl
              · rw [hq]
                split <;> exact fun hp => ⟨hp, rfl⟩
          | connectionTimeout =>
              refine .inr ⟨?_, rfl, by rw [ofNat_span_connection]; rfl⟩
              rw [List.append_assoc, arms, List.findSome?_append, ← arms, hended, ofNat_span_connection]
              rfl
      | quiet _ _ _ _ he | scanFinished he | ended he =>
          rw [isRequest_of_begins hbegins] at he
          cases he
      | established | linkDown | roamed | sampled | stopped => cases hbegins

/-- A worker whose request has not ended sets its timer again. -/
theorem worker_waits {p : Priv} {w : Work} {jiffies : UInt64} (hpending : p.Pending w)
    (hbefore : before jiffies (p.deadline w) = true) (later : UInt64) :
    p.step hz (w.event jiffies later) = (⟨.ok .none, [.modDelayedWork w (p.deadline w - later)]⟩, p) := by
  cases w with
  | timeout => exact if_pos ⟨hpending, hbefore⟩
  | connectionTimeout => exact if_pos ⟨hpending, hbefore⟩

/-- Otherwise it ends the request, if there is one. -/
theorem worker_ends (hz : UInt64) {p : Priv} {w : Work} {jiffies : UInt64}
    (hend : ¬ (p.Pending w ∧ before jiffies (p.deadline w) = true)) (later : UInt64) :
    ∃ calls p', p.step hz (w.event jiffies later) = (⟨.ok .none, calls⟩, p') ∧ arms calls w = none ∧
      ¬ p'.Pending w ∧ p'.running = p.running ∧
      ∀ v, (v ≠ w → (p'.Pending v ↔ p.Pending v)) ∧ p'.deadline v = p.deadline v := by
  cases w with
  | timeout =>
      refine ⟨(p.finishScan true).1, (p.finishScan true).2, if_neg hend,
        arms_none (finishScan_arming p true) _, ?_⟩
      rw [Priv.finishScan_eq]
      refine ⟨nofun, rfl, fun v => ?_⟩
      cases v with
      | timeout => exact ⟨fun hne => absurd rfl hne, rfl⟩
      | connectionTimeout => exact ⟨fun _ => .rfl, rfl⟩
  | connectionTimeout =>
      refine ⟨(p.finishConnection statusUnspecifiedFailure none).1,
        (p.finishConnection statusUnspecifiedFailure none).2, if_neg hend,
        arms_none (finishConnection_arming p _ none) _, ?_⟩
      by_cases hop : p.connection.operation = .none
      · rw [Priv.finishConnection_none hop]
        exact ⟨not_not.mpr hop, rfl, fun v => ⟨fun _ => .rfl, rfl⟩⟩
      · rw [Priv.finishConnection_ended none hop fun _ => by decide]
        refine ⟨not_not.mpr rfl, rfl, fun v => ?_⟩
        cases v with
        | timeout => exact ⟨fun _ => .rfl, rfl⟩
        | connectionTimeout => exact ⟨fun hne => absurd rfl hne, rfl⟩

/-- A device that is closed stays closed until the stack opens it. -/
theorem step_running (p : Priv) {jiffies : UInt64} (hreads : e.reads jiffies = true) (hopen : e ≠ .openDevice)
    (hclosed : p.running = false) : (p.step hz e).2.running = false := by
  by_cases he : e.ofRadio = true
  · rcases step_path hz p he with ⟨-, hpath⟩ | ⟨-, bssid, hestablished⟩
    · exact hpath.running.trans hclosed
    · rw [hestablished]
      exact hclosed
  · cases e with
    | openDevice => exact absurd rfl hopen
    | stopDevice => exact (stopDevice_rest p).1
    | lowerEvent event lower =>
        change (p.lowerEvent event lower).2.running = _
        rw [Priv.lowerEvent]
        split
        · exact hclosed
        · cases event <;> exact hclosed
    | _ => exact absurd rfl he

/-- A device that was closed runs no request. -/
theorem stopDevice_pending (p : Priv) : ∀ w, ¬ p.stopDevice.2.Pending w := by
  obtain ⟨-, hscan, hop, -, -⟩ := stopDevice_rest p
  intro w
  cases w with
  | timeout =>
      rw [Priv.Pending, hscan]
      nofun
  | connectionTimeout => exact not_not.mpr hop

end Entries

/-! ### Runs -/

/-- The deadline of a pending request is that of its kind, and its work is on its way or its timer goes
off by then, but for the ticks that passed while it was set.  No request is pending while the device is
being closed. -/
structure Timely (hz : UInt64) (s : Timed) : Prop where
  deadline : ∀ w, s.driver.Pending w → s.driver.deadline w = .ofNat (s.due hz w)
  begun : ∀ w, s.driver.Pending w → (s.watch w).begun ≤ s.now
  covered : ∀ w, s.driver.Pending w → (s.watch w).work.Covers (s.due hz w + (s.watch w).late)
  closed : s.stopping ≠ [] → s.driver.running = false ∧ ∀ w, ¬ s.driver.Pending w

section Runs
variable {hz : UInt64} {s s' : Timed} {o : List Call}

/-- One work is handed on, set again or taken back. -/
theorem Timely.updates {w : Work} {p : Priv} {now : Nat} {watch : Watch} {stopping : List Work}
    (h : Timely hz s) (hnow : s.now ≤ now) (hbegun : watch.begun = (s.watch w).begun)
    (hdriver : ∀ v, (p.Pending v → s.driver.Pending v) ∧ p.deadline v = s.driver.deadline v)
    (hrunning : p.running = s.driver.running)
    (hwork : p.Pending w → watch.work.Covers (s.due hz w + watch.late))
    (hstopping : stopping ≠ [] → s.stopping ≠ []) :
    Timely hz ⟨p, now, Function.update s.watch w watch, stopping⟩ := by
  have hsame : ∀ v, (Function.update s.watch w watch v).begun = (s.watch v).begun := by
    intro v
    rw [Function.update_apply]
    split
    · next hv => rw [hbegun, hv]
    · rfl
  have hdue : ∀ v, (⟨p, now, Function.update s.watch w watch, stopping⟩ : Timed).due hz v = s.due hz v :=
    fun v => congrArg (· + span hz v) (hsame v)
  refine ⟨fun v hv => ?_, fun v hv => ?_, fun v hv => ?_, fun hs => ?_⟩
  · rw [hdue]
    exact (hdriver v).2.trans (h.deadline v ((hdriver v).1 hv))
  · exact (hsame v).le.trans ((h.begun v ((hdriver v).1 hv)).trans hnow)
  · rw [hdue]
    dsimp only
    rw [Function.update_apply]
    split
    · next heq =>
        subst heq
        exact hwork hv
    · exact h.covered v ((hdriver v).1 hv)
  · obtain ⟨hclosed, hnone⟩ := h.closed (hstopping hs)
    exact ⟨hrunning.trans hclosed, fun v hv => hnone v ((hdriver v).1 hv)⟩

/-- A work is handed on, or taken back. -/
theorem Timely.reworks {w : Work} {work : DelayedWork} {stopping : List Work} (h : Timely hz s)
    (hwork : s.driver.Pending w → work.Covers (s.due hz w + (s.watch w).late))
    (hstopping : stopping ≠ [] → s.stopping ≠ []) :
    Timely hz { s with
      watch := Function.update s.watch w { s.watch w with work := work }, stopping := stopping } :=
  h.updates le_rfl rfl (fun _ => ⟨id, rfl⟩) rfl hwork hstopping

/-- While the device is being closed, it is not opened and no request begins. -/
theorem entry_rest {p : Priv} {e : Event} {jiffies : UInt64} (hreads : e.reads jiffies = true)
    (hopen : e ≠ .openDevice) (hscan : ∀ request j, e ≠ .startScan request j)
    (hdisconnect : ∀ reason j, e ≠ .disconnectNetwork reason j) (hclosed : p.running = false)
    (hrest : ∀ w, ¬ p.Pending w) :
    (p.step hz e).2.running = false ∧ ∀ w, ¬ (p.step hz e).2.Pending w := by
  refine ⟨step_running p hreads hopen hclosed, fun w hw => ?_⟩
  rcases step_requests (rfl : p.step hz e = _) hreads w with ⟨-, hkept⟩ | ⟨harms, hbegins, -⟩
  · exact hrest w (hkept hw).1
  · cases e with
    | startScan request j => exact hscan request j rfl
    | disconnectNetwork reason j => exact hdisconnect reason j rfl
    | connectNetwork sme j =>
        have hdown : p.connectNetwork hz sme j = p.fail .ENETDOWN := by
          rw [Priv.connectNetwork, if_pos (by simp [hclosed])]
        change arms (p.connectNetwork hz sme j).1.calls w = _ at harms
        rw [hdown] at harms
        cases harms
    | _ => cases hbegins

/-- A timer that is set for its span goes off no later than the span and the slack. -/
theorem expiry_span_le (now ticks : Nat) (w : Work) :
    expiry (now + ticks) (.ofNat (span hz w)) ≤ now + span hz w + ticks := by
  have hle : (UInt64.ofNat (span hz w)).toNat ≤ span hz w := by
    rw [UInt64.toNat_ofNat']
    exact Nat.mod_le _ _
  unfold expiry
  split <;> omega

/-- An entry point keeps the timers in step with the deadlines. -/
theorem Timely.entry {e : Event} {ticks : Nat} (h : Timely hz s)
    (hstep : s.step hz (.entry e ticks) = some (o, s')) : Timely hz s' := by
  obtain ⟨hguard, heq⟩ := Option.ite_none_right_eq_some.mp hstep
  obtain ⟨hreads, hpermits⟩ := Bool.and_eq_true_iff.mp hguard
  obtain rfl : s.entered e ticks (s.driver.step hz e) = s' := (Prod.mk.inj (Option.some.inj heq)).2
  -- While the device is being closed, no entry point begins anything.
  have hrest : s.stopping ++ Timed.cancels e ≠ [] → (s.driver.step hz e).2.running = false ∧
      ∀ w, ¬ (s.driver.step hz e).2.Pending w := by
    intro hstopping
    by_cases hstop : e = .stopDevice
    · rw [hstop]
      exact ⟨(stopDevice_rest s.driver).1, stopDevice_pending s.driver⟩
    · have hcancels : Timed.cancels e = [] := by cases e <;> first | rfl | exact absurd rfl hstop
      rw [hcancels, List.append_nil] at hstopping
      obtain ⟨hclosed, hnone⟩ := h.closed hstopping
      refine entry_rest hreads ?_ ?_ ?_ hclosed hnone
      · rintro rfl
        exact hstopping (List.isEmpty_iff.mp hpermits)
      · rintro request j rfl
        rw [Timed.permits, hclosed] at hpermits
        cases hpermits
      · rintro reason j rfl
        rw [Timed.permits, hclosed] at hpermits
        cases hpermits
  rcases hr : s.driver.step hz e with ⟨output, p⟩
  rw [hr] at hrest
  -- A work is armed anew, with its deadline, or it stays what it was.
  have hrequests := fun w => step_requests hr hreads w
  refine ⟨fun w hw => ?_, fun w hw => ?_, fun w hw => ?_, hrest⟩ <;>
    rcases hrequests w with ⟨harms, hkept⟩ | ⟨harms, -, hdeadline⟩
  · obtain ⟨hpending, hsame⟩ := hkept hw
    have hdue : (s.entered e ticks (output, p)).due hz w = s.due hz w := by
      rw [Timed.due, Timed.entered]
      dsimp only
      rw [harms]
      rfl
    rw [hdue]
    exact hsame.trans (h.deadline w hpending)
  · have hdue : (s.entered e ticks (output, p)).due hz w = s.now + span hz w := by
      rw [Timed.due, Timed.entered]
      dsimp only
      rw [harms]
    rw [hdue, UInt64.ofNat_add]
    exact hdeadline
  · rw [Timed.entered]
    dsimp only
    rw [harms]
    exact (h.begun w (hkept hw).1).trans (Nat.le_add_right _ _)
  · rw [Timed.entered]
    dsimp only
    rw [harms]
    exact Nat.le_add_right _ _
  · rw [Timed.due, Timed.entered]
    dsimp only
    rw [harms]
    exact h.covered w (hkept hw).1
  · rw [Timed.due, Timed.entered]
    dsimp only
    rw [harms]
    exact DelayedWork.modify_covers (expiry_span_le s.now ticks w)

/-- A pending request is past its deadline, as the counter shows it. -/
theorem Timely.before_iff (hspan : ∀ w, span hz w < 2 ^ 63) (h : Timely hz s) (hnear : s.Near hz) {w : Work}
    (hpending : s.driver.Pending w) :
    before (.ofNat s.now) (s.driver.deadline w) = true ↔ s.now < s.due hz w := by
  have hbegun := h.begun w hpending
  have hw := hspan w
  rw [h.deadline w hpending]
  refine Support.before_iff (hnear w hpending) ?_
  rw [Timed.due]
  omega

theorem Timely.work {w : Work} {reread set : Nat} (hspan : ∀ w, span hz w < 2 ^ 63) (h : Timely hz s)
    (hnear : s.Near hz) (hnear' : s'.Near hz)
    (hstep : s.step hz (.work w reread set) = some (o, s')) : Timely hz s' := by
  obtain ⟨hrunning, heq⟩ := Option.ite_none_right_eq_some.mp hstep
  have hs' : s.worked w reread set (s.driver.step hz (w.event (.ofNat s.now) (.ofNat (s.now + reread)))) =
      s' := (Prod.mk.inj (Option.some.inj heq)).2
  by_cases hwait : s.driver.Pending w ∧ before (.ofNat s.now) (s.driver.deadline w) = true
  · obtain ⟨hpending, hbefore⟩ := hwait
    have hearly := (h.before_iff hspan hnear hpending).mp hbefore
    have harms : arms [Call.modDelayedWork w (s.driver.deadline w - .ofNat (s.now + reread))] w =
        some (s.driver.deadline w - .ofNat (s.now + reread)) := by simp [arms]
    rw [worker_waits hpending hbefore, Timed.worked] at hs'
    dsimp only at hs'
    rw [harms] at hs'
    subst hs'
    have hlate : s.now + reread + set < s.due hz w + 2 ^ 63 := by
      have hlate := hnear' w hpending
      rw [Timed.due] at hlate
      dsimp only at hlate
      rwa [Function.update_self] at hlate
    have hclose : s.due hz w < s.now + reread + 2 ^ 63 := by
      have hbegun := h.begun w hpending
      have hw := hspan w
      rw [Timed.due]
      omega
    have hset : expiry (s.now + reread + set) (.ofNat (s.due hz w) - .ofNat (s.now + reread)) ≤
        max (s.due hz w) (s.now + reread) + (s.now + reread + set - (s.now + reread)) :=
      expiry_le (by omega) hclose (Nat.le_add_right _ _)
    refine h.updates (by omega) rfl (fun _ => ⟨id, rfl⟩) rfl (fun _ => ?_) id
    rw [h.deadline w hpending]
    refine DelayedWork.modify_finish_covers (hset.trans ?_)
    dsimp only
    omega
  · obtain ⟨calls, p, hp, harms, hended, hrunning, hkept⟩ :=
      worker_ends hz hwait (.ofNat (s.now + reread))
    rw [hp, Timed.worked] at hs'
    dsimp only at hs'
    rw [harms] at hs'
    subst hs'
    refine h.updates (by omega) rfl (fun v => ⟨fun hv => ?_, (hkept v).2⟩) hrunning
      (fun hpending => absurd hpending hended) id
    have hne : v ≠ w := by
      rintro rfl
      exact hended hv
    exact ((hkept v).1 hne).mp hv

theorem Timely.step {e : TimedEvent} (hspan : ∀ w, span hz w < 2 ^ 63) (h : Timely hz s)
    (hnear : s.Near hz) (hnear' : s'.Near hz) (hstep : s.step hz e = some (o, s')) : Timely hz s' := by
  cases e with
  | entry e ticks => exact h.entry hstep
  | work w reread set => exact h.work hspan hnear hnear' hstep
  | wait ticks =>
      cases hstep
      exact ⟨h.deadline, fun w hw => (h.begun w hw).trans (Nat.le_add_right _ _), h.covered, h.closed⟩
  | expire w =>
      obtain ⟨work, hexpire, heq⟩ := Option.map_eq_some_iff.mp hstep
      cases heq
      exact h.reworks (fun _ => DelayedWork.expire_covers hexpire) id
  | take w =>
      obtain ⟨work, htake, heq⟩ := Option.map_eq_some_iff.mp hstep
      cases heq
      exact h.reworks (fun _ => DelayedWork.take_covers htake) id
  | cancel w =>
      obtain ⟨hhead, hcancel⟩ := Option.ite_none_right_eq_some.mp hstep
      obtain ⟨work, -, heq⟩ := Option.map_eq_some_iff.mp hcancel
      cases heq
      have hstopping : s.stopping ≠ [] := by
        intro hnil
        rw [hnil] at hhead
        cases hhead
      -- No request is pending, so none loses its timer.
      exact h.reworks (fun hpending => absurd hpending ((h.closed hstopping).2 w)) fun _ => hstopping

/-- Every state of a run is timely. -/
theorem Timed.Run.timely {t : List (TimedEvent × List Call)} (hspan : ∀ w, span hz w < 2 ^ 63)
    (hrun : Timed.Run hz s t s') (h : Timely hz s) (hnear : s.Near hz) : Timely hz s' ∧ s'.Near hz :=
  Steps.invariant (I := fun s => Timely hz s ∧ s.Near hz)
    (fun hi hs => ⟨hi.1.step hspan hi.2 hs.2 hs.1, hs.2⟩) hrun ⟨h, hnear⟩

/-- At the start no timer is set. -/
theorem timely_new (lower : Option Lower) (now : Nat) :
    Timely hz (.new lower now) ∧ (Timed.new lower now).Near hz := by
  have hnone : ∀ w, ¬ (Timed.new lower now).driver.Pending w := by
    intro w
    cases w <;> exact (by simp [Timed.new, Priv.init, Priv.Pending, Connection.zero])
  exact ⟨⟨fun w hw => absurd hw (hnone w), fun w hw => absurd hw (hnone w), fun w hw => absurd hw (hnone w),
    fun hs => absurd rfl hs⟩, fun w hw => absurd hw (hnone w)⟩

end Runs

/-- **The timers.**  In every run, where the deadlines are less than half the counter's range away and a
worker gets the mutex before the counter is half its range past them: the work of a pending request is
queued, or a worker has it, or its timer goes off by the deadline, later only by the ticks that passed
between the reading of the counter and the setting of the timer; and a worker ends no request before its
deadline. -/
theorem timers (hz : UInt64) (hspan : ∀ w, span hz w < 2 ^ 63) (lower : Option Lower) (now : Nat)
    (t : List (TimedEvent × List Call)) (s : Timed) (h : Timed.Run hz (.new lower now) t s) :
    (∀ w, s.driver.Pending w →
      (s.watch w).work.Covers ((s.watch w).begun + span hz w + (s.watch w).late)) ∧
    ∀ w reread set o s', s.step hz (.work w reread set) = some (o, s') →
      ∀ v, s.driver.Pending v → ¬ s'.driver.Pending v → (s.watch v).begun + span hz v ≤ s.now := by
  obtain ⟨htimely, hnear⟩ := h.timely hspan (timely_new lower now).1 (timely_new lower now).2
  refine ⟨htimely.covered, fun w reread set o s' hstep v hpending hended => ?_⟩
  obtain ⟨-, heq⟩ := Option.ite_none_right_eq_some.mp hstep
  have hs' : s.worked w reread set (s.driver.step hz (w.event (.ofNat s.now) (.ofNat (s.now + reread)))) =
      s' := (Prod.mk.inj (Option.some.inj heq)).2
  by_cases hwait : s.driver.Pending w ∧ before (.ofNat s.now) (s.driver.deadline w) = true
  · rw [worker_waits hwait.1 hwait.2] at hs'
    rw [← hs'] at hended
    exact absurd hpending hended
  · obtain ⟨calls, p, hp, -, -, -, hkept⟩ := worker_ends hz hwait (.ofNat (s.now + reread))
    rw [hp] at hs'
    rw [← hs'] at hended
    have hv : v = w := by
      by_contra hne
      exact hended (((hkept v).1 hne).mpr hpending)
    subst hv
    have hpast := (htimely.before_iff hspan hnear hpending).not.mp fun hbefore => hwait ⟨hpending, hbefore⟩
    exact not_lt.mp hpast

/-- The device is opened, and a scan begins while one tick passes. -/
theorem scan_begins : ∃ t s, Timed.Run 100 (.new none 0) t s ∧ s.driver.Pending .timeout ∧
    s.watch .timeout = ⟨⟨some 4501, false, false⟩, 0, 1⟩ := by
  let opened := (Timed.new none 0).entered .openDevice 0 ((Timed.new none 0).driver.step 100 .openDevice)
  let started := opened.entered (.startScan 1 0) 1 (opened.driver.step 100 (.startScan 1 0))
  have hopened : opened.Near 100 := by
    intro w hw
    cases w <;> exact absurd hw (by decide)
  have hstarted : started.Near 100 := by
    intro w hw
    cases w with
    | timeout => decide
    | connectionTimeout => exact absurd hw (by decide)
  have hopen : (Timed.new none 0).step 100 (.entry .openDevice 0) = some ([], opened) := rfl
  have hstart : opened.step 100 (.entry (.startScan 1 0) 1) =
      some ([.modDelayedWork .timeout (45 * 100), .wakeUp], started) := rfl
  exact ⟨_, started, .more ⟨hopen, hopened⟩ (.more ⟨hstart, hstarted⟩ (.refl _)), rfl, rfl⟩

/-- **A late timer.**  A tick passes between the reading of the counter and the setting of the timer: it
goes off after the deadline. -/
theorem timer_late : ∃ t s, Timed.Run 100 (.new none 0) t s ∧ s.driver.Pending .timeout ∧
    ¬ (s.watch .timeout).work.Covers ((s.watch .timeout).begun + span 100 .timeout) := by
  obtain ⟨t, s, hrun, hpending, hwatch⟩ := scan_begins
  refine ⟨t, s, hrun, hpending, ?_⟩
  rw [hwatch]
  rintro (hqueued | hrunning | ⟨x, hx, hle⟩)
  · cases hqueued
  · cases hrunning
  · cases hx
    revert hle
    decide

/-- The scan's timer goes off at its deadline, and one tick later. -/
theorem timers_scan : ∃ t s, Timed.Run 100 (.new none 0) t s ∧ s.driver.Pending .timeout ∧
    (s.watch .timeout).work.Covers (0 + span 100 .timeout + 1) := by
  obtain ⟨t, s, hrun, hpending, hwatch⟩ := scan_begins
  have hcovers := (timers 100 (fun w => by cases w <;> decide) none 0 t s hrun).1 .timeout hpending
  rw [hwatch] at hcovers
  exact ⟨t, s, hrun, hpending, by rw [hwatch]; exact hcovers⟩

end Ashacky.Wifi
