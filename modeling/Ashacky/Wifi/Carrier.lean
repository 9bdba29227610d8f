import Ashacky.Wifi.Association

/-!
# Wi-Fi — Carrier

The netdev's carrier, and the condition under which `forward_packet` transmits.

* `step_path`: an entry point leaves the path as it is, drops it, or establishes an association.
* `Smooth`: no connect succeeds while the lower device has its carrier and does not run.
* `carrier_usable`: in such runs, and only in these, the carrier is that condition.
-/

namespace Ashacky.Wifi
open Ashacky.Support

namespace Priv

/-- Whether `forward_packet` transmits. -/
def forwardPacket (p : Priv) : Bool := p.connected && p.lower.any fun lower => lower.running && lower.carrier

/-- The checks of `LH_CONNECTION_RESULT` on a connect that succeeds. -/
def accepts (p : Priv) (completion : ConnectionResult) : Bool :=
  p.connection.operation = .connect && completion.sequence = p.connection.sequence &&
    completion.status = statusSuccess && completion.bssid.isValid &&
    (p.connection.bssid.isZero || completion.bssid = p.connection.bssid)

end Priv

/-! ### Steps -/

/-- The path is left as it is, or dropped. -/
inductive Path (p p' : Priv) : Prop where
  | kept (hrunning : p'.running = p.running) (hlower : p'.lower = p.lower)
      (hconnected : p'.connected = p.connected) (hcarrier : p'.carrier = p.carrier)
  | dropped (hrunning : p'.running = p.running) (hlower : p'.lower = p.lower)
      (hconnected : p'.connected = false) (hcarrier : p'.carrier = false)

section Steps
variable {hz : UInt64} {p p' : Priv}

/-- What does nothing keeps the path. -/
theorem Path.same : Path p p := .kept rfl rfl rfl rfl

/-- The device runs as before. -/
theorem Path.running (h : Path p p') : p'.running = p.running := by
  cases h <;> assumption

/-- Finishing a scan keeps the path. -/
theorem finishScan_path (p : Priv) (aborted : Bool) : Path p (p.finishScan aborted).2 := by
  rw [Priv.finishScan_eq]
  exact .kept rfl rfl rfl rfl

/-- A connection that ends in failure keeps the path, or closes it. -/
theorem finishConnection_path {p : Priv} {status : UInt16} (bssid : Option Address)
    (hfails : p.connection.operation = .connect → status ≠ statusSuccess) :
    Path p (p.finishConnection status bssid).2 := by
  by_cases hop : p.connection.operation = .none
  · rw [Priv.finishConnection_none hop]
    exact .same
  · rw [Priv.finishConnection_ended bssid hop hfails]
    exact .dropped rfl rfl rfl rfl

/-- A link report keeps the path, or closes it. -/
theorem reportLink_path (p : Priv) (u : LinkInput) (informed : Bool) : Path p (p.reportLink u informed).2 := by
  unfold Priv.reportLink
  split
  · exact .same
  split
  · exact .same
  split
  · exact .same
  split
  · split
    · exact .same
    · exact .dropped rfl rfl rfl rfl
  split
  · exact .same
  split
  · exact .same
  · dsimp only
    split
    · exact .kept rfl rfl rfl rfl
    · exact .same

/-- A signal sample keeps the path. -/
theorem sample_path (p : Priv) (sample : Sample) (jiffies : UInt64) : Path p (p.sample sample jiffies).2 := by
  rw [Priv.sample]
  split
  · exact .same
  split
  · exact .same
  · exact .kept rfl rfl rfl rfl

/-- The end of a scan keeps the path. -/
theorem completeScan_path (p : Priv) (sequence : UInt32) (aborted : Bool) :
    Path p (p.completeScan sequence aborted).2 := by
  rw [Priv.completeScan]
  split
  · exact .same
  · exact finishScan_path p aborted

/-- A request ends, or it is a connect that succeeds. -/
theorem completeConnection_path (p : Priv) (completion : ConnectionResult) :
    (p.accepts completion = false ∧ Path p (p.completeConnection completion).2) ∨
      (p.accepts completion = true ∧
        (p.completeConnection completion).2 = p.established completion.bssid) := by
  rw [Priv.completeConnection]
  split
  · next hstale =>
      refine .inl ⟨Bool.eq_false_iff.mpr fun haccepts => ?_, .same⟩
      simp only [Priv.accepts, Bool.and_eq_true, decide_eq_true_eq] at haccepts
      rcases hstale with hnone | hother
      · rw [haccepts.1.1.1.1] at hnone
        cases hnone
      · exact hother haccepts.1.1.1.2
  split
  · next hinvalid =>
      refine .inl ⟨Bool.eq_false_iff.mpr fun haccepts => ?_, .same⟩
      simp only [Priv.accepts, Bool.and_eq_true, decide_eq_true_eq] at haccepts
      simp [haccepts.1.2] at hinvalid
  split
  · next hpinned =>
      refine .inl ⟨Bool.eq_false_iff.mpr fun haccepts => ?_, .same⟩
      simp only [Priv.accepts, Bool.and_eq_true, Bool.or_eq_true, decide_eq_true_eq] at haccepts
      rcases haccepts.2 with hzero | hsame
      · simp [hzero] at hpinned
      · exact hpinned.2.2.2 hsame
  next hcurrent hvalid hpin =>
  simp only [not_or, not_not] at hcurrent
  by_cases hsuccess : p.connection.operation = .connect ∧ completion.status = statusSuccess
  · obtain ⟨hop, hstatus⟩ := hsuccess
    rw [hstatus, Priv.finishConnection_established hop]
    refine .inr ⟨?_, rfl⟩
    have hgood : completion.bssid.isValid = true := by simpa [hop, hstatus, statusSuccess] using hvalid
    have hsame : p.connection.bssid.isZero = true ∨ completion.bssid = p.connection.bssid := by
      by_cases hzero : p.connection.bssid.isZero = true
      · exact .inl hzero
      · exact .inr (by simpa [hop, hstatus, statusSuccess, hzero] using hpin)
    simpa [Priv.accepts, hop, hcurrent.2, hstatus, hgood] using hsame
  · refine .inl ⟨Bool.eq_false_iff.mpr fun haccepts => hsuccess ?_, ?_⟩
    · simp only [Priv.accepts, Bool.and_eq_true, decide_eq_true_eq] at haccepts
      exact ⟨haccepts.1.1.1.1, haccepts.1.1.2⟩
    · exact finishConnection_path _ fun hop hstatus => hsuccess ⟨hop, hstatus⟩

/-- The event is a connect's success, which the driver accepts. -/
def Event.succeeds (p : Priv) : Event → Bool
  | .control _ capable copied _ (.connectionResult completion) => capable && copied && p.accepts completion
  | _ => false

/-- A command keeps or closes the path, unless it establishes a link. -/
theorem control_path (p : Priv) (file : Nat) (capable copied : Bool) (jiffies : UInt64) (cmd : Command) :
    ((Event.control file capable copied jiffies cmd).succeeds p = false ∧
        Path p (p.control file capable copied jiffies cmd).2) ∨
      ((Event.control file capable copied jiffies cmd).succeeds p = true ∧
        ∃ bssid, (p.control file capable copied jiffies cmd).2 = p.established bssid) := by
  unfold Priv.control
  cases capable
  · exact .inl ⟨by cases cmd <;> rfl, .same⟩
  cases copied
  · cases cmd <;> exact .inl ⟨rfl, .same⟩
  cases cmd with
  | unknown | getCapabilities | getLink => exact .inl ⟨rfl, .same⟩
  | getScan | getConnection => exact .inl ⟨rfl, .kept rfl rfl rfl rfl⟩
  | reportLink input informed => exact .inl ⟨rfl, reportLink_path p input informed⟩
  | finishScan sequence | abortScan sequence => exact .inl ⟨rfl, completeScan_path p sequence _⟩
  | signal sample => exact .inl ⟨rfl, sample_path p sample jiffies⟩
  | connectionResult completion =>
      rcases completeConnection_path p completion with ⟨haccepts, hpath⟩ | ⟨haccepts, hestablished⟩
      · exact .inl ⟨haccepts, hpath⟩
      · exact .inr ⟨haccepts, _, hestablished⟩

/-- A query for the station keeps the path. -/
theorem station_path (p : Priv) (mac : Address) (jiffies : UInt64) :
    Path p (p.getStation hz mac jiffies).2 := by
  rw [Priv.getStation]
  split <;> exact .same

/-- A connect request keeps the path. -/
theorem connectNetwork_path (p : Priv) (sme : ConnectParams) (jiffies : UInt64) :
    Path p (p.connectNetwork hz sme jiffies).2 := by
  rw [Priv.connectNetwork]
  split
  · exact .same
  split
  · exact .same
  split
  · exact .same
  · exact .kept rfl rfl rfl rfl

/-- A disconnect request keeps the path, or closes it. -/
theorem disconnectNetwork_path (p : Priv) (reason : UInt16) (jiffies : UInt64) :
    Path p (p.disconnectNetwork hz reason jiffies).2 := by
  rw [Priv.disconnectNetwork]
  split
  · exact .same
  · dsimp only
    split
    · next hop =>
        have hpath : Path p (p.finishConnection statusUnspecifiedFailure none).2 :=
          finishConnection_path none fun _ => by decide
        generalize p.finishConnection statusUnspecifiedFailure none = r at hpath
        obtain ⟨calls, p₁⟩ := r
        cases hpath with
        | kept hrunning hlower hconnected hcarrier => exact .kept hrunning hlower hconnected hcarrier
        | dropped hrunning hlower hconnected hcarrier => exact .dropped hrunning hlower hconnected hcarrier
    · exact .kept rfl rfl rfl rfl

/-- The event is not one of the device or of the lower device. -/
def Event.ofRadio : Event → Bool
  | .openDevice | .stopDevice | .lowerEvent _ _ => false
  | _ => true

/-- **What an entry point does to the path.** -/
theorem step_path (hz : UInt64) (p : Priv) {e : Event} (he : e.ofRadio = true) :
    (e.succeeds p = false ∧ Path p (p.step hz e).2) ∨
      (e.succeeds p = true ∧ ∃ bssid, (p.step hz e).2 = p.established bssid) := by
  cases e with
  | openDevice | stopDevice | lowerEvent => cases he
  | control file capable copied jiffies cmd => exact control_path p file capable copied jiffies cmd
  | startScan request jiffies =>
      refine .inl ⟨rfl, ?_⟩
      change Path p (p.startScan hz request jiffies).2
      rw [Priv.startScan]
      split
      · exact .same
      · exact .kept rfl rfl rfl rfl
  | abortScan => exact .inl ⟨rfl, finishScan_path p true⟩
  | connectNetwork sme jiffies => exact .inl ⟨rfl, connectNetwork_path p sme jiffies⟩
  | disconnectNetwork reason jiffies => exact .inl ⟨rfl, disconnectNetwork_path p reason jiffies⟩
  | getStation mac jiffies => exact .inl ⟨rfl, station_path p mac jiffies⟩
  | dumpStation idx jiffies =>
      refine .inl ⟨rfl, ?_⟩
      change Path p (p.dumpStation hz idx jiffies).2
      rw [Priv.dumpStation]
      split
      · exact .same
      · exact station_path p _ jiffies
  | scanTimeout jiffies later =>
      refine .inl ⟨rfl, ?_⟩
      change Path p (p.scanTimeout jiffies later).2
      rw [Priv.scanTimeout]
      split
      · exact .same
      · exact finishScan_path p true
  | connectionTimeout jiffies later =>
      refine .inl ⟨rfl, ?_⟩
      change Path p (p.connectionTimeout jiffies later).2
      rw [Priv.connectionTimeout]
      split
      · exact .same
      · exact finishConnection_path none fun _ => by decide
  | publish capable copied buffer informed =>
      refine .inl ⟨rfl, ?_⟩
      change Path p (p.publish capable copied buffer informed).2
      unfold Priv.publish
      dsimp only
      repeat' split
      all_goals exact .same
  | bridgeOpen file capable =>
      refine .inl ⟨rfl, ?_⟩
      change Path p (p.bridgeOpen file capable).2
      rw [Priv.bridgeOpen]
      split
      · exact .same
      · exact .kept rfl rfl rfl rfl
  | bridgeRelease file => exact .inl ⟨rfl, .kept rfl rfl rfl rfl⟩
  | bridgePoll file capable =>
      refine .inl ⟨rfl, ?_⟩
      change Path p (p.bridgePoll file capable).2
      rw [Priv.bridgePoll]
      split <;> exact .same

/-- A device that was closed runs no request, and has no path. -/
theorem stopDevice_rest (p : Priv) :
    p.stopDevice.2.running = false ∧ p.stopDevice.2.scan = none ∧
      p.stopDevice.2.connection.operation = .none ∧ p.stopDevice.2.connected = false ∧
      p.stopDevice.2.carrier = false := by
  rw [Priv.stopDevice]
  dsimp only
  rw [Priv.finishScan_eq]
  dsimp only
  set q : Priv := { p with running := false, scan := none } with hq
  have hrest : (q.finishConnection statusUnspecifiedFailure none).2.running = false ∧
      (q.finishConnection statusUnspecifiedFailure none).2.scan = none ∧
      (q.finishConnection statusUnspecifiedFailure none).2.connection.operation = .none := by
    by_cases hop : p.connection.operation = .none
    · rw [Priv.finishConnection_none (p := q) hop]
      exact ⟨rfl, rfl, hop⟩
    · rw [Priv.finishConnection_ended (p := q) none hop fun _ => by decide]
      exact ⟨rfl, rfl, rfl⟩
  generalize q.finishConnection statusUnspecifiedFailure none = r at hrest
  obtain ⟨connections, p₂⟩ := r
  obtain ⟨hrunning, hscan, hop⟩ := hrest
  dsimp only at hrunning hscan hop ⊢
  split
  · exact ⟨hrunning, hscan, hop, rfl, rfl⟩
  · next hconnected => exact ⟨hrunning, hscan, hop, Bool.eq_false_iff.mpr hconnected, rfl⟩

end Steps

/-! ### Runs -/

/-- The state of the lower device changes only with a notification that the driver handles. -/
def Event.notified (p : Priv) : Event → Bool
  | .lowerEvent .other lower => p.lower.all (· = lower)
  | _ => true

abbrev Notified (p : Priv) (e : Event) : Prop := e.notified p = true

/-- No connect succeeds while the lower device has its carrier and does not run. -/
def Smooth (p : Priv) (e : Event) : Prop := e.succeeds p = true → p.lower ≠ some ⟨false, true⟩

instance (p : Priv) (e : Event) : Decidable (Smooth p e) := inferInstanceAs (Decidable (_ → _))

/-- A run of the driver in which the state of the lower device changes only with its notification, and no
connect succeeds while it has its carrier and does not run. -/
abbrev SmoothRun (hz : UInt64) : Priv → List (Event × Output) → Priv → Prop :=
  Steps fun p e o p' => p.step hz e = (o, p') ∧ Notified p e ∧ Smooth p e

section Runs
variable {hz : UInt64} {p p' : Priv} {e : Event} {o : Output}

/-- A carrier that agreed with the path agrees with it after. -/
theorem Path.carrier (h : Path p p') (hp : p.carrier = p.forwardPacket) : p'.carrier = p'.forwardPacket := by
  cases h with
  | kept hrunning hlower hconnected hcarrier =>
      rw [hcarrier, hp, Priv.forwardPacket, Priv.forwardPacket, hlower, hconnected]
  | dropped hrunning hlower hconnected hcarrier =>
      rw [hcarrier, Priv.forwardPacket, hconnected]
      rfl

/-- `finish_connection` does not look at whether the lower device runs. -/
theorem established_carrier (p : Priv) (bssid : Address) :
    (p.established bssid).carrier = (p.established bssid).forwardPacket ↔ p.lower ≠ some ⟨false, true⟩ := by
  change p.lower.any (·.carrier) = (true && p.lower.any fun lower => lower.running && lower.carrier) ↔ _
  cases p.lower with
  | none => simp
  | some lower =>
      obtain ⟨running, carrier⟩ := lower
      cases running <;> cases carrier <;> decide

/-- A notification of the lower device. -/
theorem lowerEvent_carrier {event : NetdevEvent} {lower : Lower} (hp : p.carrier = p.forwardPacket)
    (hnotified : Notified p (.lowerEvent event lower)) :
    (p.lowerEvent event lower).2.carrier = (p.lowerEvent event lower).2.forwardPacket := by
  rw [Priv.lowerEvent]
  split
  · exact hp
  · next hattached =>
      cases event with
      | unregister => exact (Bool.and_false _).symm
      | up | down | change => exact Bool.and_assoc _ _ _
      | other =>
          obtain ⟨old, hold⟩ := Option.ne_none_iff_exists'.mp (mt Option.isNone_iff_eq_none.mpr hattached)
          have hsame : p.lower.all (· = lower) = true := hnotified
          rw [hold, Option.all_some, decide_eq_true_eq] at hsame
          change p.carrier = (p.connected && (some lower).any fun lower => lower.running && lower.carrier)
          rw [hp, Priv.forwardPacket, hold, hsame]

/-- **One step**: the carrier is right after it if and only if no connect succeeds in it while the lower
device has its carrier and does not run. -/
theorem step_carrier (hz : UInt64) (hp : p.carrier = p.forwardPacket) (hnotified : Notified p e) :
    (p.step hz e).2.carrier = (p.step hz e).2.forwardPacket ↔ Smooth p e := by
  have hother : e.succeeds p = false → Smooth p e := by
    intro hfails hsucceeds
    rw [hfails] at hsucceeds
    cases hsucceeds
  by_cases he : e.ofRadio = true
  · rcases step_path hz p he with ⟨hfails, hpath⟩ | ⟨hsucceeds, bssid, hestablished⟩
    · exact iff_of_true (hpath.carrier hp) (hother hfails)
    · rw [hestablished, established_carrier]
      exact ⟨fun hlower _ => hlower, fun hsmooth => hsmooth hsucceeds⟩
  · cases e with
    | openDevice => exact iff_of_true hp (hother rfl)
    | stopDevice =>
        obtain ⟨-, -, -, hconnected, hcarrier⟩ := stopDevice_rest p
        refine iff_of_true ?_ (hother rfl)
        change p.stopDevice.2.carrier = p.stopDevice.2.forwardPacket
        rw [hcarrier, Priv.forwardPacket, hconnected]
        rfl
    | lowerEvent event lower => exact iff_of_true (lowerEvent_carrier hp hnotified) (hother rfl)
    | _ => exact absurd rfl he

end Runs

/-- **The carrier.**  In every run in which no connect succeeds while the lower device has its carrier and
does not run, the netdev has its carrier if and only if `forward_packet` transmits; and a step keeps
this only if it is such a one. -/
theorem carrier_usable (hz : UInt64) (lower : Option Lower) (t : List (Event × Output)) (p : Priv)
    (h : SmoothRun hz (.init lower) t p) :
    p.carrier = p.forwardPacket ∧
      ∀ e o p', p.step hz e = (o, p') → Notified p e → (p'.carrier = p'.forwardPacket ↔ Smooth p e) := by
  have hcarrier : p.carrier = p.forwardPacket := by
    refine Steps.invariant (I := fun p => p.carrier = p.forwardPacket) (fun hi hs => ?_) h rfl
    obtain ⟨hstep, hnotified, hsmooth⟩ := hs
    have hnext := (step_carrier hz hi hnotified).mpr hsmooth
    rwa [hstep] at hnext
  refine ⟨hcarrier, fun e o p' hstep hnotified => ?_⟩
  have hiff := step_carrier hz hcarrier hnotified
  rwa [hstep] at hiff

/-- Every step of the run that the events make satisfies `C`. -/
def Priv.Within (hz : UInt64) (C : Priv → Event → Prop) (p : Priv) : List Event → Prop
  | [] => True
  | e :: es => C p e ∧ Priv.Within hz C (p.step hz e).2 es

instance (hz : UInt64) (C : Priv → Event → Prop) [∀ p e, Decidable (C p e)] :
    (p : Priv) → (es : List Event) → Decidable (p.Within hz C es)
  | _, [] => .isTrue trivial
  | p, e :: es =>
      have := instDecidableWithin hz C (p.step hz e).2 es
      inferInstanceAs (Decidable (_ ∧ _))

/-- Events that are run under a condition make a run under it. -/
theorem Priv.run_within (hz : UInt64) (C : Priv → Event → Prop) (p : Priv) (es : List Event)
    (h : p.Within hz C es) :
    Steps (fun p e o p' => p.step hz e = (o, p') ∧ C p e) p (p.run hz es).1 (p.run hz es).2 := by
  induction es generalizing p with
  | nil => exact .refl p
  | cons e es ih => exact .more ⟨rfl, h.1⟩ (ih _ h.2)

/-- A connect that succeeds, over a lower device that is attached. -/
def carriedLink : List Event :=
  [.openDevice, .connectNetwork (openNetwork [65, 80] none) 0,
    .control 0 true true 0 (.connectionResult ⟨1, 0, firstBssid⟩)]

/-- The lower device does not run but has its carrier, and a connect succeeds: the netdev has its carrier,
and `forward_packet` transmits nothing. -/
theorem carrier_unusable :
    ∃ t p, Steps (fun p e o p' => p.step 250 e = (o, p') ∧ Notified p e) (.init (some ⟨false, true⟩)) t p ∧
      p.carrier = true ∧ p.forwardPacket = false :=
  ⟨_, _, Priv.run_within 250 Notified _ carriedLink (by decide), by decide, by decide⟩

/-- Over a lower device that runs and has its carrier, the netdev has it too. -/
theorem carrier_usable_running :
    ∃ t p, SmoothRun 250 (.init (some ⟨true, true⟩)) t p ∧ p.connected = true ∧ p.carrier = p.forwardPacket := by
  have hrun := Priv.run_within 250 (fun p e => Notified p e ∧ Smooth p e)
    (.init (some ⟨true, true⟩)) carriedLink (by decide)
  exact ⟨_, _, hrun, by decide, (carrier_usable 250 (some ⟨true, true⟩) _ _ hrun).1⟩

end Ashacky.Wifi
