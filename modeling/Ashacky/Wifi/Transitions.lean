import Ashacky.Support.Machine
import Ashacky.Wifi.Driver

/-!
# Wi-Fi — Transitions

Everything one entry point of the driver can do to a pending request or to the association, as
one relation.  `step_transition` says that these are all; what holds of every run of the driver
is proved from it, and not from the bodies of the entry points.

* `finishConnection_established`, `finishConnection_ended`: the two ways a pending connection
  request ends.
* `step_transition`: what a step does.
* `control_stale`, …: a late reply is refused and does nothing.
-/

namespace Ashacky.Wifi
open Ashacky.Support

namespace Priv

/-! ### The end of a connection request -/

/-- The state after a connection request that ended without an association. -/
def cleared (p : Priv) : Priv := { p.dropLink with connection := .zero }

/-- The state after a connect that succeeded at `bssid`. -/
def established (p : Priv) (bssid : Address) : Priv :=
  { p with
    connection := .zero
    signalValid := false
    connected := true
    ssidLength := p.connection.ssidLength
    ssid := p.connection.ssid
    privacy := p.connection.pskLength ≠ 0
    pinned := !p.connection.bssid.isZero
    associatedBssid := bssid
    carrier := p.lower.any (·.carrier) }

/-- What the kernel is told when the pending operation ends without an association. -/
def endCalls (p : Priv) (status : UInt16) (bssid : Option Address) : List Call :=
  match p.connection.operation with
  | .none => []
  | .connect => [.connectResult bssid status]
  | .disconnect => if p.connected then [.disconnected p.disconnectReason true] else []

/-- Without an operation, finishing the connection does nothing. -/
theorem finishConnection_none {p : Priv} (h : p.connection.operation = .none) (status : UInt16)
    (bssid : Option Address) : p.finishConnection status bssid = ([], p) := by
  simp [finishConnection, h]

/-- A connect that ends with success tells cfg80211 so and holds the new link. -/
theorem finishConnection_established {p : Priv} (h : p.connection.operation = .connect)
    (bssid : Address) :
    p.finishConnection statusSuccess (some bssid) =
      ([.connectResult (some bssid) statusSuccess], p.established bssid) := by
  simp [finishConnection, h, established]

/-- Every other end of an operation clears the association. -/
theorem finishConnection_ended {p : Priv} {status : UInt16} (bssid : Option Address)
    (h : p.connection.operation ≠ .none)
    (hs : p.connection.operation = .connect → status ≠ statusSuccess) :
    p.finishConnection status bssid = (p.endCalls status bssid, p.cleared) := by
  cases hop : p.connection.operation with
  | none => exact absurd hop h
  | connect =>
      simp [finishConnection, hop, hs hop, endCalls, cleared, dropLink]
  | disconnect =>
      simp [finishConnection, hop, endCalls, cleared, dropLink]

/-- The calls that end a pending scan. -/
def scanCalls (p : Priv) (aborted : Bool) : List Call :=
  p.scan.toList.map fun request => .scanDone request aborted

/-- Finishing a scan drops the request and tells cfg80211 when there was one. -/
theorem finishScan_eq (p : Priv) (aborted : Bool) :
    p.finishScan aborted = (p.scanCalls aborted, { p with scan := none }) := by
  cases h : p.scan with
  | none =>
      have hp : ({ p with scan := none } : Priv) = p := by rw [← h]
      simp [finishScan, scanCalls, h, hp]
  | some request => simp [finishScan, scanCalls, h]

end Priv

/-! ### Steps -/

/-- A call that completes a request or reports a change of the association. -/
def Call.isCompletion : Call → Bool
  | .scanDone _ _ | .connectResult _ _ | .disconnected _ _ | .roamed _ => true
  | _ => false

/-- An event that begins a request or submits a sample. -/
def Event.isRequest : Event → Bool
  | .startScan _ _ | .connectNetwork _ _ | .disconnectNetwork _ _ => true
  | .control _ _ _ _ (.signal _) => true
  | _ => false

/-- What an entry point can do. -/
inductive Transition (hz : UInt64) (p : Priv) : Event → Output → Priv → Prop where
  | failed {e : Event} {x : Errno} : Transition hz p e ⟨.error x, []⟩ p
  | quiet {e : Event} {r : Reply} {calls : List Call} (readers : List (Nat × Reader))
      (lower : Option Lower) (running carrier : Bool) (he : e.isRequest = false)
      (hcalls : ∀ c ∈ calls, c.isCompletion = false) :
      Transition hz p e ⟨.ok r, calls⟩
        { p with readers := readers, lower := lower, running := running, carrier := carrier }
  | scanStarted {request : Nat} {jiffies : UInt64} (hscan : p.scan = none) :
      Transition hz p (.startScan request jiffies)
        ⟨.ok .none, [.modDelayedWork .timeout (45 * hz), .wakeUp]⟩
        { p with
          scan := some request
          scanDeadline := jiffies + 45 * hz
          sequence := nextSequence p.sequence }
  | scanFinished {e : Event} {aborted : Bool} (he : e.isRequest = false) :
      Transition hz p e ⟨.ok .none, p.scanCalls aborted⟩ { p with scan := none }
  | connectStarted {sme : ConnectParams} {jiffies : UInt64} (hscan : p.scan = none)
      (hop : p.connection.operation = .none) (hconn : p.connected = false)
      (hsme : Priv.checkParams sme = none) :
      Transition hz p (.connectNetwork sme jiffies)
        ⟨.ok .none, [.modDelayedWork .connectionTimeout (90 * hz), .wakeUp]⟩
        { p with
          connection := Priv.fillConnection
            { Connection.zero with
              operation := .connect, sequence := nextSequence p.connectionSequence } sme
          connectionSequence := nextSequence p.connectionSequence
          connectionDeadline := jiffies + 90 * hz }
  | disconnectStarted {reason : UInt16} {jiffies : UInt64} {q : Priv}
      (hop : p.connection.operation ≠ .disconnect)
      (hq : q = if p.connection.operation = .connect then p.cleared else p) :
      Transition hz p (.disconnectNetwork reason jiffies)
        ⟨.ok .none, p.endCalls statusUnspecifiedFailure none ++
          [Call.modDelayedWork .connectionTimeout (90 * hz)] ++ [Call.wakeUp]⟩
        { q with
          disconnectReason := reason
          connection := { Connection.zero with
            operation := .disconnect, sequence := nextSequence p.connectionSequence }
          connectionSequence := nextSequence p.connectionSequence
          connectionDeadline := jiffies + 90 * hz }
  | established {file : Nat} {jiffies : UInt64} {completion : ConnectionResult}
      (hop : p.connection.operation = .connect)
      (hsequence : completion.sequence = p.connection.sequence)
      (hstatus : completion.status = statusSuccess) (hvalid : completion.bssid.isValid)
      (hpin : p.connection.bssid.isZero ∨ completion.bssid = p.connection.bssid) :
      Transition hz p (.control file true true jiffies (.connectionResult completion))
        ⟨.ok .none, [.connectResult (some completion.bssid) statusSuccess]⟩
        (p.established completion.bssid)
  | ended {e : Event} {status : UInt16} {bssid : Option Address} (he : e.isRequest = false)
      (hop : p.connection.operation ≠ .none)
      (hstatus : p.connection.operation = .connect → status ≠ statusSuccess) :
      Transition hz p e ⟨.ok .none, p.endCalls status bssid⟩ p.cleared
  | linkDown {file : Nat} {jiffies : UInt64} {input : LinkInput} {informed : Bool}
      (hconn : p.connected) (hop : p.connection.operation = .none) :
      Transition hz p (.control file true true jiffies (.reportLink input informed))
        ⟨.ok .none, [.disconnected reasonUnspecified false]⟩ p.dropLink
  | roamed {file : Nat} {jiffies : UInt64} {input : LinkInput} {informed : Bool}
      {information : Information} (hconn : p.connected)
      (hop : p.connection.operation = .none) (hstate : input.report.state = 1)
      (hsequence : input.report.sequence = p.connectionSequence)
      (hvalid : input.report.bssid.isValid)
      (hpin : p.pinned → p.associatedBssid.isZero ∨ p.associatedBssid = input.report.bssid)
      (hsecurity : compatibleSecurity input.ies p.privacy input.report.capability) :
      Transition hz p (.control file true true jiffies (.reportLink input informed))
        ⟨.ok .none, [.informBss information, .roamed input.report.bssid]⟩
        { p with associatedBssid := input.report.bssid, signalValid := false }
  | sampled {file : Nat} {jiffies : UInt64} {sample : Sample} (hconn : p.connected)
      (hbssid : sample.bssid = p.associatedBssid) :
      Transition hz p (.control file true true jiffies (.signal sample)) ⟨.ok .none, []⟩
        { p with signal := sample.signal, signalUpdated := jiffies, signalValid := true }
  | stopped {q : Priv} {calls : List Call}
      (hq : (p.connection.operation ≠ .none ∧ q = p.cleared ∧
          calls = p.endCalls statusUnspecifiedFailure none) ∨
        (p.connection.operation = .none ∧ q = { p with connected := false } ∧
          calls = if p.connected then [.disconnected reasonDeauthLeaving true] else [])) :
      Transition hz p .stopDevice
        ⟨.ok .none, p.scanCalls true ++ calls ++
          [.cancelDelayedWork .timeout, .cancelDelayedWork .connectionTimeout]⟩
        { q with running := false, scan := none, signalValid := false, carrier := false }

/-- A step that changes nothing of the state. -/
theorem Transition.same {hz : UInt64} {p : Priv} {e : Event} {r : Reply} {calls : List Call}
    (he : e.isRequest = false) (hcalls : ∀ c ∈ calls, c.isCompletion = false) :
    Transition hz p e ⟨.ok r, calls⟩ p :=
  .quiet p.readers p.lower p.running p.carrier he hcalls

namespace Priv

variable (hz : UInt64) (p : Priv)

/-- A scan request is one of the listed transitions. -/
theorem startScan_transition (request : Nat) (jiffies : UInt64) :
    Transition hz p (.startScan request jiffies) (p.startScan hz request jiffies).1
      (p.startScan hz request jiffies).2 := by
  unfold startScan
  split
  · exact .failed
  · rename_i h
    exact .scanStarted (Option.not_isSome_iff_eq_none.mp h)

/-- Ending the pending scan is one transition, whatever the cause. -/
theorem finishScan_transition {e : Event} (he : e.isRequest = false) (aborted : Bool) :
    Transition hz p e ⟨.ok .none, (p.finishScan aborted).1⟩ (p.finishScan aborted).2 := by
  rw [finishScan_eq]
  exact .scanFinished he

/-- Ending the pending connection request without an association is one transition. -/
theorem finishConnection_transition {e : Event} {status : UInt16} {bssid : Option Address}
    (he : e.isRequest = false)
    (hs : p.connection.operation = .connect → status ≠ statusSuccess) :
    Transition hz p e ⟨.ok .none, (p.finishConnection status bssid).1⟩
      (p.finishConnection status bssid).2 := by
  by_cases hop : p.connection.operation = .none
  · rw [finishConnection_none hop]
    exact .same he (by simp)
  · rw [finishConnection_ended bssid hop hs]
    exact .ended he hop hs

/-- A connect request is one of the listed transitions. -/
theorem connectNetwork_transition (sme : ConnectParams) (jiffies : UInt64) :
    Transition hz p (.connectNetwork sme jiffies) (p.connectNetwork hz sme jiffies).1
      (p.connectNetwork hz sme jiffies).2 := by
  unfold connectNetwork
  split
  · exact .failed
  · split
    · exact .failed
    · rename_i hbusy
      simp only [not_or, not_not, Bool.not_eq_true, Option.isSome_eq_false_iff,
        Option.isNone_iff_eq_none] at hbusy
      split
      · exact .failed
      · rename_i hsme
        exact .connectStarted hbusy.1 hbusy.2.1 hbusy.2.2 hsme

/-- A disconnect request is one of the listed transitions. -/
theorem disconnectNetwork_transition (reason : UInt16) (jiffies : UInt64) :
    Transition hz p (.disconnectNetwork reason jiffies) (p.disconnectNetwork hz reason jiffies).1
      (p.disconnectNetwork hz reason jiffies).2 := by
  unfold disconnectNetwork
  split
  · exact .failed
  · rename_i hop
    cases h : p.connection.operation with
    | none =>
        have hcalls : p.endCalls statusUnspecifiedFailure none = [] := by simp [endCalls, h]
        have hq : p = if p.connection.operation = .connect then p.cleared else p := by simp [h]
        have ht : Transition hz p (.disconnectNetwork reason jiffies) _ _ :=
          .disconnectStarted hop hq
        rw [hcalls] at ht
        rw [if_neg (by simp)]
        exact ht
    | connect =>
        have hfin : p.finishConnection statusUnspecifiedFailure none =
            (p.endCalls statusUnspecifiedFailure none, p.cleared) :=
          finishConnection_ended none (by simp [h]) (fun _ => by decide)
        have hq : p.cleared = if p.connection.operation = .connect then p.cleared else p := by
          simp [h]
        have ht : Transition hz p (.disconnectNetwork reason jiffies) _ _ :=
          .disconnectStarted hop hq
        rw [if_pos rfl, hfin]
        exact ht
    | disconnect => exact absurd h hop

/-- The scan's time limit is one of the listed transitions. -/
theorem scanTimeout_transition (jiffies later : UInt64) :
    Transition hz p (.scanTimeout jiffies later) (p.scanTimeout jiffies later).1
      (p.scanTimeout jiffies later).2 := by
  unfold scanTimeout
  split
  · exact .same rfl (by simp [Call.isCompletion])
  · exact finishScan_transition hz p rfl true

/-- The operation's time limit is one of the listed transitions. -/
theorem connectionTimeout_transition (jiffies later : UInt64) :
    Transition hz p (.connectionTimeout jiffies later) (p.connectionTimeout jiffies later).1
      (p.connectionTimeout jiffies later).2 := by
  unfold connectionTimeout
  split
  · exact .same rfl (by simp [Call.isCompletion])
  · exact finishConnection_transition hz p rfl fun _ => by decide

/-- The end of a scan is one of the listed transitions, under any event that is no request. -/
theorem completeScan_transition {e : Event} (he : e.isRequest = false) (sequence : UInt32)
    (aborted : Bool) :
    Transition hz p e (p.completeScan sequence aborted).1 (p.completeScan sequence aborted).2 := by
  unfold completeScan
  split
  · exact .failed
  · exact finishScan_transition hz p he aborted

/-- The bridge's result of a connection is one of the listed transitions. -/
theorem completeConnection_transition (file : Nat) (jiffies : UInt64)
    (completion : ConnectionResult) :
    Transition hz p (.control file true true jiffies (.connectionResult completion))
      (p.completeConnection completion).1 (p.completeConnection completion).2 := by
  unfold completeConnection
  split
  · exact .failed
  split
  · exact .failed
  split
  · exact .failed
  rename_i hstale hvalid hpin
  simp only [not_or, not_not] at hstale
  by_cases hok : p.connection.operation = .connect ∧ completion.status = statusSuccess
  · obtain ⟨hop, hstatus⟩ := hok
    rw [hstatus, finishConnection_established hop]
    refine .established hop hstale.2 hstatus ?_ ?_
    · simpa [hop, hstatus, statusSuccess] using hvalid
    · simp only [hop, hstatus, statusSuccess, true_and, not_and, not_not] at hpin
      by_cases hz : p.connection.bssid.isZero
      · exact .inl hz
      · exact .inr (hpin (by simpa using hz))
  · exact finishConnection_transition hz p rfl fun hop hstatus => hok ⟨hop, hstatus⟩

/-- A signal sample is one of the listed transitions. -/
theorem sample_transition (file : Nat) (jiffies : UInt64) (sample : Sample) :
    Transition hz p (.control file true true jiffies (.signal sample)) (p.sample sample jiffies).1
      (p.sample sample jiffies).2 := by
  unfold Priv.sample
  split
  · exact .failed
  split
  · exact .failed
  rename_i h
  simp only [not_or, not_not, Bool.not_eq_true, Bool.not_eq_false'] at h
  exact .sampled h.1 h.2

/-- A report that is not stale and is not of an initial BSS is about an association at rest. -/
theorem rest_of_not_stale {p : Priv} {report : LinkReport} (h : p.reportStale report = false)
    (hstate : report.state ≠ 2) :
    report.sequence = p.connectionSequence ∧ p.connected ∧ p.connection.operation = .none := by
  simpa [reportStale, hstate] using h

/-- What a BSS that passes the checks is. -/
theorem Expected.check_eq_ok {x : Expected} {u : LinkInput} {channel : Nat}
    (h : x.check u = .ok channel) :
    u.report.bssid.isValid ∧ x.pin.all (fun pin => pin.isZero || pin = u.report.bssid) ∧
      compatibleSecurity u.ies x.privacy u.report.capability := by
  unfold Expected.check at h
  split at h
  · cases h
  rename_i hmatch
  split at h
  · cases h
  split at h
  · cases h
  split at h
  · cases h
  rename_i hsecure
  simp only [Bool.not_eq_true', Bool.not_eq_false, Expected.matchesReport, Bool.and_eq_true] at hmatch
  simp only [not_or, not_not, Bool.not_eq_true', Bool.not_eq_false] at hsecure
  exact ⟨hmatch.1.1.1.2, hmatch.2, hsecure.2.2⟩

/-- A link report is one of the listed transitions. -/
theorem reportLink_transition (file : Nat) (jiffies : UInt64) (input : LinkInput)
    (informed : Bool) :
    Transition hz p (.control file true true jiffies (.reportLink input informed))
      (p.reportLink input informed).1 (p.reportLink input informed).2 := by
  unfold reportLink
  split
  · exact .failed
  split
  · exact .failed
  split
  · exact .failed
  rename_i hstale
  rw [Bool.not_eq_true] at hstale
  split
  · rename_i hdown
    obtain ⟨-, hconn, hop⟩ := rest_of_not_stale hstale (by simp [hdown])
    split
    · exact .failed
    · exact .linkDown hconn hop
  split
  · exact .failed
  rename_i hcheck
  split
  · exact .failed
  dsimp only
  split
  · rename_i hroam
    have hstate : input.report.state ≠ 2 := by simp [hroam.1]
    obtain ⟨hsequence, hconn, hop⟩ := rest_of_not_stale hstale hstate
    obtain ⟨hvalid, hpin, hsecurity⟩ := Expected.check_eq_ok hcheck
    rw [expected, if_neg hstate] at hpin hsecurity
    refine .roamed hconn hop hroam.1 hsequence hvalid (fun hpinned => ?_) hsecurity
    simpa [hpinned] using hpin
  · exact .same rfl (by simp [Call.isCompletion])

/-- Every command of the bridge is one of the listed transitions, the refused ones included. -/
theorem control_transition (file : Nat) (capable copied : Bool) (jiffies : UInt64)
    (cmd : Command) :
    Transition hz p (.control file capable copied jiffies cmd)
      (p.control file capable copied jiffies cmd).1 (p.control file capable copied jiffies cmd).2 := by
  unfold control
  cases capable
  · exact .failed
  cases copied
  · cases cmd <;> exact .failed
  cases cmd with
  | unknown => exact .failed
  | reportLink input informed => exact reportLink_transition hz p file jiffies input informed
  | getScan => exact .quiet _ p.lower p.running p.carrier rfl (by simp)
  | finishScan sequence => exact completeScan_transition hz p rfl sequence false
  | abortScan sequence => exact completeScan_transition hz p rfl sequence true
  | getConnection => exact .quiet _ p.lower p.running p.carrier rfl (by simp)
  | connectionResult completion => exact completeConnection_transition hz p file jiffies completion
  | signal sample => exact sample_transition hz p file jiffies sample
  | getCapabilities => exact .same rfl (by simp)
  | getLink => exact .same rfl (by simp)

/-- Publishing a network is one of the listed transitions. -/
theorem publish_transition (capable copied : Bool) (buffer : Data) (informed : Bool) :
    Transition hz p (.publish capable copied buffer informed)
      (p.publish capable copied buffer informed).1 (p.publish capable copied buffer informed).2 := by
  unfold publish
  dsimp only
  repeat' split
  all_goals first
    | exact .failed
    | exact .same rfl (by simp [Call.isCompletion])

/-- Stopping the device is one of the listed transitions. -/
theorem stopDevice_transition : Transition hz p .stopDevice p.stopDevice.1 p.stopDevice.2 := by
  unfold stopDevice
  dsimp only
  rw [finishScan_eq]
  dsimp only
  -- The running flag and the scan are no part of what ends a connection request.
  set q : Priv := { p with running := false, scan := none } with hq
  by_cases hop : p.connection.operation = .none
  · have hfin : q.finishConnection statusUnspecifiedFailure none = ([], q) :=
      finishConnection_none (p := q) hop _ _
    rw [hfin]
    cases hconn : p.connected with
    | false =>
        have hsame : p = { p with connected := false } := by simp [← hconn]
        have ht : Transition hz p .stopDevice _ _ := .stopped (.inr ⟨hop, hsame, rfl⟩)
        simpa [hq, hconn, scanCalls] using ht
    | true =>
        have ht : Transition hz p .stopDevice _ _ := .stopped (.inr ⟨hop, rfl, rfl⟩)
        simpa [hq, hconn, scanCalls] using ht
  · have hfin : q.finishConnection statusUnspecifiedFailure none =
        (q.endCalls statusUnspecifiedFailure none, q.cleared) :=
      finishConnection_ended none hop fun _ => by decide
    rw [hfin]
    have ht : Transition hz p .stopDevice _ _ := .stopped (.inl ⟨hop, rfl, rfl⟩)
    simpa [hq, cleared, dropLink, endCalls, scanCalls] using ht

/-- An event of the lower device is one of the listed transitions. -/
theorem lowerEvent_transition (event : NetdevEvent) (lower : Lower) :
    Transition hz p (.lowerEvent event lower) (p.lowerEvent event lower).1
      (p.lowerEvent event lower).2 := by
  unfold lowerEvent
  split
  · exact .same rfl (by simp)
  · cases event with
    | unregister => exact .quiet p.readers none p.running false rfl (by simp)
    | other => exact .quiet p.readers (some lower) p.running p.carrier rfl (by simp)
    | up | down | change => exact .quiet p.readers (some lower) p.running _ rfl (by simp)

/-- A query for the station is one of the listed transitions. -/
theorem station_transition {e : Event} (he : e.isRequest = false) (mac : Address)
    (jiffies : UInt64) :
    Transition hz p e (p.getStation hz mac jiffies).1 (p.getStation hz mac jiffies).2 := by
  unfold getStation
  split
  · exact .failed
  · exact .same he (by simp)

end Priv

/-- **Steps.**  An entry point fails and does nothing, or does one of the things a transition
does. -/
theorem step_transition (hz : UInt64) (p : Priv) (e : Event) :
    Transition hz p e (p.step hz e).1 (p.step hz e).2 := by
  cases e with
  | startScan request jiffies => exact p.startScan_transition hz request jiffies
  | abortScan => exact p.finishScan_transition hz rfl true
  | connectNetwork sme jiffies => exact p.connectNetwork_transition hz sme jiffies
  | disconnectNetwork reason jiffies => exact p.disconnectNetwork_transition hz reason jiffies
  | getStation mac jiffies => exact p.station_transition hz rfl mac jiffies
  | dumpStation idx jiffies =>
      simp only [Priv.step, Priv.dumpStation]
      split
      · exact .failed
      · exact p.station_transition hz rfl _ jiffies
  | scanTimeout jiffies later => exact p.scanTimeout_transition hz jiffies later
  | connectionTimeout jiffies later => exact p.connectionTimeout_transition hz jiffies later
  | control file capable copied jiffies cmd =>
      exact p.control_transition hz file capable copied jiffies cmd
  | publish capable copied buffer informed =>
      exact p.publish_transition hz capable copied buffer informed
  | bridgeOpen file capable =>
      simp only [Priv.step, Priv.bridgeOpen]
      split
      · exact .failed
      · exact .quiet _ p.lower p.running p.carrier rfl (by simp)
  | bridgeRelease file => exact .quiet _ p.lower p.running p.carrier rfl (by simp)
  | bridgePoll file capable =>
      simp only [Priv.step, Priv.bridgePoll]
      split <;> exact .same rfl (by simp)
  | openDevice => exact .quiet p.readers p.lower true p.carrier rfl (by simp)
  | stopDevice => exact p.stopDevice_transition hz
  | lowerEvent event lower => exact p.lowerEvent_transition hz event lower

end Ashacky.Wifi
