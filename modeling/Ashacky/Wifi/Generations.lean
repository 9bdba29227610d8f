import Ashacky.Wifi.Transitions

/-!
# Wi-Fi — Generations

Requests of the driver over whole runs.  A sequence number names the request it was given to,
and every request the driver accepts is completed once.

* `late_refused`: a reply to a request that is no longer pending is refused and does nothing.
* `sequenceAfter_far`: the counter, which skips zero, comes back to a value only after
  `2 ^ 32 - 1` requests.
* `Ledger`: the accepted scans are the completed ones, in order, and the pending one; the
  accepted connects are as many as the completed ones and the pending one; the associations are
  as many as the reported losses and the current one.
* `generation_safety`: all of it, in every state of every run.
-/

namespace Ashacky.Wifi
open Ashacky.Support

/-- What happened in a run. -/
abbrev Trace := List (Event × Output)

/-- A run of the driver on a kernel of `hz` ticks a second. -/
abbrev Run (hz : UInt64) : Priv → Trace → Priv → Prop :=
  Steps fun p e o p' => p.step hz e = (o, p')

/-- Every step of the driver is one of the listed transitions. -/
theorem transition_of_step {hz : UInt64} {p p' : Priv} {e : Event} {o : Output}
    (h : p.step hz e = (o, p')) : Transition hz p e o p' := by
  have ht := step_transition hz p e
  rwa [h] at ht

/-- The run that a list of events makes. -/
def Priv.run (hz : UInt64) (p : Priv) : List Event → Trace × Priv
  | [] => ([], p)
  | e :: es =>
      let (o, p') := p.step hz e
      let (t, p'') := Priv.run hz p' es
      ((e, o) :: t, p'')

/-- Events that are run make a run. -/
theorem Priv.run_steps (hz : UInt64) (p : Priv) (es : List Event) :
    Run hz p (p.run hz es).1 (p.run hz es).2 := by
  induction es generalizing p with
  | nil => exact .refl p
  | cons e es ih => exact .more rfl (ih (p.step hz e).2)

/-! ### Late replies -/

/-- The event is a reply to a request that is not the pending one, or a report that does not fit
the current session. -/
def Late (p : Priv) : Event → Prop
  | .control _ _ _ _ (.finishScan sequence) | .control _ _ _ _ (.abortScan sequence) =>
      p.scan = none ∨ sequence ≠ p.sequence
  | .publish _ _ buffer _ => p.scan = none ∨ (Record.unpack buffer).sequence ≠ p.sequence
  | .control _ _ _ _ (.connectionResult completion) =>
      p.connection.operation = .none ∨ completion.sequence ≠ p.connection.sequence
  | .control _ _ _ _ (.reportLink input _) =>
      input.report.sequence ≠ p.connectionSequence ∨
      (input.report.state = 2 ∧ p.connection.operation ≠ .connect) ∨
      ((input.report.state = 0 ∨ input.report.state = 1) ∧
        (p.connected = false ∨ p.connection.operation ≠ .none))
  | _ => False

/-- The caller has `CAP_NET_ADMIN`, and its memory can be read and written. -/
def Event.unhindered : Event → Bool
  | .control _ capable copied _ _ | .publish capable copied _ _ => capable && copied
  | _ => true

/-- The step fails and does nothing; an unhindered caller is told that its reply is late or
invalid. -/
def Refused (hz : UInt64) (p : Priv) (e : Event) : Prop :=
  ∃ x, p.step hz e = (⟨.error x, []⟩, p) ∧ (e.unhindered → x = .ESTALE ∨ x = .EINVAL)

/-- The end of a scan that is not the current one is refused as stale. -/
theorem completeScan_late {p : Priv} {sequence : UInt32} (aborted : Bool)
    (h : p.scan = none ∨ sequence ≠ p.sequence) :
    p.completeScan sequence aborted = p.fail .ESTALE := by
  rw [Priv.completeScan, if_pos]
  rcases h with h | h
  · exact .inl (by simp [h])
  · exact .inr h

/-- The result of an operation that is not the current one is refused as stale. -/
theorem completeConnection_late {p : Priv} {completion : ConnectionResult}
    (h : p.connection.operation = .none ∨ completion.sequence ≠ p.connection.sequence) :
    p.completeConnection completion = p.fail .ESTALE := by
  rw [Priv.completeConnection, if_pos h]

/-- A network of another scan is not published. -/
theorem publish_late {p : Priv} {buffer : Data} (informed : Bool)
    (h : p.scan = none ∨ (Record.unpack buffer).sequence ≠ p.sequence) :
    ∃ x, p.publish true true buffer informed = p.fail x ∧ (x = .ESTALE ∨ x = .EINVAL) := by
  have hstale : p.scan.isNone ∨ p.sequence ≠ (Record.unpack buffer).sequence := by
    rcases h with h | h
    · exact .inl (by simp [h])
    · exact .inr (Ne.symm h)
  unfold Priv.publish
  simp only [Bool.not_true, Bool.false_eq_true, if_false]
  split
  · exact ⟨_, rfl, .inr rfl⟩
  split
  · exact ⟨_, rfl, .inr rfl⟩
  split
  · rename_i x hwalk
    exact ⟨x, rfl, .inr (walkRecord_error hwalk)⟩
  · exact ⟨_, rfl, .inl rfl⟩

/-- A report of another operation is stale, and so is one that the state does not call for. -/
theorem reportStale_of_late {p : Priv} {report : LinkReport}
    (h : report.sequence ≠ p.connectionSequence ∨
      (report.state = 2 ∧ p.connection.operation ≠ .connect) ∨
      ((report.state = 0 ∨ report.state = 1) ∧
        (p.connected = false ∨ p.connection.operation ≠ .none))) :
    p.reportStale report := by
  rw [Priv.reportStale, Bool.or_eq_true]
  rcases h with h | ⟨h₂, hop⟩ | ⟨hs, hrest⟩
  · exact .inl (by simpa using h)
  · exact .inr (by simpa [h₂] using hop)
  · have hne : report.state ≠ 2 := by rcases hs with hs | hs <;> simp [hs]
    exact .inr (by simpa [hne] using hrest)

/-- A late report is refused, as stale or as invalid. -/
theorem reportLink_late {p : Priv} {input : LinkInput} (informed : Bool)
    (h : input.report.sequence ≠ p.connectionSequence ∨
      (input.report.state = 2 ∧ p.connection.operation ≠ .connect) ∨
      ((input.report.state = 0 ∨ input.report.state = 1) ∧
        (p.connected = false ∨ p.connection.operation ≠ .none))) :
    ∃ x, p.reportLink input informed = p.fail x ∧ (x = .ESTALE ∨ x = .EINVAL) := by
  unfold Priv.reportLink
  split
  · exact ⟨_, rfl, .inr rfl⟩
  split
  · exact ⟨_, rfl, .inr rfl⟩
  rw [if_pos (reportStale_of_late h)]
  exact ⟨_, rfl, .inl rfl⟩

/-- A command that a caller without the capability, or with memory that cannot be copied, makes
does nothing. -/
theorem control_hindered (p : Priv) (file : Nat) (capable copied : Bool) (jiffies : UInt64)
    (cmd : Command) (h : (capable && copied) = false) :
    ∃ x, p.control file capable copied jiffies cmd = p.fail x := by
  unfold Priv.control
  cases capable
  · exact ⟨_, rfl⟩
  · cases copied
    · cases cmd <;> exact ⟨_, rfl⟩
    · cases h

/-- Without the capability, or when the copy fails, nothing is published. -/
theorem publish_hindered (p : Priv) (capable copied : Bool) (buffer : Data) (informed : Bool)
    (h : (capable && copied) = false) :
    ∃ x, p.publish capable copied buffer informed = p.fail x := by
  unfold Priv.publish
  cases capable
  · exact ⟨_, rfl⟩
  · cases copied
    · simp only [Bool.not_true, Bool.false_eq_true, if_false, Bool.not_false, if_true]
      split <;> exact ⟨_, rfl⟩
    · cases h

/-- **Late replies.**  A reply to a request that is not pending, and a report that does not fit
the session, is refused and does nothing. -/
theorem late_refused (hz : UInt64) (p : Priv) (e : Event) (h : Late p e) : Refused hz p e := by
  cases e with
  | control file capable copied jiffies cmd =>
      cases hh : capable && copied with
      | false =>
          obtain ⟨x, hx⟩ := control_hindered p file capable copied jiffies cmd hh
          exact ⟨x, hx, fun hu => absurd hu (by simp [Event.unhindered, hh])⟩
      | true =>
          obtain ⟨rfl, rfl⟩ := Bool.and_eq_true_iff.mp hh
          cases cmd with
          | finishScan sequence =>
              exact ⟨_, completeScan_late false h, fun _ => .inl rfl⟩
          | abortScan sequence =>
              exact ⟨_, completeScan_late true h, fun _ => .inl rfl⟩
          | connectionResult completion =>
              exact ⟨_, completeConnection_late h, fun _ => .inl rfl⟩
          | reportLink input informed =>
              obtain ⟨x, hx, hkind⟩ := reportLink_late informed h
              exact ⟨x, hx, fun _ => hkind⟩
          | getScan | getConnection | signal | getCapabilities | getLink | unknown =>
              exact h.elim
  | publish capable copied buffer informed =>
      cases hh : capable && copied with
      | false =>
          obtain ⟨x, hx⟩ := publish_hindered p capable copied buffer informed hh
          exact ⟨x, hx, fun hu => absurd hu (by simp [Event.unhindered, hh])⟩
      | true =>
          obtain ⟨rfl, rfl⟩ := Bool.and_eq_true_iff.mp hh
          obtain ⟨x, hx, hkind⟩ := publish_late informed h
          exact ⟨x, hx, fun _ => hkind⟩
  | _ => exact h.elim

/-! ### The counter -/

/-- The counter after `k` requests. -/
def sequenceAfter : Nat → UInt32
  | 0 => 0
  | k + 1 => nextSequence (sequenceAfter k)

/-- The sequence counts up, and passes over zero when it wraps. -/
theorem toNat_nextSequence (n : UInt32) :
    (nextSequence n).toNat = if n.toNat = 2 ^ 32 - 1 then 1 else n.toNat + 1 := by
  have hlt : n.toNat < 2 ^ 32 := n.toNat_lt
  have hsum : (n + 1).toNat = (n.toNat + 1) % 2 ^ 32 := UInt32.toNat_add n 1
  rw [nextSequence]
  by_cases hmax : n.toNat = 2 ^ 32 - 1
  · have hzero : n + 1 = 0 := by
      apply UInt32.toNat_inj.mp
      rw [hsum, hmax]
      rfl
    rw [if_pos hzero, if_pos hmax, hzero]
    rfl
  · have hne : n + 1 ≠ 0 := by
      intro hzero
      rw [hzero] at hsum
      have h0 : (0 : UInt32).toNat = 0 := rfl
      omega
    rw [if_neg hne, if_neg hmax, hsum]
    omega

/-- The counter runs through the nonzero values and starts again. -/
theorem toNat_sequenceAfter (k : Nat) : (sequenceAfter (k + 1)).toNat = k % (2 ^ 32 - 1) + 1 := by
  induction k with
  | zero => rfl
  | succ k ih =>
      rw [sequenceAfter, toNat_nextSequence, ih]
      split <;> omega

/-- No operation has the sequence zero. -/
theorem sequenceAfter_ne_zero (k : Nat) : sequenceAfter (k + 1) ≠ 0 := by
  intro h
  have hk := toNat_sequenceAfter k
  rw [h] at hk
  cases hk

/-- **The counter comes back late.**  Two requests with one value are at least `2 ^ 32 - 1`
requests apart. -/
theorem sequenceAfter_far {k n : Nat} (hk : 0 < k) (hn : 0 < n)
    (h : sequenceAfter (k + n) = sequenceAfter k) : 2 ^ 32 - 1 ≤ n := by
  obtain ⟨k, rfl⟩ := Nat.exists_eq_add_of_lt hk
  have h₁ := toNat_sequenceAfter (0 + k)
  have h₂ := toNat_sequenceAfter (0 + k + n)
  rw [show 0 + k + 1 + n = 0 + k + n + 1 by omega] at h
  rw [h, h₁] at h₂
  omega

/-! ### Requests and completions -/

/-- The scan a call completes. -/
def Call.scan : Call → Option Nat
  | .scanDone request _ => some request
  | _ => none

/-- The status a call completes a connect with. -/
def Call.status : Call → Option UInt16
  | .connectResult _ status => some status
  | _ => none

/-- The call reports the loss of an association. -/
def Call.isLoss : Call → Bool
  | .disconnected _ _ => true
  | _ => false

/-- The scan a step accepted. -/
def scanAccepted : Event × Output → List Nat
  | (.startScan request _, ⟨.ok _, _⟩) => [request]
  | _ => []

/-- The connect a step accepted. -/
def connectAccepted : Event × Output → List ConnectParams
  | (.connectNetwork sme _, ⟨.ok _, _⟩) => [sme]
  | _ => []

/-- The connect or disconnect a step accepted. -/
def operationAccepted : Event × Output → List Operation
  | (.connectNetwork _ _, ⟨.ok _, _⟩) => [.connect]
  | (.disconnectNetwork _ _, ⟨.ok _, _⟩) => [.disconnect]
  | _ => []

/-- The scans that were accepted, in order. -/
def acceptedScans (t : Trace) : List Nat := t.flatMap scanAccepted

/-- The scans that were completed by `cfg80211_scan_done`, in order. -/
def completedScans (t : Trace) : List Nat := t.flatMap fun s => s.2.calls.filterMap Call.scan

def acceptedConnects (t : Trace) : List ConnectParams := t.flatMap connectAccepted

/-- The statuses of the calls of `cfg80211_connect_result`, in order. -/
def completedConnects (t : Trace) : List UInt16 := t.flatMap fun s => s.2.calls.filterMap Call.status

def acceptedOperations (t : Trace) : List Operation := t.flatMap operationAccepted

/-- How often `cfg80211_disconnected` was called. -/
def losses (t : Trace) : Nat := (t.flatMap fun s => s.2.calls.filter Call.isLoss).length

section Quiet
variable {e : Event} {calls : List Call}

/-- Only requests are accepted as scans, connections or operations. -/
theorem accepted_of_not_request (he : e.isRequest = false) (o : Output) :
    scanAccepted (e, o) = [] ∧ connectAccepted (e, o) = [] ∧ operationAccepted (e, o) = [] := by
  cases e <;> first | exact ⟨rfl, rfl, rfl⟩ | cases he

/-- A request that is refused is not accepted as anything. -/
theorem accepted_of_error (e : Event) (x : Errno) (calls : List Call) :
    scanAccepted (e, ⟨.error x, calls⟩) = [] ∧ connectAccepted (e, ⟨.error x, calls⟩) = [] ∧
      operationAccepted (e, ⟨.error x, calls⟩) = [] := by
  cases e <;> exact ⟨rfl, rfl, rfl⟩

/-- Calls that complete nothing are not counted as ends. -/
theorem completed_of_quiet (h : ∀ c ∈ calls, c.isCompletion = false) :
    calls.filterMap Call.scan = [] ∧ calls.filterMap Call.status = [] ∧
      calls.filter Call.isLoss = [] := by
  refine ⟨List.filterMap_eq_nil_iff.mpr fun c hc => ?_,
    List.filterMap_eq_nil_iff.mpr fun c hc => ?_, List.filter_eq_nil_iff.mpr fun c hc => ?_⟩
  all_goals
    have hquiet := h c hc
    cases c <;> simp_all [Call.scan, Call.status, Call.isLoss, Call.isCompletion]

end Quiet

section EndCalls
variable (p : Priv) (status : UInt16) (bssid : Option Address) (aborted : Bool)

/-- Ending the association completes no scan. -/
@[simp] theorem scan_endCalls : (p.endCalls status bssid).filterMap Call.scan = [] := by
  unfold Priv.endCalls
  split
  · rfl
  · rfl
  · split <;> rfl

/-- Ending the association completes the connect that was pending, if any. -/
theorem status_endCalls : (p.endCalls status bssid).filterMap Call.status =
    if p.connection.operation = .connect then [status] else [] := by
  unfold Priv.endCalls
  split <;> rename_i h
  · rw [h]
    rfl
  · rw [h]
    rfl
  · rw [h]
    split <;> rfl

/-- Finishing a scan completes the one that was pending, if any. -/
@[simp] theorem scan_scanCalls : (p.scanCalls aborted).filterMap Call.scan = p.scan.toList := by
  cases h : p.scan <;> simp [Priv.scanCalls, h, Call.scan]

@[simp] theorem status_scanCalls : (p.scanCalls aborted).filterMap Call.status = [] := by
  cases h : p.scan <;> simp [Priv.scanCalls, h, Call.status]

@[simp] theorem isLoss_scanCalls : (p.scanCalls aborted).filter Call.isLoss = [] := by
  cases h : p.scan <;> simp [Priv.scanCalls, h, Call.isLoss]

end EndCalls

/-! ### One step -/

section Step
variable {hz : UInt64} {p p' : Priv} {e : Event} {o : Output}

/-- The pending scan and the one accepted are the ones completed and the one pending then. -/
theorem Transition.scans (h : Transition hz p e o p') :
    p.scan.toList ++ scanAccepted (e, o) = o.calls.filterMap Call.scan ++ p'.scan.toList := by
  cases h with
  | failed => simp [(accepted_of_error e _ []).1]
  | quiet readers lower running carrier he hcalls =>
      simp [(accepted_of_not_request he _).1, (completed_of_quiet hcalls).1]
  | scanStarted hscan => simp [hscan, scanAccepted, Call.scan]
  | scanFinished he => simp [(accepted_of_not_request he _).1]
  | connectStarted hscan => simp [hscan, scanAccepted, Call.scan]
  | disconnectStarted hop hq =>
      subst hq
      split <;> simp [scanAccepted, Call.scan, Priv.cleared, Priv.dropLink]
  | established => simp [scanAccepted, Call.scan, Priv.established]
  | ended he => simp [(accepted_of_not_request he _).1, Priv.cleared, Priv.dropLink]
  | linkDown => simp [scanAccepted, Call.scan, Priv.dropLink]
  | roamed => simp [scanAccepted, Call.scan]
  | sampled => simp [scanAccepted]
  | stopped hq =>
      rcases hq with ⟨-, rfl, rfl⟩ | ⟨-, rfl, rfl⟩
      · simp [scanAccepted, Call.scan, List.filterMap_append]
      · split <;> simp [scanAccepted, Call.scan, List.filterMap_append]

/-- One step of a scan counts as the counter does. -/
theorem Transition.sequence (h : Transition hz p e o p') {n : Nat}
    (hn : p.sequence = sequenceAfter n) :
    p'.sequence = sequenceAfter (n + (scanAccepted (e, o)).length) := by
  cases h with
  | failed => simpa [(accepted_of_error e _ []).1] using hn
  | quiet readers lower running carrier he => simpa [(accepted_of_not_request he _).1] using hn
  | scanStarted => simp [scanAccepted, sequenceAfter, hn]
  | scanFinished he => simpa [(accepted_of_not_request he _).1] using hn
  | disconnectStarted hop hq =>
      subst hq
      split <;> simpa [scanAccepted, Priv.cleared, Priv.dropLink] using hn
  | ended he =>
      simpa [(accepted_of_not_request he _).1, Priv.cleared, Priv.dropLink] using hn
  | stopped hq =>
      rcases hq with ⟨-, rfl, rfl⟩ | ⟨-, rfl, rfl⟩ <;>
        simpa [scanAccepted, Priv.cleared, Priv.dropLink] using hn
  | connectStarted | established | linkDown | roamed | sampled =>
      simpa [scanAccepted, Priv.established, Priv.dropLink] using hn

/-- The sequence goes up by one with each operation that is accepted. -/
theorem Transition.connectionSequence (h : Transition hz p e o p') {n : Nat}
    (hn : p.connectionSequence = sequenceAfter n) :
    p'.connectionSequence = sequenceAfter (n + (operationAccepted (e, o)).length) := by
  cases h with
  | failed => simpa [(accepted_of_error e _ []).2.2] using hn
  | quiet readers lower running carrier he =>
      simpa [(accepted_of_not_request he _).2.2] using hn
  | scanFinished he => simpa [(accepted_of_not_request he _).2.2] using hn
  | connectStarted => simp [operationAccepted, sequenceAfter, hn]
  | disconnectStarted => simp [operationAccepted, sequenceAfter, hn]
  | ended he =>
      simpa [(accepted_of_not_request he _).2.2, Priv.cleared, Priv.dropLink] using hn
  | stopped hq =>
      rcases hq with ⟨-, rfl, rfl⟩ | ⟨-, rfl, rfl⟩ <;>
        simpa [operationAccepted, Priv.cleared, Priv.dropLink] using hn
  | scanStarted | established | linkDown | roamed | sampled =>
      simpa [operationAccepted, Priv.established, Priv.dropLink] using hn

end Step

/-- A connect is pending: one, or none. -/
def pendingConnects (p : Priv) : Nat := if p.connection.operation = .connect then 1 else 0

section Step
variable {hz : UInt64} {p p' : Priv} {e : Event} {o : Output}

/-- No connect is pending once the association is cleared. -/
theorem pendingConnects_cleared (p : Priv) : pendingConnects p.cleared = 0 := rfl

/-- The pending connect and the one accepted are completed or still pending. -/
theorem Transition.connects (h : Transition hz p e o p') :
    pendingConnects p + (connectAccepted (e, o)).length =
      (o.calls.filterMap Call.status).length + pendingConnects p' := by
  cases h with
  | failed => simp [(accepted_of_error e _ []).2.1]
  | quiet readers lower running carrier he hcalls =>
      simp [(accepted_of_not_request he _).2.1, (completed_of_quiet hcalls).2.1, pendingConnects]
  | scanStarted hscan => simp [connectAccepted, Call.status, pendingConnects]
  | scanFinished he => simp [(accepted_of_not_request he _).2.1, pendingConnects]
  | connectStarted hscan hop =>
      simp [connectAccepted, Call.status, pendingConnects, hop, Priv.fillConnection]
  | disconnectStarted hop hq =>
      simp only [connectAccepted, List.filterMap_append, status_endCalls, pendingConnects]
      split <;> simp [Call.status, List.filterMap_cons]
  | established hop =>
      simp [connectAccepted, Call.status, pendingConnects, hop, Priv.established, Connection.zero]
  | ended he hop =>
      rw [(accepted_of_not_request he _).2.1, status_endCalls, pendingConnects_cleared,
        pendingConnects]
      split <;> rfl
  | linkDown hconn hop =>
      simp [connectAccepted, Call.status, List.filterMap_cons, pendingConnects, Priv.dropLink, hop]
  | roamed => simp [connectAccepted, Call.status, pendingConnects]
  | sampled => simp [connectAccepted, pendingConnects]
  | stopped hq =>
      rcases hq with ⟨hop, rfl, rfl⟩ | ⟨hop, rfl, rfl⟩
      · simp only [connectAccepted, List.filterMap_append, status_endCalls, pendingConnects]
        split <;> simp [Call.status, List.filterMap_cons, Priv.cleared, Connection.zero]
      · cases p.connected <;>
          simp [connectAccepted, Call.status, List.filterMap_cons, pendingConnects, hop]

/-- A connect is not pending while an association stands. -/
theorem Transition.exclusive (h : Transition hz p e o p')
    (hx : p.connected → p.connection.operation ≠ .connect) :
    p'.connected → p'.connection.operation ≠ .connect := by
  cases h with
  | failed => exact hx
  | quiet => exact hx
  | scanStarted => exact hx
  | scanFinished => exact hx
  | connectStarted hscan hop hconn =>
      intro hc
      exact absurd hc (by simp [hconn])
  | disconnectStarted =>
      intro _ hop
      cases hop
  | established =>
      intro _ hop
      cases hop
  | ended =>
      intro hc
      cases hc
  | linkDown =>
      intro hc
      cases hc
  | roamed => exact hx
  | sampled => exact hx
  | stopped hq =>
      rcases hq with ⟨-, rfl, -⟩ | ⟨-, rfl, -⟩ <;>
        · intro hc
          cases hc

/-- Ending a request without an association reports the one that stood. -/
theorem associations_endCalls {status : UInt16} (bssid : Option Address)
    (hop : p.connection.operation ≠ .none)
    (hstatus : p.connection.operation = .connect → status ≠ statusSuccess)
    (hx : p.connected → p.connection.operation ≠ .connect) :
    p.connected.toNat + ((p.endCalls status bssid).filterMap Call.status).count statusSuccess =
      ((p.endCalls status bssid).filter Call.isLoss).length := by
  cases hop' : p.connection.operation with
  | none => exact absurd hop' hop
  | connect =>
      have hconn : p.connected = false := by simpa [hop'] using hx
      simp [Priv.endCalls, hop', Call.status, Call.isLoss, hconn, hstatus hop']
  | disconnect =>
      cases hconn : p.connected <;>
        simp [Priv.endCalls, hop', Call.status, Call.isLoss, hconn, List.filterMap_cons,
          List.filter_cons]

/-- An association that stands or is made is reported as lost or still stands. -/
theorem Transition.associations (h : Transition hz p e o p')
    (hx : p.connected → p.connection.operation ≠ .connect) :
    p.connected.toNat + (o.calls.filterMap Call.status).count statusSuccess =
      (o.calls.filter Call.isLoss).length + p'.connected.toNat := by
  cases h with
  | failed => simp
  | quiet readers lower running carrier he hcalls =>
      simp [(completed_of_quiet hcalls).2.1, (completed_of_quiet hcalls).2.2]
  | scanStarted => simp [Call.status, Call.isLoss, List.filterMap_cons]
  | scanFinished => simp
  | connectStarted hscan hop hconn => simp [Call.status, Call.isLoss, List.filterMap_cons]
  | disconnectStarted hop hq =>
      subst hq
      cases hop' : p.connection.operation with
      | none => simp [Priv.endCalls, hop', Call.status, Call.isLoss, List.filterMap_cons]
      | connect =>
          have hconn : p.connected = false := by simpa [hop'] using hx
          simp [Priv.endCalls, hop', Call.status, Call.isLoss, List.filterMap_cons, hconn,
            Priv.cleared, Priv.dropLink, statusUnspecifiedFailure, statusSuccess]
      | disconnect => exact absurd hop' hop
  | established hop =>
      have hconn : p.connected = false := by simpa [hop] using hx
      simp [Call.status, Call.isLoss, hconn, Priv.established]
  | ended he hop hstatus => exact associations_endCalls _ hop hstatus hx
  | linkDown hconn =>
      simp [hconn, Call.status, Call.isLoss, List.filterMap_cons, List.filter_cons, Priv.dropLink]
  | roamed => simp [Call.status, Call.isLoss, List.filterMap_cons]
  | sampled => simp
  | stopped hq =>
      rcases hq with ⟨hop, rfl, rfl⟩ | ⟨hop, rfl, rfl⟩
      · have hfailed : statusUnspecifiedFailure ≠ statusSuccess := by decide
        have hend := associations_endCalls none hop (fun _ => hfailed) hx
        simpa [Call.status, Call.isLoss, List.filterMap_cons, Priv.cleared, Priv.dropLink] using hend
      · cases hconn : p.connected <;>
          simp [Call.status, Call.isLoss, List.filterMap_cons, List.filter_cons]

end Step

/-! ### Runs -/

/-- Every number a reply can be matched with is that of a request, and is not zero. -/
structure Live (p : Priv) : Prop where
  scan : p.scan.isSome → p.sequence ≠ 0
  connection : p.connection.operation ≠ .none →
    p.connection.sequence = p.connectionSequence ∧ p.connectionSequence ≠ 0
  link : p.connected → p.connectionSequence ≠ 0

/-- The next sequence is never zero. -/
theorem nextSequence_ne_zero (n : UInt32) : nextSequence n ≠ 0 := by
  intro h
  have hn := toNat_nextSequence n
  rw [h] at hn
  have h0 : (0 : UInt32).toNat = 0 := rfl
  split at hn <;> omega

/-- At the start there is nothing that a reply could match. -/
theorem Live.init (lower : Option Lower) : Live (.init lower) where
  scan := nofun
  connection := fun h => absurd rfl h
  link := nofun

/-- Each transition leaves every number that a reply can match different from zero. -/
theorem Live.step {hz : UInt64} {p p' : Priv} {e : Event} {o : Output} (h : Live p)
    (ht : Transition hz p e o p') : Live p' := by
  -- Each number changes only to a new one, which is not zero.
  obtain ⟨hscan, hop, hlink⟩ := h
  cases ht with
  | failed => exact ⟨hscan, hop, hlink⟩
  | quiet => exact ⟨hscan, hop, hlink⟩
  | scanStarted => exact ⟨fun _ => nextSequence_ne_zero _, hop, hlink⟩
  | scanFinished => exact ⟨nofun, hop, hlink⟩
  | connectStarted =>
      exact ⟨hscan, fun _ => ⟨rfl, nextSequence_ne_zero _⟩, fun _ => nextSequence_ne_zero _⟩
  | disconnectStarted hne hq =>
      refine ⟨?_, fun _ => ⟨rfl, nextSequence_ne_zero _⟩, fun _ => nextSequence_ne_zero _⟩
      subst hq
      split <;> exact hscan
  | established hpending =>
      exact ⟨hscan, fun h => absurd rfl h, fun _ => (hop (by simp [hpending])).2⟩
  | ended => exact ⟨hscan, fun h => absurd rfl h, nofun⟩
  | linkDown => exact ⟨hscan, hop, nofun⟩
  | roamed => exact ⟨hscan, hop, hlink⟩
  | sampled => exact ⟨hscan, hop, hlink⟩
  | stopped hq =>
      rcases hq with ⟨-, rfl, -⟩ | ⟨-, rfl, -⟩
      · exact ⟨nofun, fun h => absurd rfl h, nofun⟩
      · exact ⟨nofun, hop, nofun⟩

/-- In every reachable state the numbers that a reply can match are not zero. -/
theorem Run.live {hz : UInt64} {lower : Option Lower} {t : Trace} {p : Priv}
    (h : Run hz (.init lower) t p) : Live p :=
  Steps.invariant (I := Live) (fun hl hs => hl.step (transition_of_step hs)) h (.init lower)

/-- The requests of a run against what was completed. -/
structure Ledger (t : Trace) (p : Priv) : Prop where
  scans : acceptedScans t = completedScans t ++ p.scan.toList
  sequence : p.sequence = sequenceAfter (acceptedScans t).length
  connects : (acceptedConnects t).length = (completedConnects t).length + pendingConnects p
  connectionSequence : p.connectionSequence = sequenceAfter (acceptedOperations t).length
  exclusive : p.connected → p.connection.operation ≠ .connect
  associations : (completedConnects t).count statusSuccess = losses t + p.connected.toNat

/-- At the start nothing was accepted and nothing has ended. -/
theorem Ledger.init (lower : Option Lower) : Ledger [] (.init lower) where
  scans := rfl
  sequence := rfl
  connects := rfl
  connectionSequence := rfl
  exclusive := fun h => by cases h
  associations := rfl

/-- Each transition keeps the accepted requests apart into ended and pending ones. -/
theorem Ledger.step {hz : UInt64} {t : Trace} {p p' : Priv} {e : Event} {o : Output}
    (h : Ledger t p) (ht : Transition hz p e o p') : Ledger (t ++ [(e, o)]) p' where
  scans := by
    have hstep := ht.scans
    simp only [acceptedScans, completedScans, List.flatMap_append, List.flatMap_singleton]
    rw [List.append_assoc, ← hstep, ← List.append_assoc]
    exact congrArg (· ++ _) h.scans
  sequence := by
    have hstep := ht.sequence h.sequence
    simpa [acceptedScans, List.flatMap_append] using hstep
  connects := by
    have hstep := ht.connects
    have hsum := h.connects
    simp only [acceptedConnects, completedConnects, List.flatMap_append, List.flatMap_singleton,
      List.length_append] at hsum ⊢
    omega
  connectionSequence := by
    have hstep := ht.connectionSequence h.connectionSequence
    simpa [acceptedOperations, List.flatMap_append] using hstep
  exclusive := ht.exclusive h.exclusive
  associations := by
    have hstep := ht.associations h.exclusive
    have hsum := h.associations
    simp only [completedConnects, losses, List.flatMap_append, List.flatMap_singleton,
      List.length_append, List.count_append] at hsum ⊢
    omega

/-- In every run each accepted request has ended once, or it is pending. -/
theorem Run.ledger {hz : UInt64} {lower : Option Lower} {t : Trace} {p : Priv}
    (h : Run hz (.init lower) t p) : Ledger t p :=
  Steps.invariant_trace (I := fun p t => Ledger t p)
    (fun hl hs => hl.step (transition_of_step hs)) h (.init lower)

/-- Between two requests with one number there are at least `2 ^ 32 - 1`. -/
def Apart (accepted : Nat) (sequence sequence' : UInt32) : Prop :=
  sequence ≠ 0 → sequence' = sequence → 0 < accepted → 2 ^ 32 - 1 ≤ accepted

/-- Operations that far apart have different sequences, unless the counter went round. -/
theorem apart_of_sequenceAfter {k n : Nat} {sequence sequence' : UInt32}
    (h : sequence = sequenceAfter k) (h' : sequence' = sequenceAfter (k + n)) :
    Apart n sequence sequence' := by
  intro hne heq hn
  have hk : 0 < k := by
    rcases Nat.eq_zero_or_pos k with rfl | hk
    · exact absurd h hne
    · exact hk
  exact sequenceAfter_far hk hn (by rw [← h', ← h, heq])

/-- **Generations and completions.**  In every state of every run: a late reply is refused and
does nothing; every live number is not zero, and the same number is given again only after
`2 ^ 32 - 1` requests; the accepted scans are the ones completed by `cfg80211_scan_done`, once
each and in order, and the pending one; and `cfg80211_connect_result` was called as often as a
connect was accepted, less the pending one. -/
theorem generation_safety (hz : UInt64) (lower : Option Lower) (t : Trace) (p : Priv)
    (h : Run hz (.init lower) t p) :
    (∀ e, Late p e → Refused hz p e) ∧
    Live p ∧
    (∀ u p', Run hz p u p' →
      Apart (acceptedScans u).length p.sequence p'.sequence ∧
      Apart (acceptedOperations u).length p.connectionSequence p'.connectionSequence) ∧
    acceptedScans t = completedScans t ++ p.scan.toList ∧
    (completedScans t).length + (if p.scan.isSome then 1 else 0) = (acceptedScans t).length ∧
    (completedConnects t).length + (if p.connection.operation = .connect then 1 else 0) =
      (acceptedConnects t).length ∧
    losses t + (if p.connected then 1 else 0) = (completedConnects t).count statusSuccess := by
  have hl := Run.ledger h
  refine ⟨late_refused hz p, Run.live h, fun u p' hu => ?_, hl.scans, ?_, hl.connects.symm, ?_⟩
  · have hl' := Run.ledger (h.append hu)
    have hscans := hl'.sequence
    have hoperations := hl'.connectionSequence
    rw [acceptedScans, List.flatMap_append, List.length_append] at hscans
    rw [acceptedOperations, List.flatMap_append, List.length_append] at hoperations
    exact ⟨apart_of_sequenceAfter hl.sequence hscans,
      apart_of_sequenceAfter hl.connectionSequence hoperations⟩
  · rw [hl.scans, List.length_append]
    cases p.scan <;> rfl
  · rw [hl.associations]
    cases p.connected <;> rfl

/-- A scan that is finished, and the next one. -/
def twoScans : List Event :=
  [.startScan 7 0, .control 0 true true 0 (.finishScan 1), .startScan 8 0]

/-- The reply to the first scan comes again when the second is pending. -/
theorem generation_safety_two_scans :
    acceptedScans ((Priv.init none).run 250 twoScans).1 = [7] ++ [8] ∧
    Refused 250 ((Priv.init none).run 250 twoScans).2 (.control 0 true true 0 (.finishScan 1)) := by
  have h := generation_safety 250 none _ _ (Priv.run_steps 250 (.init none) twoScans)
  exact ⟨h.2.2.2.1, h.1 _ (.inr (by decide))⟩

end Ashacky.Wifi
