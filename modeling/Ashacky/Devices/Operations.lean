import Ashacky.Devices.BluetoothService

/-!
# Devices — operations of the host's Bluetooth service

What the service is for, in one word each: it does one thing at a time.  An `Activity` is nothing, a
scan that answers a request, a pairing or a connection; a state `Represents` one, and every event
makes one `Move` between activities.

* `step_move`: an event keeps the activity or moves it, and says what becomes of the operation that
  `bluetooth-devices` shows and which requests are answered.
* `operations_settle`: no operation is superseded before it was shown complete, a complete one never
  changes, and what completes a pending one is always scheduled.
* `requests_answered`: every request is answered exactly once, a scan at the end of that very scan.
-/

namespace Ashacky.Devices.BluetoothService
open Ashacky.Support
open Ashacky.Control (Json Object)

/-! ### Activities -/

/-- What an operation is to achieve. -/
inductive Goal where
  | pair
  | connect
  | disconnect
deriving DecidableEq

namespace Goal

def action : Goal → String
  | pair => "bluetooth-pair"
  | connect => "bluetooth-connect"
  | disconnect => "bluetooth-disconnect"

/-- The device is as it should be. -/
def met (device : Facts) : Goal → Bool
  | pair => device.paired
  | connect => device.connected
  | disconnect => !device.connected

end Goal

inductive Activity where
  | none
  /-- A scan, and the request it answers. -/
  | scan (request : Nat)
  | pair (id : String) (attempt : Attempt)
  | connect (job : Job)
deriving DecidableEq

namespace Activity

def request : Activity → Option Nat
  | scan request => some request
  | _ => Option.none

def attempt : Activity → Option Attempt
  | pair _ attempt => some attempt
  | _ => Option.none

def pairID : Activity → Option String
  | pair id _ => some id
  | _ => Option.none

def job : Activity → Option Job
  | connect job => some job
  | _ => Option.none

/-- The operation that is pending, what it is to achieve and on which device. -/
def purpose : Activity → Option (String × Goal × Nat)
  | pair id attempt => some (id, .pair, attempt.device)
  | connect job => some (job.id, if job.connect then .connect else .disconnect, job.device)
  | _ => Option.none

def operationID (a : Activity) : Option String := a.purpose.map Prod.fst

/-- An activity with a purpose has the operation's identifier. -/
theorem operationID_of {a : Activity} {id : String} {g : Goal} {device : Nat}
    (ha : a.purpose = some (id, g, device)) : a.operationID = some id := by
  rw [operationID, ha]
  rfl

/-- The block that ends it. -/
def block (generation : Nat) : Activity → Option Block
  | scan _ => some (.scan generation)
  | pair _ attempt => some (.pair attempt)
  | _ => Option.none

end Activity

/-- The calls on the connection queue that returned. -/
def ended (blocks : List Block) : List Job :=
  blocks.filterMap fun
    | .connected job _ => some job
    | _ => none

@[simp] theorem ended_append (bs cs : List Block) : ended (bs ++ cs) = ended bs ++ ended cs :=
  List.filterMap_append

@[simp] theorem ended_change (work : Nat) : ended [.change work] = [] := rfl

@[simp] theorem ended_scan (generation : Nat) : ended [.scan generation] = [] := rfl

@[simp] theorem ended_pair (attempt : Attempt) : ended [.pair attempt] = [] := rfl

@[simp] theorem ended_connected (job : Job) (result : Int) : ended [.connected job result] = [job] :=
  rfl

/-- What of an operation lasts: its identifier and its outcome. -/
def Host.outcome (h : Host) : Option (String × Option Outcome) :=
  h.operation.map fun o => (o.id, o.outcome)

/-- The identifier of the operation, if it is pending. -/
def Host.pendingID (h : Host) : Option String :=
  h.outcome.bind fun o => if o.2 = none then some o.1 else none

/-- The state has this activity, and nothing else, under way. -/
structure Engaged (h : Host) (a : Activity) : Prop where
  requested : h.requested = false
  scanning : h.scanning = a.request.isSome
  scanReply : h.scanReply = a.request
  pairing : h.pairing = a.attempt
  pairingOperationID : h.pairingOperationID = a.pairID
  connectionBusy : h.connectionBusy = a.job.isSome
  jobs : h.jobs ++ ended h.blocks = a.job.toList
  operation : h.pendingID = a.operationID
  known : ∀ o ∈ h.outcome, o.1 ∈ h.issued

/-- It has, and what ends the activity is scheduled. -/
structure Represents (h : Host) (a : Activity) : Prop extends Engaged h a where
  scheduled : ∀ b ∈ a.block h.scanGeneration, b ∈ h.blocks

/-- At the start nothing is under way. -/
theorem represents_initial : Represents .initial .none where
  requested := rfl
  scanning := rfl
  scanReply := rfl
  pairing := rfl
  pairingOperationID := rfl
  connectionBusy := rfl
  jobs := rfl
  operation := rfl
  known := by simp [Host.outcome, Host.initial]
  scheduled := by simp [Activity.block]

/-- The requests that are answered. -/
def replied (o : List Effect) : List Nat :=
  o.filterMap fun
    | .reply request _ => some request
    | _ => none

@[simp] theorem replied_append (o p : List Effect) : replied (o ++ p) = replied o ++ replied p :=
  List.filterMap_append

/-- What an operation is told to be: its identifier, and its outcome when it is complete. -/
abbrev Told := Option (String × Option Outcome)

/-- A request asks for this, on this device. -/
structure Wanted (S : Surroundings) (value : Object) (g : Goal) (device : Nat) : Prop where
  action : Object.text value "action" = some g.action
  address : ∃ address, Object.text value "address" = some address ∧
    (S.device device).address.map Host.normalized = some (Host.normalized address)

/-- What the request `n` does: `issued` are the identifiers before it. -/
inductive Answered (S : Surroundings) (value : Object) (issued : List String) (n : Nat)
    (o : List Effect) (told told' : Told) : Activity → Activity → Prop where
  /-- It is answered, and nothing begins. -/
  | only {a : Activity} (outcome : told' = told) (answers : replied o = [n]) :
      Answered S value issued n o told told' a a
  | scans (outcome : told' = told) (silent : replied o = []) :
      Answered S value issued n o told told' .none (.scan n)
  /-- An operation begins. -/
  | begins {a : Activity} {id : String} {g : Goal} {device : Nat} (new : id ∉ issued)
      (ha : a.purpose = some (id, g, device)) (wanted : Wanted S value g device)
      (outcome : told' = some (id, none)) (answers : replied o = [n])
      (reply : .reply n (Host.accepted id) ∈ o) : Answered S value issued n o told told' .none a
  /-- An operation begins and ends. -/
  | instant {id : String} {g : Goal} {device : Nat} {result : Outcome} (new : id ∉ issued)
      (wanted : Wanted S value g device) (meets : result.success → g.met (S.device device))
      (outcome : told' = some (id, some result)) (answers : replied o = [n])
      (reply : .reply n (Host.accepted id) ∈ o) : Answered S value issued n o told told' .none .none

/-- What an event does to the activity, to the operation and to the requests. -/
inductive Move (h : Host) (e : Event) (o : List Effect) (h' : Host) : Activity → Activity → Prop where
  | keep {a : Activity} (outcome : h'.outcome = h.outcome) (silent : replied o = [])
      (requests : h'.requests = h.requests) : Move h e o h' a a
  | endScan {n : Nat} (outcome : h'.outcome = h.outcome) (answers : replied o = [n])
      (requests : h'.requests = h.requests) : Move h e o h' (.scan n) .none
  /-- An operation ends. -/
  | ends {a : Activity} {id : String} {g : Goal} {device : Nat} {result : Outcome}
      (ha : a.purpose = some (id, g, device))
      (meets : result.success → g.met (e.world.device device))
      (outcome : h'.outcome = some (id, some result)) (silent : replied o = [])
      (requests : h'.requests = h.requests) : Move h e o h' a .none
  | request {value : Object} {a a' : Activity} (call : e.call = .request value)
      (answered : Answered e.world value h.issued h.requests o h.outcome h'.outcome a a')
      (requests : h'.requests = h.requests + 1) : Move h e o h' a a'

/-- A move is one of what is told, of the requests and of the answers. -/
theorem Move.congr {h g h' g' : Host} {e : Event} {o p : List Effect} {a a' : Activity}
    (M : Move h e o h' a a') (call : ∀ value, e.call ≠ .request value)
    (base : g.outcome = h.outcome ∧ g.requests = h.requests)
    (answers : replied p = replied o) (outcome : g'.outcome = h'.outcome)
    (requests : g'.requests = h'.requests) : Move g e p g' a a' := by
  obtain ⟨bo, br⟩ := base
  cases M with
  | keep ho hs hr =>
      exact .keep (by rw [outcome, ho, bo]) (by rw [answers, hs]) (by rw [requests, hr, br])
  | endScan ho hs hr =>
      exact .endScan (by rw [outcome, ho, bo]) (by rw [answers, hs]) (by rw [requests, hr, br])
  | ends ha hm ho hs hr =>
      exact .ends ha hm (by rw [outcome, ho]) (by rw [answers, hs]) (by rw [requests, hr, br])
  | request hc A hr => exact absurd hc (call _)

/-! ### What does not move -/

section Frame
variable {h : Host} {a : Activity} {S : Surroundings}

namespace Host

@[simp] theorem invalidate_outcome : h.invalidate.outcome = h.outcome := by
  rw [invalidate]; split <;> rfl

@[simp] theorem invalidate_requests : h.invalidate.requests = h.requests := by
  rw [invalidate]; split <;> rfl

@[simp] theorem invalidate_issued : h.invalidate.issued = h.issued := by
  rw [invalidate]; split <;> rfl

@[simp] theorem invalidate_scanReply : h.invalidate.scanReply = h.scanReply := by
  rw [invalidate]; split <;> rfl

@[simp] theorem observeConnections_outcome : (h.observeConnections S).outcome = h.outcome := by
  rw [observeConnections]; split <;> rfl

@[simp] theorem observeConnections_requests : (h.observeConnections S).requests = h.requests := by
  rw [observeConnections]; split <;> rfl

end Host

/-- Announcing a change leaves what is under way. -/
theorem Represents.invalidate (R : Represents h a) : Represents h.invalidate a := by
  rw [Host.invalidate]
  split
  · exact
      { R with
        jobs := by simpa using R.jobs
        scheduled := fun b hb => List.mem_append_left _ (R.scheduled b hb) }
  · exact R

/-- Opening the manager leaves what is under way. -/
theorem Represents.prepareCentral (R : Represents h a) (permission : Bool) :
    Represents (h.prepareCentral S permission) a := by
  rw [Host.prepareCentral]
  split <;> exact { R with }

/-- Watching the connections leaves what is under way. -/
theorem Represents.observeConnections (R : Represents h a) :
    Represents (h.observeConnections S) a := by
  rw [Host.observeConnections]
  split <;> exact { R with }

/-- A block that ends no connection may be added. -/
theorem Represents.schedule (R : Represents h a) (b : Block) (hb : ended [b] = []) :
    Represents { h with blocks := h.blocks ++ [b] } a where
  __ := R
  jobs := by simpa [hb] using R.jobs
  scheduled := fun b hb => List.mem_append_left _ (R.scheduled b hb)

/-- An operation without an outcome is pending. -/
theorem pendingID_of {id : String} (ho : h.outcome = some (id, none)) : h.pendingID = some id := by
  rw [Host.pendingID, ho]
  rfl

end Frame

/-! ### What begins and ends -/

section Moves
variable {h : Host} {a : Activity} {S : Surroundings}

namespace Host

/-- What `invalidate` may change. -/
theorem invalidate_eq (h : Host) : ∃ p bs w, ended bs = [] ∧
    h.invalidate = { h with pendingChange := p, blocks := h.blocks ++ bs, works := w } := by
  rw [invalidate]
  split
  · exact ⟨_, [.change h.works], _, rfl, rfl⟩
  · exact ⟨h.pendingChange, [], h.works, rfl, by simp⟩

/-- A pairing is only reported as a success of a device that is paired. -/
theorem pairOutcome_met {device : Nat} {result : Int}
    (hs : (pairOutcome S device result).success = true) : Goal.met (S.device device) .pair = true := by
  simp only [pairOutcome, Bool.decide_and, Bool.and_eq_true, decide_eq_true_eq] at hs
  exact hs.2

/-- A connection is only reported as a success of a device that is as it was to be. -/
theorem connectionOutcome_met {job : Job} {result : Int}
    (hs : (connectionOutcome S job result).success = true) :
    Goal.met (S.device job.device) (if job.connect then .connect else .disconnect) = true := by
  simp only [connectionOutcome, decide_eq_true_eq] at hs
  cases hc : job.connect <;> simp_all [Goal.met]

/-- Ending the pair operation stores its outcome and frees the service. -/
theorem finishPairOperation_eq {id : String} (hid : h.pairingOperationID = some id) (device : Nat)
    (result : Int) :
    h.finishPairOperation S device result =
      { h with
        pairingOperationID := none
        operation := some (.complete id (pairOutcome S device result)) : Host }.invalidate := by
  rw [finishPairOperation, hid]

end Host

/-- A pairing that has no attempt: before there is one, and when it is over. -/
structure Opened (h : Host) (id : String) : Prop where
  requested : h.requested = false
  scanning : h.scanning = false
  scanReply : h.scanReply = none
  pairing : h.pairing = none
  pairingOperationID : h.pairingOperationID = some id
  connectionBusy : h.connectionBusy = false
  jobs : h.jobs ++ ended h.blocks = []
  operation : h.outcome = some (id, none)
  known : id ∈ h.issued

/-- Announcing a change leaves a newly opened operation open. -/
theorem Opened.invalidate {id : String} (O : Opened h id) : Opened h.invalidate id := by
  obtain ⟨O₁, O₂, O₃, O₄, O₅, O₆, O₇, O₈, O₉⟩ := O
  rw [Host.invalidate]
  split
  · exact ⟨O₁, O₂, O₃, O₄, O₅, O₆, by simpa using O₇, O₈, O₉⟩
  · exact ⟨O₁, O₂, O₃, O₄, O₅, O₆, O₇, O₈, O₉⟩

/-- The pending operation is the one whose pairing is under way. -/
theorem Engaged.pending {id : String} {a : Activity} (R : Engaged h a)
    (ha : a.operationID = some id) : h.outcome = some (id, none) := by
  obtain ⟨o, ho, hp⟩ := Option.bind_eq_some_iff.mp (R.operation.trans ha)
  split at hp
  · rename_i hn
    cases hp
    rw [ho, ← hn]
  · cases hp

/-- A pairing under way is, without its attempt, one that is yet to be ended. -/
theorem Engaged.opened {id : String} {attempt : Attempt} (R : Engaged h (.pair id attempt)) :
    Opened { h with pairing := none } id where
  requested := R.requested
  scanning := R.scanning
  scanReply := R.scanReply
  pairing := rfl
  pairingOperationID := R.pairingOperationID
  connectionBusy := R.connectionBusy
  jobs := R.jobs
  operation := R.pending rfl
  known := R.known _ (R.pending rfl)

/-- A pairing that is over ends its operation. -/
theorem Opened.finish {id : String} (O : Opened h id) (device : Nat) (result : Int) :
    Represents (h.finishPairOperation S device result) .none ∧
      (h.finishPairOperation S device result).outcome =
        some (id, some (Host.pairOutcome S device result)) ∧
      (h.finishPairOperation S device result).requests = h.requests := by
  rw [Host.finishPairOperation_eq O.pairingOperationID]
  refine ⟨Represents.invalidate ?_, Host.invalidate_outcome, Host.invalidate_requests⟩
  refine ⟨⟨O.requested, O.scanning, O.scanReply, O.pairing, rfl, O.connectionBusy, O.jobs, rfl, ?_⟩,
    by simp [Activity.block]⟩
  rintro _ ⟨⟩
  exact O.known

/-- An attempt that starts has its timeout scheduled; one that does not ends its operation. -/
theorem Opened.startPair {id : String} (O : Opened h id) (device : Nat) :
    (h.startPair S device).2.requests = h.requests ∧ replied (h.startPair S device).1 = [] ∧
      ((∃ attempt, attempt.device = device ∧
          Represents (h.startPair S device).2 (.pair id attempt) ∧
          (h.startPair S device).2.outcome = some (id, none)) ∨
        ∃ code, Represents (h.startPair S device).2 .none ∧
          (h.startPair S device).2.outcome =
            some (id, some (Host.pairOutcome S device code))) := by
  rw [Host.startPair]
  split
  · have O' : Opened { h with pairing := none } id := { O with pairing := rfl }
    obtain ⟨R, ho, hr⟩ := O'.finish (S := S) device kIOReturnError
    exact ⟨hr, rfl, .inr ⟨_, R, ho⟩⟩
  · rename_i result _
    dsimp only
    split
    · have O' : Opened { h with attempts := h.attempts + 1, pairing := none } id :=
        { O with pairing := rfl }
      obtain ⟨R, ho, hr⟩ := O'.finish (S := S) device result
      exact ⟨hr, rfl, .inr ⟨_, R.schedule (.pair ⟨h.attempts, device⟩) rfl, ho⟩⟩
    · refine ⟨rfl, rfl, .inl ⟨⟨h.attempts, device⟩, rfl, ?_, O.operation⟩⟩
      refine ⟨⟨O.requested, O.scanning, O.scanReply, rfl, O.pairingOperationID, O.connectionBusy,
        by simpa [Activity.job] using O.jobs, pendingID_of O.operation, ?_⟩, ?_⟩
      · intro o (ho : o ∈ h.outcome)
        rw [O.operation] at ho
        cases ho
        exact O.known
      · simp [Activity.block]

/-- The activity is none when the service is idle. -/
theorem Represents.idle (R : Represents h a) (hi : h.idle S) : a = .none ∧ h.powered S := by
  obtain ⟨⟨R₁, R₂, R₃, R₄, R₅, R₆, R₇, R₈, R₉⟩, R₁₀⟩ := R
  cases a <;> simp_all [Host.idle, Activity.request, Activity.attempt, Activity.job]

/-- What the request `n` does to a state with an activity. -/
structure Does (S : Surroundings) (value : Object) (h : Host) (n : Nat) (a : Activity)
    (r : List Effect × Host) : Prop where
  moves : ∃ a', Represents r.2 a' ∧ Answered S value h.issued n r.1 h.outcome r.2.outcome a a'
  requests : r.2.requests = h.requests

/-- A request that is answered, and no more. -/
theorem Represents.answer (R : Represents h a) {value : Object} (n : Nat) (answer : Object) :
    Does S value h n a ([.reply n answer], h) where
  moves := ⟨a, R, .only rfl rfl⟩
  requests := rfl

/-- What is shown besides the identifier and the outcome may change. -/
theorem Represents.annotate (R : Represents h a) {f : Operation → Operation}
    (hf : ∀ o, ((f o).id, (f o).outcome) = (o.id, o.outcome)) :
    Represents { h with operation := h.operation.map f : Host }.invalidate a ∧
      { h with operation := h.operation.map f : Host }.invalidate.outcome = h.outcome := by
  have ho : { h with operation := h.operation.map f : Host }.outcome = h.outcome := by
    simp only [Host.outcome, Option.map_map]
    congr 1
    funext o
    exact hf o
  refine ⟨Represents.invalidate { R with operation := ?_, known := ?_ }, ?_⟩
  · rw [Host.pendingID, ho]
    exact R.operation
  · rw [ho]
    exact R.known
  · rw [Host.invalidate_outcome, ho]

/-- An answer of the user keeps the activity, and the request is answered. -/
theorem Represents.confirmation (R : Represents h a) (n : Nat) (value : Object) :
    Does S value h n a (h.confirmation n value) := by
  rw [Host.confirmation]
  split
  · exact R.answer n _
  · split
    · split
      · obtain ⟨R', ho⟩ := R.annotate (f := fun o => { o with confirmation := none }) fun _ => rfl
        exact ⟨⟨a, R', .only ho rfl⟩, Host.invalidate_requests⟩
      · exact R.answer n _
    · exact R.answer n _
    · exact R.answer n _

/-- A device that is found has the address that was asked for, up to its spelling. -/
theorem resolve_spec {devices : List Nat} {address : String} {device : Nat}
    (hr : Host.resolve S devices address = some device) :
    (S.device device).address.map Host.normalized = some (Host.normalized address) := by
  simpa using List.find?_some hr

/-- A request's target is the address in it. -/
theorem target_spec {value : Object} {address : String} (ht : Host.target value = some address) :
    Object.text value "address" = some address := by
  rw [Host.target] at ht
  split at ht
  · exact (Option.filter_eq_some_iff.mp ht).1
  · cases ht

/-- A pair request starts a pairing, or is answered with what refuses it. -/
theorem Represents.pair (R : Represents h a) (hnew : S.uuid ∉ h.issued) (n : Nat) {value : Object}
    (haction : Object.text value "action" = some "bluetooth-pair") :
    Does S value h n a (h.pair S n value) := by
  rw [Host.pair]
  split
  · exact R.answer n _
  · rename_i address haddress
    split
    · exact R.answer n _
    · rename_i hidle
      obtain ⟨rfl, -⟩ := R.idle (S := S) (by simpa using hidle)
      split
      · exact R.answer n _
      · rename_i device hdevice
        have hw : Wanted S value .pair device :=
          ⟨haction, address, target_spec haddress, resolve_spec hdevice⟩
        have O : Opened
            { h with
              operation := some (.pending S.uuid)
              pairingOperationID := some S.uuid
              issued := S.uuid :: h.issued } S.uuid :=
          ⟨R.requested, R.scanning, R.scanReply, R.pairing, rfl, R.connectionBusy, R.jobs, rfl,
            List.mem_cons_self⟩
        dsimp only
        split
        · obtain ⟨R', ho, hr⟩ := O.invalidate.finish (S := S) device 0
          exact ⟨⟨_, R', .instant hnew hw Host.pairOutcome_met ho rfl (by simp)⟩,
            hr.trans Host.invalidate_requests⟩
        · obtain ⟨hr, hs, ⟨attempt, hd, R', ho⟩ | ⟨code, R', ho⟩⟩ :=
            O.invalidate.startPair (S := S) device
          · have ha : (Activity.pair S.uuid attempt).purpose = some (S.uuid, .pair, device) := by
              rw [Activity.purpose, hd]
            exact ⟨⟨_, R', .begins hnew ha hw ho (by rw [replied_append, hs]; rfl) (by simp)⟩,
              hr.trans Host.invalidate_requests⟩
          · exact ⟨⟨_, R', .instant hnew hw Host.pairOutcome_met ho (by rw [replied_append, hs]; rfl)
              (by simp)⟩, hr.trans Host.invalidate_requests⟩

/-- A request to connect or disconnect queues one job, or is answered with what refuses it. -/
theorem Represents.connection (R : Represents h a) (hnew : S.uuid ∉ h.issued) (n : Nat)
    {value : Object} (connect : Bool)
    (haction : Object.text value "action" =
      some (if connect then Goal.connect else Goal.disconnect).action) :
    Does S value h n a (h.connection S n value connect) := by
  rw [Host.connection]
  split
  · exact R.answer n _
  · rename_i address haddress
    split
    · exact R.answer n _
    · rename_i hidle
      obtain ⟨rfl, -⟩ := R.idle (S := S) (by simpa using hidle)
      split
      · exact R.answer n _
      · rename_i device hdevice
        have hw : Wanted S value (if connect then .connect else .disconnect) device :=
          ⟨haction, address, target_spec haddress, resolve_spec hdevice⟩
        obtain ⟨p, bs, w, hbs, he⟩ := Host.invalidate_eq
          { h with
            operation := some (.pending S.uuid)
            connectionBusy := true
            issued := S.uuid :: h.issued }
        obtain ⟨hj, hb⟩ := List.append_eq_nil_iff.mp R.jobs
        refine ⟨⟨.connect ⟨S.uuid, device, connect⟩, ?_, .begins hnew rfl hw ?_ rfl (by simp)⟩, ?_⟩
        · dsimp only
          rw [he]
          refine ⟨⟨R.requested, R.scanning, R.scanReply, R.pairing, R.pairingOperationID, rfl, ?_, rfl,
            ?_⟩, by simp [Activity.block]⟩
          · simp [hj, hb, hbs, Activity.job]
          · rintro _ ⟨⟩
            exact List.mem_cons_self
        · dsimp only
          rw [he]
          rfl
        · exact Host.invalidate_requests

/-- A scan begins if nothing is under way and the radio is on. -/
theorem Represents.scan (R : Represents h a) {value : Object} (n : Nat) :
    Does S value h n a (h.scan S n) := by
  rw [Host.scan]
  split
  · exact R.answer n _
  · rename_i hidle
    obtain ⟨rfl, hp⟩ := R.idle (S := S) (by simpa using hidle)
    rw [Host.beginIfReady, if_pos ⟨rfl, hp⟩]
    obtain ⟨p, bs, w, hbs, he⟩ := Host.invalidate_eq
      { h with
        requested := false
        scanning := true
        lowEnergy := []
        classicCount := 0
        scanReply := some n }
    dsimp only
    rw [he]
    refine ⟨⟨.scan n, ?_, .scans rfl rfl⟩, rfl⟩
    refine ⟨⟨rfl, rfl, rfl, R.pairing, R.pairingOperationID, R.connectionBusy, ?_, R.operation,
      R.known⟩, ?_⟩
    · have hj := R.jobs
      simp_all [Activity.job]
    · simp [Activity.block]

/-- What a request does is the same from a state that differs in nothing it tells. -/
theorem Does.of_told {h₁ : Host} {n : Nat} {value : Object} {r : List Effect × Host}
    (D : Does S value h₁ n a r)
    (issued : h₁.issued = h.issued) (outcome : h₁.outcome = h.outcome)
    (requests : h₁.requests = h.requests) : Does S value h n a r := by
  obtain ⟨⟨a', R', A⟩, hr⟩ := D
  rw [issued, outcome] at A
  exact ⟨⟨a', R', A⟩, hr.trans requests⟩

/-- Listing the devices keeps the activity and answers the request. -/
theorem Represents.listed (R : Represents h a) {value : Object} (n : Nat) :
    Does S value h n a (h.listed S n) := by
  rw [Host.listed]
  refine ⟨⟨a, ?_, .only ?_ rfl⟩, ?_⟩
  all_goals dsimp only
  all_goals split
  · exact R.observeConnections.invalidate
  · exact R.observeConnections
  all_goals simp

/-- Each action of the client makes one move, and answers at once or at the scan's end. -/
theorem Represents.perform (R : Represents h a) (hnew : S.uuid ∉ h.issued) (n : Nat)
    {value : Object} {action : String} (haction : Object.text value "action" = some action) :
    Does S value h n a (h.perform S n value action) := by
  rw [Host.perform]
  split
  · exact R.confirmation n value
  split
  · rename_i heq
    exact R.pair hnew n (heq ▸ haction)
  split
  · rename_i heq
    exact R.connection hnew n true (by rw [haction, heq]; rfl)
  split
  · rename_i heq
    exact R.connection hnew n false (by rw [haction, heq]; rfl)
  split
  · exact R.answer n _
  split
  · exact R.listed n
  split
  · exact R.answer n _
  split
  · exact R.scan n
  · exact R.answer n _

theorem Represents.handle (R : Represents h a) (hnew : S.uuid ∉ h.issued) (n : Nat)
    (value : Object) : Does S value h n a (h.handle S n value) := by
  rw [Host.handle]
  split
  · exact R.answer n _
  split
  · exact R.answer n _
  have R' := R.prepareCentral (S := S) false
  have hi : (h.prepareCentral S false).issued = h.issued := by
    rw [Host.prepareCentral]; split <;> rfl
  have ho : (h.prepareCentral S false).outcome = h.outcome := by
    rw [Host.prepareCentral]; split <;> rfl
  have hr : (h.prepareCentral S false).requests = h.requests := by
    rw [Host.prepareCentral]; split <;> rfl
  dsimp only
  split
  · exact (R'.answer n _).of_told hi ho hr
  split
  · exact (R'.answer n _).of_told hi ho hr
  · rename_i haction
    exact (R'.perform (by rwa [hi]) n haction).of_told hi ho hr

end Moves

/-! ### Events -/

section Events
variable {h : Host} {a : Activity} {S : Surroundings}

/-- A block that is taken from the main queue. -/
theorem exists_taken {blocks : List Block} {i : Nat} {b : Block} (hb : blocks[i]? = some b) :
    ∃ u v, blocks = u ++ b :: v ∧ blocks.eraseIdx i = u ++ v := by
  obtain ⟨hi, rfl⟩ := List.getElem?_eq_some_iff.mp hb
  exact ⟨blocks.take i, blocks.drop (i + 1), by simp, List.eraseIdx_eq_take_drop_succ ..⟩

theorem ended_cons (b : Block) (bs : List Block) : ended (b :: bs) = ended [b] ++ ended bs := by
  rw [← ended_append]
  rfl

/-- What ends a connection is counted, whatever else is dropped. -/
theorem ended_filter {p : Block → Bool} (bs : List Block)
    (hp : ∀ b, p b = false → ended [b] = []) : ended (bs.filter p) = ended bs := by
  induction bs with
  | nil => rfl
  | cons b bs ih =>
      rw [List.filter_cons, ended_cons b bs]
      split
      · rw [ended_cons, ih]
      · rename_i hb
        rw [ih, hp b (by simpa using hb), List.nil_append]

/-- A scan that ends answers its request. -/
theorem Engaged.finish {n : Nat} (R : Engaged h (.scan n)) :
    Represents (h.finish S).2 .none ∧ (h.finish S).2.outcome = h.outcome ∧
      replied (h.finish S).1 = [n] ∧ (h.finish S).2.requests = h.requests := by
  have hs : h.scanning = true := R.scanning
  have hr : (h.scanned S).scanReply = some n := by
    rw [Host.scanned, Host.invalidate_scanReply]
    exact R.scanReply
  obtain ⟨p, bs, w, hbs, he⟩ := Host.invalidate_eq
    { h with
      scanning := false
      devices := Host.withDevices S (if h.inquiry = none then [] else S.foundDevices) S.pairedDevices
      lastClassic :=
        ((if h.inquiry = none then [] else S.foundDevices).take 32).filterMap (Host.classic S)
      inquiry := none }
  rw [Host.finish, if_pos hs]
  simp only [hr]
  rw [Host.scanned, he]
  refine ⟨⟨⟨R.requested, rfl, rfl, R.pairing, R.pairingOperationID, R.connectionBusy, ?_, R.operation,
    R.known⟩, by simp [Activity.block]⟩, rfl, rfl, rfl⟩
  simpa [hbs, Activity.job] using R.jobs

/-- Without a scan there is none to finish. -/
theorem finish_idle (hs : h.scanning = false) : h.finish S = ([], h) := by
  rw [Host.finish, if_neg (by simp [hs])]

/-- A scan under way answers some request. -/
theorem Represents.not_scanning (R : Represents h a) (hs : h.scanning = true) : ∃ n, a = .scan n := by
  have hr := R.scanning
  cases a with
  | scan n => exact ⟨n, rfl⟩
  | _ => simp [hs, Activity.request] at hr

/-- Ending the scan that is under way, if one is. -/
theorem Represents.finish_move (R : Represents h a) :
    ∃ a', Represents (h.finish S).2 a' ∧ ∀ e, Move h e (h.finish S).1 (h.finish S).2 a a' := by
  by_cases hs : h.scanning = true
  · obtain ⟨n, rfl⟩ := R.not_scanning hs
    obtain ⟨R', ho, ha, hr⟩ := R.toEngaged.finish (S := S)
    exact ⟨.none, R', fun _ => .endScan ho ha hr⟩
  · rw [finish_idle (by simpa using hs)]
    exact ⟨a, R, fun _ => .keep rfl rfl rfl⟩

/-- While the state represents an activity, no scan waits to begin. -/
theorem Represents.beginIfReady (R : Represents h a) : h.beginIfReady S = ([], h) := by
  rw [Host.beginIfReady, if_neg (by simp [R.requested])]

/-- The attempt that a delegate names is the one under way. -/
theorem Engaged.attempt {attempt : Attempt} (R : Engaged h a) (hp : h.pairing = some attempt) :
    ∃ id, a = .pair id attempt := by
  have hr := R.pairing
  cases a with
  | pair id attempt' =>
      rw [hp] at hr
      cases hr
      exact ⟨id, rfl⟩
  | _ => simp [hp, Activity.attempt] at hr

/-- The current attempt is the one on record. -/
theorem Host.current_eq {n : Nat} {attempt : Attempt} (hc : h.current n = some attempt) :
    h.pairing = some attempt :=
  (Option.filter_eq_some_iff.mp hc).1

/-- The end of the pairing that is under way. -/
theorem Engaged.endPair {id : String} {attempt : Attempt} (R : Engaged h (.pair id attempt))
    {c : Call} {o : List Effect} (hs : replied o = []) (result : Int) :
    ∃ a', Represents ({ h with pairing := none : Host }.finishPairOperation S attempt.device result) a' ∧
      Move h ⟨S, c⟩ o ({ h with pairing := none : Host }.finishPairOperation S attempt.device result)
        (.pair id attempt) a' := by
  obtain ⟨R', ho, hr⟩ := R.opened.finish (S := S) attempt.device result
  exact ⟨.none, R', .ends rfl Host.pairOutcome_met ho hs hr⟩

/-- `finishPairOperation` does not see the attempt. -/
theorem finishPairOperation_unpair (device : Nat) (result : Int) :
    { h.finishPairOperation S device result with pairing := none } =
      { h with pairing := none : Host }.finishPairOperation S device result := by
  rw [Host.finishPairOperation, Host.finishPairOperation]
  cases hid : h.pairingOperationID with
  | none => simp [hid]
  | some id =>
      simp only [Host.invalidate]
      split <;> rfl

/-- Taking a block that ends no connection. -/
theorem Represents.erase (R : Represents h a) {i : Nat} {b : Block} (hb : h.blocks[i]? = some b)
    (hj : ended [b] = []) : Engaged { h with blocks := h.blocks.eraseIdx i } a where
  __ := R
  jobs := by
    obtain ⟨u, v, huv, he⟩ := exists_taken hb
    have hjobs := R.jobs
    rw [huv, ended_append, ended_cons b v, hj, List.nil_append, ← ended_append] at hjobs
    rw [he]
    exact hjobs

/-- What is scheduled stays, unless it is the block that is taken. -/
theorem Represents.scheduled_erase (R : Represents h a) {i : Nat} {b : Block}
    (hb : h.blocks[i]? = some b) (hne : b ∉ a.block h.scanGeneration) :
    ∀ c ∈ a.block h.scanGeneration, c ∈ h.blocks.eraseIdx i := by
  intro c hc
  obtain ⟨u, v, huv, he⟩ := exists_taken hb
  have hmem := R.scheduled c hc
  rw [huv, List.mem_append, List.mem_cons] at hmem
  rw [he, List.mem_append]
  obtain hu | rfl | hv := hmem
  · exact .inl hu
  · exact absurd hc hne
  · exact .inr hv

/-- The timeout of the attempt that is under way. -/
theorem Engaged.pairTimeout {id : String} {attempt : Attempt} (E : Engaged h (.pair id attempt)) :
    Represents (h.pairTimeout S attempt).2 .none ∧
      (h.pairTimeout S attempt).2.outcome =
        some (id, some (Host.pairOutcome S attempt.device kIOReturnTimeout)) ∧
      replied (h.pairTimeout S attempt).1 = [] ∧ (h.pairTimeout S attempt).2.requests = h.requests := by
  obtain ⟨R, ho, hr⟩ := E.opened.finish (S := S) attempt.device kIOReturnTimeout
  rw [Host.pairTimeout, if_pos (show h.pairing = some attempt from E.pairing)]
  exact ⟨R, ho, rfl, hr⟩

/-- A call that returned on the connection queue is that of a connection under way. -/
theorem Represents.connecting (R : Represents h a) {i : Nat} {job : Job} {result : Int}
    (hb : h.blocks[i]? = some (.connected job result)) : ∃ job', a = .connect job' := by
  have hj := R.jobs
  have hmem : job ∈ ended h.blocks := by
    obtain ⟨u, v, huv, -⟩ := exists_taken hb
    rw [huv, ended_append, ended_cons]
    simp
  cases a with
  | connect job' => exact ⟨job', rfl⟩
  | _ =>
      rw [(List.append_eq_nil_iff.mp hj).2] at hmem
      cases hmem

/-- The end of the connection that is under way. -/
theorem Represents.connectionEnded {job : Job} (R : Represents h (.connect job)) {i : Nat}
    {result : Int} {job' : Job} (hb : h.blocks[i]? = some (.connected job' result)) :
    job' = job ∧
      Represents ({ h with blocks := h.blocks.eraseIdx i : Host }.connectionEnded S job result) .none ∧
      ({ h with blocks := h.blocks.eraseIdx i : Host }.connectionEnded S job result).outcome =
        some (job.id, some (Host.connectionOutcome S job result)) := by
  obtain ⟨u, v, huv, he⟩ := exists_taken hb
  have hj : h.jobs ++ (ended u ++ ([job'] ++ ended v)) = [job] := by
    rw [← ended_connected job' result, ← ended_cons, ← ended_append, ← huv]
    exact R.jobs
  -- The connection queue had one job, which is this one.
  have hl := congrArg List.length hj
  simp only [List.length_append, List.length_cons, List.length_nil] at hl
  have h₁ := List.length_eq_zero_iff.mp (show h.jobs.length = 0 by omega)
  have h₂ := List.length_eq_zero_iff.mp (show (ended u).length = 0 by omega)
  have h₃ := List.length_eq_zero_iff.mp (show (ended v).length = 0 by omega)
  rw [h₁, h₂, h₃] at hj
  obtain rfl : job' = job := by simpa using hj
  refine ⟨rfl, Represents.invalidate ⟨⟨R.requested, R.scanning, R.scanReply, R.pairing,
    R.pairingOperationID, rfl, ?_, rfl, ?_⟩, by simp [Activity.block]⟩, Host.invalidate_outcome⟩
  · simp [he, h₁, h₂, h₃, Activity.job]
  · rintro _ ⟨⟩
    exact R.known (job'.id, none) (R.pending rfl)

/-- A block runs after it was taken from the main queue. -/
theorem Represents.run (R : Represents h a) {i : Nat} {b : Block} (hb : h.blocks[i]? = some b)
    {c : Call} :
    ∃ a', Represents ({ h with blocks := h.blocks.eraseIdx i : Host }.run S b).2 a' ∧
      Move h ⟨S, c⟩ ({ h with blocks := h.blocks.eraseIdx i : Host }.run S b).1
        ({ h with blocks := h.blocks.eraseIdx i : Host }.run S b).2 a a' := by
  cases b with
  | change work =>
      have R' : Represents { h with blocks := h.blocks.eraseIdx i } a :=
        { R.erase hb rfl with scheduled := R.scheduled_erase hb (by cases a <;> rintro ⟨⟩) }
      rw [Host.run, Host.change]
      split
      · exact ⟨a, R', .keep rfl rfl rfl⟩
      · have R₁ : Represents { h with blocks := h.blocks.eraseIdx i, pendingChange := none } a :=
          { R' with }
        exact ⟨a, { R₁.observeConnections (S := S) with }, .keep
          (Host.observeConnections_outcome (h := { h with blocks := _, pendingChange := none })) rfl
          (Host.observeConnections_requests (h := { h with blocks := _, pendingChange := none }))⟩
  | scan generation =>
      have E := R.erase hb rfl
      rw [Host.run]
      split
      -- The scan may have ended before its time limit came.
      · by_cases hsc : h.scanning = true
        · obtain ⟨n, rfl⟩ := R.not_scanning hsc
          obtain ⟨R', ho, ha, hr⟩ := E.finish (S := S)
          exact ⟨.none, R', .endScan ho ha hr⟩
        · rw [finish_idle (by simpa using hsc)]
          refine ⟨a, { E with scheduled := R.scheduled_erase hb ?_ }, .keep rfl rfl rfl⟩
          intro hc
          cases a <;> cases hc
          exact hsc R.scanning
      -- The limit of an earlier scan, which is still on the queue.
      · rename_i hne
        refine ⟨a, { E with scheduled := R.scheduled_erase hb ?_ }, .keep rfl rfl rfl⟩
        intro hc
        cases a <;> cases hc
        exact hne rfl
  | pair attempt =>
      have E := R.erase hb rfl
      -- The limit of an attempt that is over does nothing.
      by_cases hp : h.pairing = some attempt
      · obtain ⟨id, rfl⟩ := E.attempt hp
        obtain ⟨R', ho, hs, hr⟩ := E.pairTimeout (S := S)
        exact ⟨.none, R', .ends rfl Host.pairOutcome_met ho hs hr⟩
      · rw [Host.run, Host.pairTimeout, if_neg hp]
        refine ⟨a, { E with scheduled := R.scheduled_erase hb ?_ }, .keep rfl rfl rfl⟩
        intro hc
        cases a <;> cases hc
        exact hp R.pairing
  | connected job result =>
      obtain ⟨job', rfl⟩ := R.connecting hb
      obtain ⟨rfl, R', ho⟩ := R.connectionEnded (S := S) hb
      exact ⟨.none, R', .ends rfl Host.connectionOutcome_met ho rfl Host.invalidate_requests⟩

/-- **One move for each event.** -/
theorem step_move (R : Represents h a) {e : Event} {o : List Effect} {h' : Host}
    (hstep : h.Step e o h') : ∃ a', Represents h' a' ∧ Move h e o h' a a' := by
  obtain ⟨S, c⟩ := e
  cases c with
  | request value =>
      simp only [Host.Step, Host.step] at hstep
      split at hstep
      · cases hstep
      · rename_i hnew
        have R₁ : Represents { h with requests := h.requests + 1 } a := { R with }
        obtain ⟨⟨a', R', A⟩, hr⟩ := R₁.handle (S := S) hnew h.requests value
        rw [Option.some.inj hstep] at R' A hr
        exact ⟨a', R', .request rfl A hr⟩
  | prepareCentral permission =>
      cases hstep
      refine ⟨a, R.prepareCentral permission, .keep ?_ rfl ?_⟩ <;>
        rw [Host.prepareCentral] <;> split <;> rfl
  | didUpdateState =>
      simp only [Host.Step, Host.step] at hstep
      split at hstep
      · rw [Host.didUpdateState] at hstep
        have R₁ := R.invalidate
        have base : h.outcome = h.invalidate.outcome ∧ h.requests = h.invalidate.requests :=
          ⟨Host.invalidate_outcome.symm, Host.invalidate_requests.symm⟩
        split at hstep
        · obtain ⟨a', R', M⟩ := R₁.finish_move (S := S)
          rw [R'.beginIfReady] at hstep
          cases hstep
          exact ⟨a', R', (M _).congr (by rintro _ ⟨⟩) base (by simp [replied]) rfl rfl⟩
        · rw [R₁.beginIfReady] at hstep
          cases hstep
          exact ⟨a, R₁, .keep Host.invalidate_outcome rfl Host.invalidate_requests⟩
      · cases hstep
  | didDiscover identifier =>
      cases hstep
      split <;> exact ⟨a, { R with }, .keep rfl rfl rfl⟩
  | inquiryDeviceFound inquiry count =>
      cases hstep
      split <;> exact ⟨a, { R with }, .keep rfl rfl rfl⟩
  | inquiryComplete inquiry error =>
      simp only [Host.Step, Host.step, Host.inquiryComplete, Option.some.injEq] at hstep
      have R₁ : Represents { h with classicResult := error } a := { R with }
      split at hstep
      · split at hstep
        · obtain ⟨a', R', M⟩ := R₁.finish_move (S := S)
          rw [hstep] at R' M
          exact ⟨a', R', (M _).congr (by rintro _ ⟨⟩) ⟨rfl, rfl⟩ rfl rfl rfl⟩
        · cases hstep
          exact ⟨a, R₁, .keep rfl rfl rfl⟩
      · cases hstep
        exact ⟨a, R, .keep rfl rfl rfl⟩
  | confirmationRequest attempt value =>
      simp only [Host.Step, Host.step, Host.confirmationRequest, Option.some.injEq] at hstep
      split at hstep
      · cases hstep
        exact ⟨a, R, .keep rfl rfl rfl⟩
      · split at hstep
        · cases hstep
          exact ⟨a, R, .keep rfl rfl rfl⟩
        · cases hstep
          obtain ⟨R', ho⟩ := R.annotate (f := fun o => { o with confirmation := some value }) fun _ => rfl
          exact ⟨a, R', .keep ho rfl Host.invalidate_requests⟩
  | passkeyNotification attempt passkey =>
      simp only [Host.Step, Host.step, Host.passkeyNotification, Option.some.injEq] at hstep
      split at hstep
      · cases hstep
        exact ⟨a, R, .keep rfl rfl rfl⟩
      · cases hstep
        split
        · exact ⟨a, R.invalidate, .keep Host.invalidate_outcome rfl Host.invalidate_requests⟩
        · obtain ⟨R', ho⟩ := R.annotate (f := fun o => { o with passkey := some passkey }) fun _ => rfl
          exact ⟨a, R', .keep ho rfl Host.invalidate_requests⟩
  | pinCodeRequest n =>
      simp only [Host.Step, Host.step, Host.pinCodeRequest, Option.some.injEq] at hstep
      split at hstep
      · cases hstep
        exact ⟨a, R, .keep rfl rfl rfl⟩
      · rename_i attempt hc
        cases hstep
        obtain ⟨id, rfl⟩ := R.attempt (Host.current_eq hc)
        exact R.endPair rfl kIOReturnUnsupported
  | pairingFinished n error =>
      simp only [Host.Step, Host.step, Host.pairingFinished, Option.some.injEq] at hstep
      split at hstep
      · cases hstep
        exact ⟨a, R, .keep rfl rfl rfl⟩
      · rename_i attempt hc
        cases hstep
        obtain ⟨id, rfl⟩ := R.attempt (Host.current_eq hc)
        rw [finishPairOperation_unpair]
        exact R.endPair rfl error
  | deviceConnected =>
      cases hstep
      exact ⟨a, R.invalidate, .keep Host.invalidate_outcome rfl Host.invalidate_requests⟩
  | metadataChanged =>
      cases hstep
      exact ⟨a, R.invalidate, .keep Host.invalidate_outcome rfl Host.invalidate_requests⟩
  | deviceDisconnected address notification =>
      cases hstep
      rw [Host.deviceDisconnected]
      split
      · exact ⟨a, R, .keep rfl rfl rfl⟩
      · exact ⟨a, Represents.invalidate { R with }, .keep Host.invalidate_outcome rfl
          Host.invalidate_requests⟩
  | connectionReturns result =>
      simp only [Host.Step, Host.step] at hstep
      split at hstep
      · cases hstep
      · rename_i job jobs hjobs
        cases hstep
        have hj := R.jobs
        rw [hjobs] at hj
        refine ⟨a, { R with jobs := ?_, scheduled := fun c hc => List.mem_append_left _ (R.scheduled c hc) },
          .keep rfl rfl rfl⟩
        -- There was one job, and it moves on.
        cases a <;> simp_all [Activity.job]
  | block index =>
      simp only [Host.Step, Host.step, Option.map_eq_some_iff] at hstep
      obtain ⟨b, hb, hrun⟩ := hstep
      obtain ⟨a', R', M⟩ := R.run (S := S) hb
      rw [hrun] at R' M
      exact ⟨a', R', M⟩
  | stop =>
      simp only [Host.Step, Host.step, Host.stop, Option.some.injEq] at hstep
      cases hstep
      obtain ⟨a', R', M⟩ := R.finish_move (S := S)
      refine ⟨a', { R' with jobs := ?_, scheduled := fun c hc => ?_ }, (M _).congr (by rintro _ ⟨⟩) ⟨rfl, rfl⟩ ?_ rfl rfl⟩
      · rw [← R'.jobs]
        refine congrArg _ (ended_filter _ fun b hb => ?_)
        obtain ⟨work, -, rfl⟩ : ∃ work, (h.finish S).2.pendingChange = some work ∧ b = .change work := by
          simpa using hb
        rfl
      · refine List.mem_filter.mpr ⟨R'.scheduled c hc, ?_⟩
        cases a' <;> cases hc <;> simp
      · rw [replied_append]
        cases (h.finish S).2.pairing <;> simp [replied]

/-- Every state of a run has one activity. -/
theorem run_represents {s s' : Host} {t : List (Event × List Effect)} (r : Steps Host.Step s t s')
    (hs : ∃ a, Represents s a) : ∃ a, Represents s' a := by
  refine r.invariant (I := fun h => ∃ a, Represents h a) ?_ hs
  rintro h e o h' ⟨a, R⟩ hstep
  obtain ⟨a', R', -⟩ := step_move R hstep
  exact ⟨a', R'⟩

end Events

/-! ### The identifiers that were made -/

section Issued
variable {h : Host} {S : Surroundings}

namespace Host

@[simp] theorem finishPairOperation_issued (device : Nat) (result : Int) :
    (h.finishPairOperation S device result).issued = h.issued := by
  rw [finishPairOperation]
  split
  · rfl
  · rw [invalidate_issued]

@[simp] theorem startPair_issued (device : Nat) : (h.startPair S device).2.issued = h.issued := by
  rw [startPair]
  split
  · rw [finishPairOperation_issued]
  · dsimp only
    split
    · rw [finishPairOperation_issued]
    · rfl

@[simp] theorem observeConnections_issued : (h.observeConnections S).issued = h.issued := by
  rw [observeConnections]; split <;> rfl

@[simp] theorem prepareCentral_issued (permission : Bool) :
    (h.prepareCentral S permission).issued = h.issued := by
  rw [prepareCentral]; split <;> rfl

@[simp] theorem beginIfReady_issued : (h.beginIfReady S).2.issued = h.issued := by
  rw [beginIfReady]; split
  · exact invalidate_issued
  · rfl

@[simp] theorem finish_issued : (h.finish S).2.issued = h.issued := by
  rw [finish]
  split
  · dsimp only
    split <;> exact invalidate_issued
  · rfl

/-- A confirmation issues no identifier. -/
theorem confirmation_issued (n : Nat) (value : Object) :
    (h.confirmation n value).2.issued = h.issued := by
  rw [confirmation]
  split
  · rfl
  split
  · split
    · rw [invalidate_issued]
    · rfl
  all_goals rfl

/-- A request for an operation makes one identifier, if the operation begins. -/
theorem pair_issued (n : Nat) (value : Object) : h.issued ⊆ (h.pair S n value).2.issued := by
  rw [pair]
  split
  · exact List.Subset.refl _
  split
  · exact List.Subset.refl _
  split
  · exact List.Subset.refl _
  dsimp only
  split
  · rw [finishPairOperation_issued, invalidate_issued]
    exact List.subset_cons_self _ _
  · rw [startPair_issued, invalidate_issued]
    exact List.subset_cons_self _ _

/-- A connection keeps the identifiers issued before. -/
theorem connection_issued (n : Nat) (value : Object) (connect : Bool) :
    h.issued ⊆ (h.connection S n value connect).2.issued := by
  rw [connection]
  split
  · exact List.Subset.refl _
  split
  · exact List.Subset.refl _
  split
  · exact List.Subset.refl _
  · dsimp only
    rw [invalidate_issued]
    exact List.subset_cons_self _ _

/-- A listing issues no identifier. -/
theorem listed_issued (n : Nat) : (h.listed S n).2.issued = h.issued := by
  rw [listed]
  dsimp only
  split
  · rw [invalidate_issued, observeConnections_issued]
  · rw [observeConnections_issued]

/-- A scan issues no identifier. -/
theorem scan_issued (n : Nat) : (h.scan S n).2.issued = h.issued := by
  rw [scan]
  split
  · rfl
  · rw [beginIfReady_issued]

/-- No request takes back an identifier. -/
theorem handle_issued (n : Nat) (value : Object) : h.issued ⊆ (h.handle S n value).2.issued := by
  rw [handle]
  split
  · exact List.Subset.refl _
  split
  · exact List.Subset.refl _
  dsimp only
  rw [← prepareCentral_issued (h := h) (S := S) false]
  generalize h.prepareCentral S false = g
  split
  · exact List.Subset.refl _
  split
  · exact List.Subset.refl _
  rw [perform]
  split
  · rw [confirmation_issued]
    exact List.Subset.refl _
  split
  · exact pair_issued _ _
  split
  · exact connection_issued _ _ _
  split
  · exact connection_issued _ _ _
  split
  · exact List.Subset.refl _
  split
  · rw [listed_issued]
    exact List.Subset.refl _
  split
  · exact List.Subset.refl _
  split
  · rw [scan_issued]
    exact List.Subset.refl _
  · exact List.Subset.refl _

/-- Blocks issue no identifier. -/
theorem run_issued (b : Block) : (h.run S b).2.issued = h.issued := by
  cases b with
  | change work =>
      rw [run, change]
      split
      · rfl
      · exact observeConnections_issued (h := { h with pendingChange := none })
  | scan generation =>
      rw [run]
      split
      · rw [finish_issued]
      · rfl
  | pair attempt =>
      rw [run, pairTimeout]
      split
      · rw [finishPairOperation_issued]
      · rfl
  | connected job result => exact invalidate_issued

end Host

/-- The state of a step is that of the pair it makes. -/
theorem state_of_some {r : List Effect × Host} {o : List Effect} {h' : Host}
    (hr : some r = some (o, h')) : h' = r.2 :=
  congrArg Prod.snd (Option.some.inj hr).symm

/-- An identifier that was made stays so. -/
theorem step_issued {e : Event} {o : List Effect} {h' : Host} (hstep : h.Step e o h') :
    h.issued ⊆ h'.issued := by
  obtain ⟨S, c⟩ := e
  cases c with
  | request value =>
      simp only [Host.Step, Host.step] at hstep
      split at hstep
      · cases hstep
      · have hi := Host.handle_issued (S := S) (h := { h with requests := h.requests + 1 }) h.requests value
        rwa [Option.some.inj hstep] at hi
  | prepareCentral permission =>
      cases hstep
      rw [Host.prepareCentral_issued]
      exact List.Subset.refl _
  | didUpdateState =>
      simp only [Host.Step, Host.step] at hstep
      split at hstep
      · rw [state_of_some hstep, Host.didUpdateState]
        dsimp only
        rw [Host.beginIfReady_issued]
        split
        · rw [Host.finish_issued, Host.invalidate_issued]
          exact List.Subset.refl _
        · rw [Host.invalidate_issued]
          exact List.Subset.refl _
      · cases hstep
  | didDiscover identifier =>
      cases hstep
      split <;> exact List.Subset.refl _
  | inquiryDeviceFound inquiry count =>
      cases hstep
      split <;> exact List.Subset.refl _
  | inquiryComplete inquiry error =>
      rw [state_of_some hstep, Host.inquiryComplete]
      split
      · dsimp only
        split
        · rw [Host.finish_issued]
          exact List.Subset.refl _
        · exact List.Subset.refl _
      · exact List.Subset.refl _
  | confirmationRequest attempt value =>
      rw [state_of_some hstep, Host.confirmationRequest]
      split
      · exact List.Subset.refl _
      split
      · exact List.Subset.refl _
      · rw [Host.invalidate_issued]
        exact List.Subset.refl _
  | passkeyNotification attempt passkey =>
      cases hstep
      rw [Host.passkeyNotification]
      split
      · exact List.Subset.refl _
      · rw [Host.invalidate_issued]
        exact List.Subset.refl _
  | pinCodeRequest attempt =>
      rw [state_of_some hstep, Host.pinCodeRequest]
      split
      · exact List.Subset.refl _
      · rw [Host.finishPairOperation_issued]
        exact List.Subset.refl _
  | pairingFinished attempt error =>
      cases hstep
      rw [Host.pairingFinished]
      split
      · exact List.Subset.refl _
      · dsimp only
        rw [Host.finishPairOperation_issued]
        exact List.Subset.refl _
  | deviceConnected | metadataChanged =>
      cases hstep
      rw [Host.invalidate_issued]
      exact List.Subset.refl _
  | deviceDisconnected address notification =>
      cases hstep
      rw [Host.deviceDisconnected]
      split
      · exact List.Subset.refl _
      · rw [Host.invalidate_issued]
        exact List.Subset.refl _
  | connectionReturns result =>
      simp only [Host.Step, Host.step] at hstep
      split at hstep
      · cases hstep
      · cases hstep
        exact List.Subset.refl _
  | block index =>
      simp only [Host.Step, Host.step, Option.map_eq_some_iff] at hstep
      obtain ⟨b, -, hrun⟩ := hstep
      have hi := Host.run_issued (S := S) (h := { h with blocks := h.blocks.eraseIdx index }) b
      rw [hrun] at hi
      rw [hi]
      exact List.Subset.refl _
  | stop =>
      rw [state_of_some hstep, Host.stop]
      dsimp only
      rw [Host.finish_issued]
      exact List.Subset.refl _

end Issued

/-! ### Operations over a run -/

section Run
variable {h h' : Host} {e : Event} {o : List Effect} {id : String} {result : Outcome}

/-- A pending operation is kept by an event, or completed. -/
theorem pending_step (hr : ∃ a, Represents h a) (hp : h.outcome = some (id, none))
    (hstep : h.Step e o h') :
    h'.outcome = some (id, none) ∨ ∃ result, h'.outcome = some (id, some result) := by
  obtain ⟨a, R⟩ := hr
  obtain ⟨a', -, M⟩ := step_move R hstep
  -- Nothing else begins, since the activity is that of the pending operation.
  have ha : a.operationID = some id := R.operation.symm.trans (pendingID_of hp)
  cases M with
  | keep ho => exact .inl (ho.trans hp)
  | endScan => cases ha
  | ends ha' _ ho =>
      cases ha.symm.trans (Activity.operationID_of ha')
      exact .inr ⟨_, ho⟩
  | request _ A =>
      cases A with
      | only ho => exact .inl (ho.trans hp)
      | scans => cases ha
      | begins => cases ha
      | instant => cases ha

/-- The outcome of an identifier is settled: nothing else will be told of it. -/
structure Settled (id : String) (result : Outcome) (h : Host) : Prop where
  represents : ∃ a, Represents h a
  issued : id ∈ h.issued
  told : ∀ x, h.outcome = some (id, x) → x = some result

/-- An operation that is over keeps its result through each step. -/
theorem settled_step (hs : Settled id result h) (hstep : h.Step e o h') : Settled id result h' := by
  obtain ⟨⟨a, R⟩, hi, ht⟩ := hs
  obtain ⟨a', R', M⟩ := step_move R hstep
  refine ⟨⟨a', R'⟩, step_issued hstep hi, fun x hx => ?_⟩
  cases M with
  | keep ho | endScan ho => exact ht x (ho.symm.trans hx)
  | ends ha _ ho =>
      -- The operation that ends was pending.
      cases ho.symm.trans hx
      cases ht _ (R.pending (Activity.operationID_of ha))
  | request _ A =>
      cases A with
      | only ho | scans ho => exact ht x (ho.symm.trans hx)
      | begins new _ _ ho | instant new _ _ ho =>
          cases ho.symm.trans hx
          exact absurd hi new

/-- The service's own events: a block of the main queue, and the connection queue. -/
def Call.own : Call → Bool
  | .block _ | .connectionReturns _ => true
  | _ => false

/-- Every block that is queued can run next. -/
theorem step_block {i : Nat} {b : Block} (hb : h.blocks[i]? = some b) (S : Surroundings) :
    h.Step ⟨S, .block i⟩ ({ h with blocks := h.blocks.eraseIdx i : Host }.run S b).1
      ({ h with blocks := h.blocks.eraseIdx i : Host }.run S b).2 := by
  simp only [Host.Step, Host.step, hb, Option.map_some]

/-- What completes a pending operation is there: a block, or the connection queue and then a
block. -/
theorem Represents.completes {a : Activity} (R : Represents h a) (hp : h.outcome = some (id, none))
    (S : Surroundings) : ∃ t h', Steps Host.Step h t h' ∧ (∀ x ∈ t, x.1.world = S ∧ x.1.call.own) ∧
      ∃ result, h'.outcome = some (id, some result) := by
  have ha : a.operationID = some id := R.operation.symm.trans (pendingID_of hp)
  cases a with
  | none | scan => cases ha
  | pair id' attempt =>
      cases ha
      -- The timeout of its attempt.
      obtain ⟨i, hi⟩ := List.getElem?_of_mem (R.scheduled (.pair attempt) rfl)
      obtain ⟨-, ho, -⟩ := (R.erase hi rfl).pairTimeout (S := S)
      exact ⟨_, _, .one (step_block hi S), by simp [Call.own], _, ho⟩
  | connect job =>
      cases ha
      have hblock : ∀ {g : Host} {r : Int} {i : Nat}, Represents g (.connect job) →
          g.blocks[i]? = some (.connected job r) → ∃ t h', Steps Host.Step g t h' ∧
            (∀ x ∈ t, x.1.world = S ∧ x.1.call.own) ∧
              ∃ result, h'.outcome = some (job.id, some result) := by
        intro g r i R' hi
        obtain ⟨-, -, ho⟩ := R'.connectionEnded (S := S) hi
        exact ⟨_, _, .one (step_block hi S), by simp [Call.own], _, ho⟩
      cases hjobs : h.jobs with
      | nil =>
          have hmem : job ∈ ended h.blocks := by
            have hj := R.jobs
            rw [hjobs, List.nil_append] at hj
            rw [hj]
            exact List.mem_cons_self
          obtain ⟨b, hb, hj⟩ := List.mem_filterMap.mp hmem
          obtain ⟨i, hi⟩ := List.getElem?_of_mem hb
          cases b <;> cases hj
          exact hblock R hi
      | cons job' jobs =>
          have hstep : h.Step ⟨S, .connectionReturns 0⟩ []
              { h with jobs := jobs, blocks := h.blocks ++ [.connected job' 0] } := by
            simp only [Host.Step, Host.step, hjobs]
          obtain ⟨a', R', M⟩ := step_move R hstep
          obtain rfl : a' = .connect job := by
            cases M with
            | keep => rfl
            | ends ha _ ho => cases (show h.outcome = _ from ho).symm.trans hp
            | request hc => cases hc
          have hi : (h.blocks ++ [.connected job' 0])[h.blocks.length]? =
              some (.connected job' 0) := by simp
          obtain ⟨rfl, -⟩ := R'.connectionEnded (S := S) hi
          obtain ⟨t, h', r, hown, hdone⟩ := hblock R' hi
          exact ⟨_, h', .more hstep r, by simpa [Call.own] using hown, hdone⟩

end Run

/-- **Operations settle.**  In every run at most one scan, pairing or connection is under way.  From
any point of it on, a pending operation stays the one that is shown until an event completes it; the
service has what completes it without anyone's help; and what an operation was once shown to have
come to is what is shown of it ever after. -/
theorem operations_settle {t u : List (Event × List Effect)} {h h' : Host}
    (r : Steps Host.Step .initial t h) (r' : Steps Host.Step h u h') :
    (h.scanning.toNat + h.pairing.isSome.toNat + h.connectionBusy.toNat ≤ 1) ∧
    (∀ id, h.outcome = some (id, none) →
      (h'.outcome = some (id, none) ∨
        ∃ v e o w m m' result, u = v ++ (e, o) :: w ∧ Steps Host.Step h v m ∧ m.Step e o m' ∧
          Steps Host.Step m' w h' ∧ m.outcome = some (id, none) ∧ m'.outcome = some (id, some result)) ∧
      ∀ S, ∃ v g, Steps Host.Step h v g ∧ (∀ x ∈ v, x.1.world = S ∧ x.1.call.own) ∧
        ∃ result, g.outcome = some (id, some result)) ∧
    ∀ id result, h.outcome = some (id, some result) → ∀ x, h'.outcome = some (id, x) →
      x = some result := by
  obtain ⟨a, R⟩ := run_represents r ⟨.none, represents_initial⟩
  refine ⟨?_, fun id hp => ⟨?_, R.completes hp⟩, fun id result ho => ?_⟩
  · rw [R.scanning, R.pairing, R.connectionBusy]
    cases a <;> simp [Activity.request, Activity.attempt, Activity.job]
  · by_cases hp' : h'.outcome = some (id, none)
    · exact .inl hp'
    · -- The first event after which it is not pending completes it.
      obtain ⟨v, e, o, w, m, m', rfl, hv, hstep, hm, hm', hw⟩ :=
        r'.leaves (I := fun g => g.outcome = some (id, none)) hp hp'
      obtain hkept | ⟨result, hdone⟩ := pending_step (run_represents hv ⟨a, R⟩) hm hstep
      · exact absurd hkept hm'
      · exact .inr ⟨v, e, o, w, m, m', result, rfl, hv, hstep, hw, hm, hdone⟩
  · have hs : Settled id result h := by
      refine ⟨⟨a, R⟩, R.known _ ho, fun x hx => ?_⟩
      cases ho.symm.trans hx
      rfl
    exact (r'.invariant (fun hs hstep => settled_step hs hstep) hs).told

/-- A keyboard that is known, and not paired. -/
def sampleWorld : Surroundings where
  active := true
  authorization := .allowedAlways
  poweredOn := true
  pairedDevices := [7]
  device _ := ⟨some "aa-bb-cc-dd-ee-ff", "Keyboard", 0x540, false, false, []⟩
  foundDevices := []
  uuid := "one"
  attempt := some 0
  search := some 0
  registersConnect := true
  registersDisconnect _ := none
  audio _ := []

/-- The service when it has a manager. -/
def sampleReady : Host := Host.initial.prepareCentral sampleWorld false

/-- The service after the first request. -/
def sampleAfter (value : Object) : List Effect × Host :=
  Host.handle sampleWorld 0 value { sampleReady with requests := 1 }

def samplePair : Object := [("action", .str "bluetooth-pair"), ("address", .str "AA:BB:CC:DD:EE:FF")]

def sampleScan : Object := [("action", .str "bluetooth-scan")]

/-- The state after one request of the sample is reachable. -/
theorem sampleAfter_steps (value : Object) :
    Steps Host.Step .initial
      [(⟨sampleWorld, .prepareCentral false⟩, []), (⟨sampleWorld, .request value⟩, (sampleAfter value).1)]
      (sampleAfter value).2 :=
  .more (show Host.initial.Step _ _ sampleReady from rfl) (.one rfl)

/-- A pairing of the sample is pending, and blocks of the service alone complete it. -/
theorem operations_settle_sample : (sampleAfter samplePair).2.outcome = some ("one", none) ∧
    ∃ v g, Steps Host.Step (sampleAfter samplePair).2 v g ∧
      (∀ x ∈ v, x.1.world = sampleWorld ∧ x.1.call.own) ∧
      ∃ result, g.outcome = some ("one", some result) :=
  ⟨by rfl, ((operations_settle (sampleAfter_steps samplePair) (.refl _)).2.1 "one" (by rfl)).2
    sampleWorld⟩

/-! ### Answers over a run -/

/-- The requests that a run answered. -/
def replies (t : List (Event × List Effect)) : List Nat := t.flatMap fun x => replied x.2

/-- Every request but the one that a scan is to answer was answered, once. -/
def Answering (h : Host) (t : List (Event × List Effect)) : Prop :=
  ∃ a, Represents h a ∧ (∀ n ∈ a.request, n < h.requests) ∧
    ∀ n, (replies t).count n = if n < h.requests ∧ a.request ≠ some n then 1 else 0

/-- Each step keeps the account of the requests that are answered and that wait. -/
theorem answering_step {h h' : Host} {t : List (Event × List Effect)} {e : Event} {o : List Effect}
    (hs : Answering h t) (hstep : h.Step e o h') : Answering h' (t ++ [(e, o)]) := by
  obtain ⟨a, R, hlt, hcount⟩ := hs
  obtain ⟨a', R', M⟩ := step_move R hstep
  have hr : replies (t ++ [(e, o)]) = replies t ++ replied o := by simp [replies]
  refine ⟨a', R', ?_⟩
  simp only [hr, List.count_append, hcount]
  cases M with
  | keep _ hs hn => simpa [hs, hn] using hlt
  | @endScan m _ hs hn =>
      have hm : m < h.requests := hlt m rfl
      refine ⟨by simp [Activity.request], fun n => ?_⟩
      by_cases h' : n = m
      · simp [h', hs, hn, hm, Activity.request]
      · simp [hs, hn, Activity.request, Ne.symm h']
  | ends ha _ _ hs hn =>
      have hq : a.request = none := by cases a <;> first | rfl | cases ha
      have hq' : Activity.none.request = none := rfl
      simp [hs, hn, hq, hq']
  | request _ A hn =>
      -- The number of this request is new.
      have hone : ∀ {b : Activity}, (∀ m ∈ b.request, m < h.requests) → replied o = [h.requests] →
          ∀ n, (if n < h.requests ∧ b.request ≠ some n then 1 else 0) + (replied o).count n =
            if n < h'.requests ∧ b.request ≠ some n then 1 else 0 := by
        intro b hb hs n
        rw [hs, hn, List.count_singleton]
        by_cases hlast : n = h.requests
        · have hne : b.request ≠ some n := fun hq => absurd (hb n hq) (by omega)
          simp [hlast] at hne ⊢
          exact hne
        · have hiff : n < h.requests + 1 ↔ n < h.requests := by omega
          simp [hiff, Ne.symm hlast]
      have hmono : ∀ m ∈ a.request, m < h'.requests := fun m hm => by
        rw [hn]
        exact Nat.lt_succ_of_lt (hlt m hm)
      cases A with
      | only _ hs => exact ⟨hmono, hone hlt hs⟩
      | instant _ _ _ _ hs => exact ⟨hmono, hone hlt hs⟩
      | begins _ ha _ _ hs =>
          have hq : a'.request = none := by cases a' <;> first | rfl | cases ha
          refine ⟨by simp [hq], fun n => ?_⟩
          have h₁ := hone (b := .none) (by simp [Activity.request]) hs n
          rw [hq]
          exact h₁
      | scans _ hs =>
          refine ⟨by simp [Activity.request, hn], fun n => ?_⟩
          have hiff : n < h.requests ∧ Activity.none.request ≠ some n ↔
              n < h.requests + 1 ∧ (Activity.scan h.requests).request ≠ some n := by
            have hne : h.requests ≠ n ↔ (Activity.scan h.requests).request ≠ some n :=
              not_congr (Option.some_inj).symm
            rw [← hne, and_iff_left (show Activity.none.request ≠ some n by rintro ⟨⟩)]
            omega
          rw [hs, hn, List.count_nil, Nat.add_zero]
          exact if_congr hiff rfl rfl

/-- **Every request is answered once.**  In every run each request was answered exactly once, except
the one whose scan is under way, which was not; that scan ends by a block that is scheduled, and its
end answers the request. -/
theorem requests_answered {t : List (Event × List Effect)} {h : Host}
    (r : Steps Host.Step .initial t h) (n : Nat) :
    ((replies t).count n = if n < h.requests ∧ h.scanReply ≠ some n then 1 else 0) ∧
      (h.scanReply = some n → ∀ S, ∃ i o h', h.Step ⟨S, .block i⟩ o h' ∧ replied o = [n] ∧
        h'.scanReply = none) := by
  have hs : Answering .initial [] :=
    ⟨.none, represents_initial, by simp [Activity.request], by simp [replies, Host.initial]⟩
  obtain ⟨a, R, -, hcount⟩ := r.invariant_trace (I := Answering) answering_step hs
  refine ⟨by rw [R.scanReply]; exact hcount n, fun hn S => ?_⟩
  obtain ⟨m, rfl⟩ := R.not_scanning (by rw [R.scanning, ← R.scanReply, hn]; rfl)
  obtain rfl : m = n := by simpa [Activity.request] using R.scanReply.symm.trans hn
  obtain ⟨i, hi⟩ := List.getElem?_of_mem (R.scheduled (.scan h.scanGeneration) rfl)
  obtain ⟨R', -, ha, -⟩ := (R.erase hi rfl).finish (S := S)
  have hrun := step_block hi S
  rw [Host.run, if_pos rfl] at hrun
  exact ⟨i, _, _, hrun, ha, R'.scanReply⟩

/-- A scan of the sample waits for its answer, and the end of the scan gives it. -/
theorem requests_answered_sample : (sampleAfter sampleScan).2.scanReply = some 0 ∧
    ∃ i o h', (sampleAfter sampleScan).2.Step ⟨sampleWorld, .block i⟩ o h' ∧ replied o = [0] ∧
      h'.scanReply = none :=
  ⟨by rfl, (requests_answered (sampleAfter_steps sampleScan) 0).2 (by rfl) sampleWorld⟩

end Ashacky.Devices.BluetoothService
