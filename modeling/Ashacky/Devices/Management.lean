import Ashacky.Devices.Operations

/-!
# Devices — the guest's management of Bluetooth

`guest/devices/bluetooth_management.py`: `device_operation` asks the host for a pairing or for a
connection, and then asks for the devices, twice a second, until the operation is over.  The client
is a state between its requests; the host is `BluetoothService`, with everything else that happens
to it and everyone else who asks.  A request of the client may get lost, and so may its reply; the
channel between the two is `Control`'s, and what it delivers is what was sent.

* `device_operation_tells`: what it returns, and what it raises of the operation, is so: the device
  was as it was to be when the host completed that very operation.
-/

namespace Ashacky.Devices.Management
open Ashacky.Support
open Ashacky.Control (Json Object)
open Ashacky.Devices.BluetoothService

/-! ### The client -/

/-- What is raised. -/
inductive Failure where
  | unsupported
  /-- The socket, and what is no JSON. -/
  | socket
  | framing
  | response
  /-- The host says so. -/
  | host (error : Json)
  /-- A key that is not there, or one of what is no object. -/
  | malformed
  | superseded
  | pairingCode
  | passkey
  /-- `confirm` or `display` raises. -/
  | callback
  /-- The operation failed, with this result. -/
  | failed (result : Option Json)
  | pending
deriving DecidableEq

/-- The texts that are always the same. -/
def Failure.text : Failure → Option String
  | .unsupported => some "Unsupported device operation"
  | .framing => some "Invalid host response framing"
  | .response => some "Invalid host response"
  | .superseded => some "Operation was superseded; inspect current device state"
  | .pairingCode => some "Invalid host pairing code"
  | .passkey => some "Invalid host passkey"
  | .pending =>
      some "Host operation still pending; inspect current device state before retrying"
  | _ => none

/-- What comes of a request. -/
inductive Arrival where
  | nothing
  /-- A line of more than 16384 bytes, or one that does not end. -/
  | unframed
  | value (v : Json)

/-- `request`, after its exchange. -/
def request : Arrival → Except Failure Object
  | .nothing => .error .socket
  | .unframed => .error .framing
  | .value (.obj reply) =>
      if reply.lookup "ok" = some (.bool true) then .ok reply
      else .error (.host ((reply.lookup "error").getD (.str "Host operation failed")))
  | .value _ => .error .response

/-- What the caller of `device_operation` passes. -/
structure Hooks where
  /-- `confirm(code) is True`, if it does not raise. -/
  confirm : Option (Int → Option Bool)
  /-- Whether `display` raises. -/
  display : Option (Int → Bool)

/-- `device_operation`, between its requests. -/
inductive Client where
  /-- The operation is asked for. -/
  | asked (action address : String)
  /-- Before the deadline is looked at. -/
  | loop (id : Json) (deadline : Nat) (displayed : Json)
  /-- The devices are asked for. -/
  | listing (id : Json) (deadline : Nat) (displayed : Json)
  /-- An answer is sent; `confirm` may have raised. -/
  | confirming (id : Json) (deadline : Nat) (displayed : Json) (operation : Object)
      (accepted threw : Bool)
  | returned (operation : Object)
  | raised (failure : Failure)
deriving DecidableEq

def actions : List String := ["bluetooth-connect", "bluetooth-disconnect", "bluetooth-pair"]

/-- `{"action": action, "address": address}`. -/
def asking (action address : String) : Object := [("action", .str action), ("address", .str address)]

def devices : Object := [("action", .str "bluetooth-devices")]

def confirmation (id : Json) (accepted : Bool) : Object :=
  [("action", .str "bluetooth-confirm"), ("operationID", id), ("accepted", .bool accepted)]

/-- A code that has six digits at most. -/
def code : Json → Option Int
  | .int n => if 0 ≤ n ∧ n ≤ 999999 then some n else none
  | _ => none

namespace Client

/-- The call. -/
def start (action address : String) : Client :=
  if action ∈ actions then .asked action address else .raised .unsupported

/-- The request that is out. -/
def payload : Client → Option Object
  | asked action address => some (asking action address)
  | listing _ _ _ => some devices
  | confirming id _ _ _ accepted _ => some (confirmation id accepted)
  | _ => none

/-- The operation is accepted. -/
def begun (action : String) (now : Nat) (reply : Object) : Client :=
  match (Object.object reply "operation").bind (·.lookup "id") with
  | none => .raised .malformed
  | some id => .loop id (now + if action = "bluetooth-pair" then 75000 else 45000) .null

/-- The end of the loop's body. -/
def judge (id : Json) (deadline : Nat) (displayed : Json) (operation : Object) : Client :=
  if operation.lookup "state" = some (.str "complete") then
    if operation.lookup "success" = some (.bool true) then .returned operation
    else .raised (.failed (operation.lookup "result"))
  else .loop id deadline displayed

/-- What follows the answer to a confirmation, or that there is none. -/
def shown (hooks : Hooks) (id : Json) (deadline : Nat) (displayed : Json) (operation : Object) :
    Client :=
  match operation.lookup "passkey" with
  | none => judge id deadline displayed operation
  | some passkey =>
      if passkey = displayed then judge id deadline displayed operation
      else
        match code passkey with
        | none => .raised .passkey
        | some n =>
            if (hooks.display.map fun display => display n) = some true then .raised .callback
            else judge id deadline passkey operation

/-- The devices are there. -/
def polled (hooks : Hooks) (id : Json) (deadline : Nat) (displayed : Json) (state : Object) : Client :=
  match (state.lookup "operation").getD (.obj []) with
  | .obj operation =>
      if (operation.lookup "id").getD .null ≠ id then .raised .superseded
      else
        match operation.lookup "confirmation" with
        | none => shown hooks id deadline displayed operation
        | some value =>
            match code value with
            | none => .raised .pairingCode
            | some n =>
                match hooks.confirm with
                | none => .confirming id deadline displayed operation false false
                | some confirm =>
                    -- The host is told in any case.
                    .confirming id deadline displayed operation ((confirm n).getD false)
                      (confirm n).isNone
  | _ => .raised .malformed

/-- The reply to the request that is out. -/
def receive (hooks : Hooks) (now : Nat) (arrival : Arrival) (c : Client) : Client :=
  match c, request arrival with
  | asked action _, .ok reply => begun action now reply
  | listing id deadline displayed, .ok reply => polled hooks id deadline displayed reply
  | confirming id deadline displayed operation _ threw, .ok _ =>
      if threw then .raised .callback else shown hooks id deadline displayed operation
  | asked .., .error why | listing .., .error why | confirming .., .error why => .raised why
  | c, _ => c

/-- The loop's condition. -/
def wake (now : Nat) : Client → Option Client
  | loop id deadline displayed =>
      some (if now < deadline then .listing id deadline displayed else .raised .pending)
  | _ => none

end Client

/-! ### The client and the host -/

structure System where
  host : Host
  client : Client

/-- How much of a reply is delivered. -/
inductive Delivery where
  | whole
  | unframed
  | nothing

def Delivery.arrival (reply : Option Object) : Delivery → Arrival
  | whole => reply.elim .nothing fun answer => .value (.obj answer)
  | unframed => .unframed
  | nothing => .nothing

inductive Act where
  /-- Anything else at the host. -/
  | host (e : Event)
  /-- The client's request is at the host. -/
  | exchange (world : Surroundings) (hooks : Hooks) (now : Nat) (delivery : Delivery)
  /-- It never is, or later than the client waits. -/
  | fails (hooks : Hooks) (now : Nat) (delivery : Delivery)
  | wake (now : Nat)

/-- The reply to the request `n`. -/
def replyTo (n : Nat) (o : List Effect) : Option Object :=
  o.findSome? fun
    | .reply request answer => if request = n then some answer else none
    | _ => none

namespace System

/-- What the host did is the output. -/
def step (s : System) : Act → Option (Option (Event × List Effect) × System)
  | .host e => (s.host.step e).map fun r => (some (e, r.1), { s with host := r.2 })
  | .exchange world hooks now delivery =>
      s.client.payload.bind fun value =>
        (s.host.step ⟨world, .request value⟩).map fun r =>
          (some (⟨world, .request value⟩, r.1),
            ⟨r.2, s.client.receive hooks now (delivery.arrival (replyTo s.host.requests r.1))⟩)
  | .fails hooks now delivery =>
      s.client.payload.map fun _ =>
        (none, { s with client := s.client.receive hooks now (delivery.arrival none) })
  | .wake now => (s.client.wake now).map fun c => (none, { s with client := c })

/-- A step. -/
def Step (s : System) (x : Act) (o : Option (Event × List Effect)) (s' : System) : Prop :=
  s.step x = some (o, s')

/-- The call, when nothing happened yet. -/
def start (action address : String) : System := ⟨.initial, .start action address⟩

end System

/-- What happened at the host. -/
abbrev Trace := List (Event × List Effect)

def hosted (t : List (Act × Option (Event × List Effect))) : Trace := t.filterMap Prod.snd

/-! ### What becomes of the operation -/

/-- The request is accepted as the operation `id`, which is to achieve `g` on the device. -/
def Accepted (value : Object) (id : String) (g : Goal) (device : Nat) (x : Event × List Effect) :
    Prop :=
  x.1.call = .request value ∧ Wanted x.1.world value g device ∧
    ∃ n, Effect.reply n (Host.accepted id) ∈ x.2

/-- An event completed that operation: if with success, the device was as it was to be. -/
def Completed (value : Object) (id : String) (g : Goal) (device : Nat) (result : Outcome)
    (t : Trace) : Prop :=
  ∃ u e o v m m', t = u ++ (e, o) :: v ∧ Steps Host.Step .initial u m ∧ m.Step e o m' ∧
    (∀ r, m.outcome ≠ some (id, some r)) ∧ m'.outcome = some (id, some result) ∧
    (result.success → g.met (e.world.device device)) ∧
    ∃ x ∈ u ++ [(e, o)], Accepted value id g device x

/-- The operation is under way, or complete. -/
inductive Fate (value : Object) (id : String) (g : Goal) (device : Nat) (t : Trace) (h : Host) :
    Prop where
  | pending {a : Activity} (R : Represents h a) (ha : a.purpose = some (id, g, device))
      (accepted : ∃ x ∈ t, Accepted value id g device x)
  | complete {result : Outcome} (completed : Completed value id g device result t)
      (settled : Settled id result h)

section Fate
variable {value : Object} {id : String} {g : Goal} {device : Nat} {result : Outcome} {t : Trace}
  {h h' : Host} {e : Event} {o : List Effect} {a : Activity}

theorem Completed.mono (c : Completed value id g device result t) (w : Trace) :
    Completed value id g device result (t ++ w) := by
  obtain ⟨u, e, o, v, m, m', rfl, c⟩ := c
  exact ⟨u, e, o, v ++ w, m, m', by simp, c⟩

/-- What was complete is settled. -/
theorem Represents.settled (R : Represents h a) (ho : h.outcome = some (id, some result)) :
    Settled id result h where
  represents := ⟨a, R⟩
  issued := R.known _ ho
  told x hx := by
    cases ho.symm.trans hx
    rfl

/-- What the host does keeps an operation under way, or completes it. -/
theorem Fate.step (f : Fate value id g device t h) (r : Steps Host.Step .initial t h)
    (hstep : h.Step e o h') : Fate value id g device (t ++ [(e, o)]) h' := by
  cases f with
  | complete c s => exact .complete (c.mono _) (settled_step s hstep)
  | @pending a R ha accepted =>
      obtain ⟨x, hx, hacc⟩ := accepted
      have hx' : x ∈ t ++ [(e, o)] := List.mem_append_left _ hx
      obtain ⟨a', R', M⟩ := step_move R hstep
      cases M with
      | keep => exact .pending R' ha ⟨x, hx', hacc⟩
      | endScan => cases ha
      | ends ha' meets ho =>
          cases ha.symm.trans ha'
          have hp := R.pending (Activity.operationID_of ha)
          refine .complete ⟨t, e, o, [], h, h', rfl, r, hstep, fun q hq => ?_, ho, meets, x, hx',
            hacc⟩ (Represents.settled R' ho)
          cases hp.symm.trans hq
      | request _ A =>
          cases A with
          | only => exact .pending R' ha ⟨x, hx', hacc⟩
          | scans | begins | instant => cases ha

end Fate

/-! ### What the host answers -/

section Answers
variable {S : Surroundings} {h h' : Host} {a : Activity} {value : Object} {o : List Effect} {n : Nat}

/-- A request is refused, or accepted as an operation that is then shown. -/
inductive Replied (S : Surroundings) (n : Nat) (r : List Effect × Host) : Prop where
  | refused {error : String} {rest : List Effect} (reply : r.1 = .reply n (failure error) :: rest)
  | accepted {rest : List Effect} {x : Option Outcome}
      (reply : r.1 = .reply n (Host.accepted S.uuid) :: rest)
      (outcome : r.2.outcome = some (S.uuid, x))

/-- The end of a pair operation stores its outcome. -/
theorem finishPairOperation_outcome {id : String} (hid : h.pairingOperationID = some id)
    (device : Nat) (result : Int) : (h.finishPairOperation S device result).outcome =
      some (id, some (Host.pairOutcome S device result)) := by
  rw [Host.finishPairOperation_eq hid, Host.invalidate_outcome]
  rfl

/-- A pairing that starts leaves its operation on show, pending or over. -/
theorem startPair_outcome {id : String} (hid : h.pairingOperationID = some id)
    (ho : h.outcome = some (id, none)) (device : Nat) :
    ∃ x, (h.startPair S device).2.outcome = some (id, x) := by
  rw [Host.startPair]
  split
  · exact ⟨_, finishPairOperation_outcome (h := { h with pairing := none }) hid device _⟩
  · dsimp only
    split
    · exact ⟨_, finishPairOperation_outcome
        (h := { h with attempts := h.attempts + 1, pairing := none }) hid device _⟩
    · exact ⟨_, ho⟩

/-- A pair request is refused, or it is accepted and shown. -/
theorem pair_replied : Replied S n (h.pair S n value) := by
  rw [Host.pair]
  split
  · exact .refused rfl
  split
  · exact .refused rfl
  split
  · exact .refused rfl
  rename_i device _
  obtain ⟨p, bs, w, -, he⟩ := Host.invalidate_eq
    { h with
      operation := some (.pending S.uuid)
      pairingOperationID := some S.uuid
      issued := S.uuid :: h.issued }
  dsimp only
  rw [he]
  split
  · exact .accepted rfl (finishPairOperation_outcome rfl device 0)
  · obtain ⟨x, hx⟩ := startPair_outcome (S := S)
      (h :=
        { h with
          operation := some (.pending S.uuid)
          pairingOperationID := some S.uuid
          issued := S.uuid :: h.issued
          pendingChange := p
          blocks := h.blocks ++ bs
          works := w }) rfl rfl device
    exact .accepted rfl hx

theorem connection_replied (connect : Bool) : Replied S n (h.connection S n value connect) := by
  rw [Host.connection]
  split
  · exact .refused rfl
  split
  · exact .refused rfl
  split
  · exact .refused rfl
  · exact .accepted rfl Host.invalidate_outcome

/-- The three actions that begin an operation. -/
theorem handle_replied {action : String} (hmem : action ∈ actions)
    (haction : Object.text value "action" = some action) : Replied S n (h.handle S n value) := by
  have hpure : ∀ {g : Host}, Replied S n (g.perform S n value action) := by
    intro g
    simp only [actions, List.mem_cons, List.not_mem_nil, or_false] at hmem
    obtain rfl | rfl | rfl := hmem
    · exact connection_replied true
    · exact connection_replied false
    · exact pair_replied
  have haudio : "audio-".toList.isPrefixOf action.toList = false := by
    simp only [actions, List.mem_cons, List.not_mem_nil, or_false] at hmem
    obtain rfl | rfl | rfl := hmem <;> decide
  rw [Host.handle]
  split
  · exact .refused rfl
  rw [haction, Option.map_some, haudio, if_neg (by simp)]
  dsimp only
  split
  · exact .refused rfl
  · exact hpure

theorem replyTo_cons (answer : Object) (rest : List Effect) :
    replyTo n (.reply n answer :: rest) = some answer := by
  simp [replyTo]

/-- An operation that is accepted begins, and its fate is known from then on. -/
theorem accepted_begins {t : Trace} {action : String} (hmem : action ∈ actions)
    (haction : Object.text value "action" = some action) (r : Steps Host.Step .initial t h)
    (R : Represents h a) (hstep : h.Step ⟨S, .request value⟩ o h') :
    (∃ error, replyTo h.requests o = some (failure error)) ∨
      ∃ id g device, replyTo h.requests o = some (Host.accepted id) ∧
        Fate value id g device (t ++ [(⟨S, .request value⟩, o)]) h' := by
  obtain ⟨a', R', M⟩ := step_move R hstep
  simp only [Host.Step, Host.step] at hstep
  split at hstep
  · cases hstep
  rename_i hnew
  have hr := handle_replied (S := S) (h := { h with requests := h.requests + 1 }) (n := h.requests)
    hmem haction
  rw [Option.some.inj hstep] at hr
  cases hr with
  | refused hr =>
      cases hr
      exact .inl ⟨_, replyTo_cons _ _⟩
  | @accepted rest x hr ho =>
      refine .inr ?_
      dsimp only at hr ho
      -- The identifier is new, so the state before does not show it.
      have hold : ∀ {y}, h.outcome ≠ some (S.uuid, y) := fun hy => hnew (R.known _ hy)
      have hlast : ∀ {y : Event × List Effect}, y ∈ t ++ [y] := by simp
      cases M with
      | keep ho' | endScan ho' => exact absurd (ho'.symm.trans ho) hold
      | ends ha meets ho' hs =>
          rw [hr] at hs
          cases hs
      | request hc A =>
          cases hc
          cases A with
          | only ho' | scans ho' => exact absurd (ho'.symm.trans ho) hold
          | begins new ha wanted ho' _ reply =>
              cases ho'.symm.trans ho
              exact ⟨S.uuid, _, _, by rw [hr, replyTo_cons],
                .pending R' ha ⟨_, hlast, rfl, wanted, _, reply⟩⟩
          | instant new wanted meets ho' _ reply =>
              cases ho'.symm.trans ho
              refine ⟨S.uuid, _, _, by rw [hr, replyTo_cons], .complete
                ⟨t, _, o, [], h, h', rfl, r, ?_, fun _ => hold, ho', meets, _, hlast, rfl, wanted, _,
                  reply⟩ (Represents.settled R' ho')⟩
              simp only [Host.Step, Host.step, if_neg hnew, hstep]

/-- A listing that succeeds carries the operation that is shown. -/
theorem listed_shows (hl : h.listed S n = (o, h')) :
    ∃ answer, replyTo n o = some answer ∧
      (answer.lookup "ok" = some (.bool true) → answer.lookup "operation" =
        some (.obj ((h'.operation.map Operation.object).getD []))) := by
  rw [Host.listed] at hl
  cases hl
  exact ⟨_, replyTo_cons _ _, fun _ => rfl⟩

/-- The devices come with the operation that is shown, or the request fails. -/
theorem listing_shows (hstep : h.Step ⟨S, .request devices⟩ o h') :
    ∃ answer, replyTo h.requests o = some answer ∧
      (answer.lookup "ok" = some (.bool true) → answer.lookup "operation" =
        some (.obj ((h'.operation.map Operation.object).getD []))) := by
  have hfail : ∀ {error : String} {P : Prop}, (failure error).lookup "ok" = some (.bool true) → P := by
    intro error P hok
    cases hok
  simp only [Host.Step, Host.step] at hstep
  split at hstep
  · cases hstep
  rw [Host.handle] at hstep
  split at hstep
  · cases hstep
    exact ⟨_, replyTo_cons _ _, hfail⟩
  rw [if_neg (by decide)] at hstep
  dsimp only at hstep
  split at hstep
  · cases hstep
    exact ⟨_, replyTo_cons _ _, hfail⟩
  · have hl : (Host.prepareCentral S false { h with requests := h.requests + 1 }).listed S h.requests =
        (o, h') := Option.some.inj hstep
    exact listed_shows hl

end Answers

/-! ### What the client knows -/

/-- What is shown of the operation, as it was at some time. -/
def Reports (value : Object) (id : String) (g : Goal) (device : Nat) (t : Trace) (shown : Object) :
    Prop :=
  ∃ o : Operation, shown = o.object ∧ o.id = id ∧
    ∀ result, o.outcome = some result → Completed value id g device result t

/-- What the client knows of the operation that it asked for. -/
def Knows (value : Object) (t : Trace) (h : Host) : Client → Prop
  | .asked action address => action ∈ actions ∧ value = asking action address
  | .loop id _ _ | .listing id _ _ =>
      ∃ i g device, id = .str i ∧ Fate value i g device t h
  | .confirming id _ _ operation _ _ =>
      ∃ i g device, id = .str i ∧ Fate value i g device t h ∧ Reports value i g device t operation
  | .returned operation =>
      ∃ i g device result, Object.text operation "id" = some i ∧
        Completed value i g device result t ∧ result.success
  | .raised .superseded => ∃ i g device result, Completed value i g device result t
  | .raised (.failed r) =>
      ∃ i g device result, r = some (.int result.result) ∧ Completed value i g device result t ∧
        ¬ result.success
  | .raised _ => True

section Knows
variable {value : Object} {id : Json} {i : String} {g : Goal} {device deadline now : Nat}
  {displayed : Json} {t : Trace} {h h' : Host} {e : Event} {o : List Effect} {operation : Object}
  {c : Client} {hooks : Hooks}

theorem Reports.mono (r : Reports value i g device t operation) (w : Trace) :
    Reports value i g device (t ++ w) operation := by
  obtain ⟨o, hobj, hid, hdone⟩ := r
  exact ⟨o, hobj, hid, fun result hr => (hdone result hr).mono w⟩

/-- What the host does keeps what the client knows. -/
theorem Knows.step (k : Knows value t h c) (r : Steps Host.Step .initial t h)
    (hstep : h.Step e o h') : Knows value (t ++ [(e, o)]) h' c := by
  cases c with
  | asked action address => exact k
  | loop | listing =>
      obtain ⟨i, g, device, hid, f⟩ := k
      exact ⟨i, g, device, hid, f.step r hstep⟩
  | confirming =>
      obtain ⟨i, g, device, hid, f, reports⟩ := k
      exact ⟨i, g, device, hid, f.step r hstep, reports.mono _⟩
  | returned operation =>
      obtain ⟨i, g, device, result, htext, done, hs⟩ := k
      exact ⟨i, g, device, result, htext, done.mono _, hs⟩
  | raised why =>
      cases why with
      | superseded =>
          obtain ⟨i, g, device, result, done⟩ := k
          exact ⟨i, g, device, result, done.mono _⟩
      | failed q =>
          obtain ⟨i, g, device, result, hq, done, hs⟩ := k
          exact ⟨i, g, device, result, hq, done.mono _, hs⟩
      | _ => exact trivial

/-- An operation's object carries its identifier. -/
theorem object_id (o : Operation) : o.object.lookup "id" = some (.str o.id) := rfl

/-- A pending operation is shown as pending. -/
theorem object_pending {o : Operation} (ho : o.outcome = none) :
    o.object.lookup "state" = some (.str "pending") := by
  rw [Operation.object, ho]
  rfl

/-- A completed operation shows whether it succeeded. -/
theorem object_success {o : Operation} {result : Outcome} (ho : o.outcome = some result) :
    o.object.lookup "success" = some (.bool result.success) := by
  rw [Operation.object, ho]
  rfl

/-- A completed operation shows its result. -/
theorem object_result {o : Operation} {result : Outcome} (ho : o.outcome = some result) :
    o.object.lookup "result" = some (.int result.result) := by
  rw [Operation.object, ho]
  rfl

/-- A complete operation that is shown was completed. -/
theorem knows_judge (hid : id = .str i) (f : Fate value i g device t h)
    (reports : Reports value i g device t operation) :
    Knows value t h (Client.judge id deadline displayed operation) := by
  obtain ⟨o, rfl, hi, hdone⟩ := reports
  rw [Client.judge]
  split
  · rename_i hcomplete
    cases hout : o.outcome with
    | none =>
        rw [object_pending hout] at hcomplete
        exact absurd hcomplete (by decide)
    | some result =>
        have hd := hdone result hout
        rw [object_success hout, object_result hout]
        split
        · rename_i hsuccess
          refine ⟨i, g, device, result, ?_, hd, ?_⟩
          · rw [← hi]
            rfl
          · simpa using hsuccess
        · rename_i hfailed
          exact ⟨i, g, device, result, rfl, hd, fun hs => hfailed (by rw [hs])⟩
  · exact ⟨i, g, device, hid, f⟩

/-- A client that was shown an operation goes on from a report of it. -/
theorem knows_shown (hid : id = .str i) (f : Fate value i g device t h)
    (reports : Reports value i g device t operation) :
    Knows value t h (Client.shown hooks id deadline displayed operation) := by
  rw [Client.shown]
  split
  · exact knows_judge hid f reports
  split
  · exact knows_judge hid f reports
  split
  · exact trivial
  split
  · exact trivial
  · exact knows_judge hid f reports

/-- What is shown of the operation is so, if it is shown. -/
theorem Fate.reports {i : String} (f : Fate value i g device t h) {o : Operation}
    (ho : h.operation = some o) (hi : o.id = i) : Reports value i g device t o.object := by
  have hout : h.outcome = some (i, o.outcome) := by
    rw [Host.outcome, ho, ← hi]
    rfl
  refine ⟨o, rfl, hi, fun result hr => ?_⟩
  rw [hr] at hout
  cases f with
  | pending R ha => cases (R.pending (Activity.operationID_of ha)).symm.trans hout
  | complete c s =>
      cases s.told _ hout
      exact c

/-- If another operation is shown, or none, this one is complete. -/
theorem Fate.superseded {i : String} (f : Fate value i g device t h)
    (hother : ∀ o, h.operation = some o → o.id ≠ i) :
    ∃ result, Completed value i g device result t := by
  cases f with
  | complete c _ => exact ⟨_, c⟩
  | pending R ha =>
      have hp := R.pending (Activity.operationID_of ha)
      obtain ⟨o, ho, hi⟩ := Option.map_eq_some_iff.mp hp
      exact absurd (congrArg Prod.fst hi) (hother o ho)

/-- A client that polled the operation knows its fate. -/
theorem knows_polled (hid : id = .str i) (f : Fate value i g device t h) {state : Object}
    (hstate : state.lookup "operation" =
      some (.obj ((h.operation.map Operation.object).getD []))) :
    Knows value t h (Client.polled hooks id deadline displayed state) := by
  subst hid
  rw [Client.polled, hstate, Option.getD_some]
  dsimp only
  cases ho : h.operation with
  | none =>
      obtain ⟨result, done⟩ := f.superseded (by simp [ho])
      exact ⟨i, g, device, result, done⟩
  | some o =>
      rw [Option.map_some, Option.getD_some, object_id, Option.getD_some]
      split
      · rename_i hne
        obtain ⟨result, done⟩ := f.superseded (by simpa [ho] using hne)
        exact ⟨i, g, device, result, done⟩
      · rename_i heq
        have hi : o.id = i := by simpa using heq
        have reports := f.reports ho hi
        split
        · exact knows_shown rfl f reports
        split
        · exact trivial
        split
        · exact ⟨i, g, device, rfl, f, reports⟩
        · exact ⟨i, g, device, rfl, f, reports⟩

/-- A request that fails says nothing of the operation. -/
theorem knows_error {arrival : Arrival} {why : Failure} (he : request arrival = .error why) :
    Knows value t h (.raised why) := by
  cases arrival with
  | nothing | unframed =>
      cases he
      exact trivial
  | value v =>
      cases v with
      | obj reply =>
          simp only [request] at he
          split at he
          · cases he
          · cases he
            exact trivial
      | _ =>
          cases he
          exact trivial

/-- A request returns only the object of a reply that says it is fine. -/
theorem request_ok {arrival : Arrival} {reply : Object} (hr : request arrival = .ok reply) :
    arrival = .value (.obj reply) ∧ reply.lookup "ok" = some (.bool true) := by
  cases arrival with
  | nothing | unframed => cases hr
  | value v =>
      cases v with
      | obj reply' =>
          simp only [request] at hr
          split at hr
          · cases hr
            exact ⟨rfl, ‹_›⟩
          · cases hr
      | _ => cases hr

/-- A reply that is there is the one that the host gave. -/
theorem delivered {delivery : Delivery} {reply : Object} {answer : Option Object}
    (hr : request (delivery.arrival answer) = .ok reply) :
    answer = some reply ∧ reply.lookup "ok" = some (.bool true) := by
  obtain ⟨ha, hok⟩ := request_ok hr
  refine ⟨?_, hok⟩
  cases delivery with
  | whole =>
      cases answer with
      | none => cases ha
      | some answer =>
          cases ha
          rfl
  | unframed | nothing => cases ha

/-- What a request raises, `device_operation` raises. -/
theorem Client.receive_error {arrival : Arrival} {payload : Object} {why : Failure}
    (hp : c.payload = some payload) (he : request arrival = .error why) :
    c.receive hooks now arrival = .raised why := by
  cases c with
  | asked | listing | confirming => simp only [Client.receive, he]
  | _ => cases hp

/-- The request of the client and its reply. -/
theorem knows_exchange {S : Surroundings} {payload : Object} {delivery : Delivery}
    (k : Knows value t h c) (r : Steps Host.Step .initial t h) (hp : c.payload = some payload)
    (hstep : h.Step ⟨S, .request payload⟩ o h') :
    Knows value (t ++ [(⟨S, .request payload⟩, o)]) h'
      (c.receive hooks now (delivery.arrival (replyTo h.requests o))) := by
  have k' := k.step r hstep
  cases hr : request (delivery.arrival (replyTo h.requests o)) with
  | error why =>
      rw [Client.receive_error hp hr]
      exact knows_error hr
  | ok reply =>
      obtain ⟨hanswer, hok⟩ := delivered hr
      cases c with
      | asked action address =>
          cases hp
          obtain ⟨hmem, rfl⟩ := k
          obtain ⟨a, R⟩ := run_represents r ⟨.none, represents_initial⟩
          simp only [Client.receive, hr]
          obtain ⟨error, hfail⟩ | ⟨id, g, device, hacc, f⟩ := accepted_begins hmem rfl r R hstep
          · cases hfail.symm.trans hanswer
            cases hok
          · cases hacc.symm.trans hanswer
            exact ⟨id, g, device, rfl, f⟩
      | listing id deadline displayed =>
          cases hp
          obtain ⟨i, g, device, hid, f⟩ := k'
          obtain ⟨answer, ha, hshows⟩ := listing_shows hstep
          cases ha.symm.trans hanswer
          simp only [Client.receive, hr]
          exact knows_polled hid f (hshows hok)
      | confirming id deadline displayed operation accepted threw =>
          obtain ⟨i, g, device, hid, f, reports⟩ := k'
          simp only [Client.receive, hr]
          split
          · exact trivial
          · exact knows_shown hid f reports
      | _ => cases hp

end Knows

/-! ### The whole -/

/-- The host had this run, and the client knows what it may. -/
structure Known (value : Object) (s : System) (t : List (Act × Option (Event × List Effect))) :
    Prop where
  run : Steps Host.Step .initial (hosted t) s.host
  knows : Knows value (hosted t) s.host s.client

theorem hosted_append (t u : List (Act × Option (Event × List Effect))) :
    hosted (t ++ u) = hosted t ++ hosted u :=
  List.filterMap_append

/-- Each step keeps what the client knows true of the host's run. -/
theorem known_step {value : Object} {s s' : System} {t : List (Act × Option (Event × List Effect))}
    {x : Act} {o : Option (Event × List Effect)} (k : Known value s t) (hstep : s.Step x o s') :
    Known value s' (t ++ [(x, o)]) := by
  obtain ⟨r, k⟩ := k
  cases x with
  | host e =>
      simp only [System.Step, System.step, Option.map_eq_some_iff] at hstep
      obtain ⟨⟨effects, h'⟩, hhost, heq⟩ := hstep
      cases heq
      refine ⟨?_, ?_⟩ <;> rw [hosted_append]
      · exact r.append (.one hhost)
      · exact k.step r hhost
  | exchange S hooks now delivery =>
      simp only [System.Step, System.step, Option.bind_eq_some_iff, Option.map_eq_some_iff] at hstep
      obtain ⟨payload, hp, ⟨effects, h'⟩, hhost, heq⟩ := hstep
      cases heq
      refine ⟨?_, ?_⟩ <;> rw [hosted_append]
      · exact r.append (.one hhost)
      · exact knows_exchange k r hp hhost
  | fails hooks now delivery =>
      simp only [System.Step, System.step, Option.map_eq_some_iff] at hstep
      obtain ⟨payload, hp, heq⟩ := hstep
      cases heq
      refine ⟨?_, ?_⟩ <;> rw [hosted_append, show hosted [_] = [] from rfl, List.append_nil]
      · exact r
      cases hr : request (delivery.arrival none) with
      | error why =>
          rw [Client.receive_error hp hr]
          exact knows_error hr
      | ok reply => cases (delivered hr).1
  | wake now =>
      simp only [System.Step, System.step, Option.map_eq_some_iff] at hstep
      obtain ⟨c, hw, heq⟩ := hstep
      cases heq
      refine ⟨?_, ?_⟩ <;> rw [hosted_append, show hosted [_] = [] from rfl, List.append_nil]
      · exact r
      cases hc : s.client with
      | loop id deadline displayed =>
          rw [hc] at hw k
          cases hw
          split
          · exact k
          · exact trivial
      | _ =>
          rw [hc] at hw
          cases hw

/-- At the start the client knows what it is to ask for. -/
theorem known_start (action address : String) :
    Known (asking action address) (.start action address) [] where
  run := .refl _
  knows := by
    rw [System.start, Client.start]
    split
    · exact ⟨‹_›, rfl⟩
    · exact trivial

/-- **The client tells what happened.**  Whatever else happens at the host, whoever asks it, and
whatever gets lost: if `device_operation` returns, the host had accepted its request as that operation
and completed it, with success, when the device at the address was paired, connected or not connected
as asked.  If it raises that the operation failed, the host had completed it without success; and that
it was superseded, only after it was complete. -/
theorem device_operation_tells {action address : String}
    {t : List (Act × Option (Event × List Effect))} {s : System}
    (r : Steps System.Step (.start action address) t s) :
    (∀ operation, s.client = .returned operation → ∃ id g device result,
      Object.text operation "id" = some id ∧
        Completed (asking action address) id g device result (hosted t) ∧ result.success) ∧
    (∀ q, s.client = .raised (.failed q) → ∃ id g device result, q = some (.int result.result) ∧
        Completed (asking action address) id g device result (hosted t) ∧ ¬ result.success) ∧
    (s.client = .raised .superseded → ∃ id g device result,
      Completed (asking action address) id g device result (hosted t)) := by
  obtain ⟨-, k⟩ := r.invariant_trace (I := Known (asking action address)) known_step
    (known_start action address)
  rw [List.nil_append] at k
  refine ⟨fun operation hc => ?_, fun q hc => ?_, fun hc => ?_⟩ <;> rw [hc] at k <;> exact k

/-- The keyboard when it is paired, and then connected. -/
def sampleKeyboard (connected : Bool) (uuid : String) : Surroundings :=
  { sampleWorld with
    device := fun _ => ⟨some "aa-bb-cc-dd-ee-ff", "Keyboard", 0x540, true, connected, []⟩
    uuid := uuid }

/-- A connection that is asked for, opens, and is found complete by the first poll. -/
def sampleActs : List Act :=
  [.host ⟨sampleKeyboard false "one", .prepareCentral false⟩,
    .exchange (sampleKeyboard false "one") ⟨none, none⟩ 0 .whole,
    .host ⟨sampleKeyboard true "one", .connectionReturns 0⟩,
    .host ⟨sampleKeyboard true "one", .block 1⟩, .wake 500,
    .exchange (sampleKeyboard true "two") ⟨none, none⟩ 500 .whole]

def sampleConnect : System := .start "bluetooth-connect" "AA:BB:CC:DD:EE:FF"

/-- The sample client returns with the operation that it asked for. -/
theorem sampleActs_returned : (play System.step sampleConnect sampleActs).map (fun r => r.2.client) =
    some (.returned (Operation.complete "one" ⟨true, 0, true, true⟩).object) := by
  decide +kernel

/-- In the sample the device was connected before the client was told so. -/
theorem device_operation_tells_sample : ∃ t id g device result, id = "one" ∧
    Completed (asking "bluetooth-connect" "AA:BB:CC:DD:EE:FF") id g device result (hosted t) ∧
      result.success := by
  obtain ⟨⟨t, s⟩, hplay, hclient⟩ := Option.map_eq_some_iff.mp sampleActs_returned
  obtain ⟨id, g, device, result, htext, done, hs⟩ :=
    (device_operation_tells (Steps.of_play hplay)).1 _ hclient
  exact ⟨t, id, g, device, result, (Option.some.inj htext).symm, done, hs⟩

end Ashacky.Devices.Management
