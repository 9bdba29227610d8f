import Ashacky.Hid.Invariant
import Ashacky.Support.Base64
import Ashacky.Control.Json

/-!
# Hid — the relay to the host

The classes `Device` and `Relay` of `guest/auth/fido2.py`: UHID events become calls of the transport,
and what the transport asks of the host becomes RPCs, each over a connection of its own to the control
endpoint.  At most eight connections are open; a connection stays until the host answers or closes it,
it fails, or 70 seconds have passed, also when its request has been aborted.

`rpc` hands a message to the endpoint, unless eight connections are open: then it calls the completion
at once, which answers a request with an error, and does nothing for a cancel.

* `hex8_digits`: the channel is written as eight hexadecimal digits.
* `HID.ended_cancels`: a call that ends the request other than by completing it cancels it, once.
* `HID.request_length`: the transport hands over 1 to 1024 bytes.
* `Relay.perform_cancel`: the cancel is handed to the endpoint exactly when a connection is free.
* `aborted_cancelled_iff`: so it is, over every run.
* `aborted_not_cancelled`: a run in which a cancel is dropped.
-/

namespace Ashacky.Hid
open Ashacky.Support Ashacky.Control

/-! ### The device -/

/-- What a UHID event makes the relay do. -/
inductive Uhid where
  | call (e : Event)
  | write (event : Data)
  | nothing

/-- `Device.receive`, after the event was read.  95 is `EOPNOTSUPP`. -/
def Device.receive (event : Data) (r : Readings) : Uhid :=
  let event := padRight 4380 event
  let kind := leNat (slice event 0 4)
  if kind = 6 then
    let length := leNat (slice event 4100 4102)
    if event.getD 4102 0 = 1 then
      if length = 64 then .call (.receive (slice event 4 68) r)
      else if length = 65 ∧ event.getD 4 0 = 0 then .call (.receive (slice event 5 69) r)
      else .nothing
    else .nothing
  else if kind = 3 ∨ kind = 5 then .call .abort
  else if kind = 9 then
    .write (leBytes 4 10 ++ leBytes 4 (leNat (slice event 4 8)) ++ leBytes 2 95 ++ leBytes 2 0)
  else if kind = 13 then
    .write (leBytes 4 14 ++ leBytes 4 (leNat (slice event 4 8)) ++ leBytes 2 95)
  else .nothing

/-! ### Messages -/

/-- The value of an RPC. -/
inductive Rpc where
  | request (id : String) (channel : UInt32) (payload : Data)
  | cancel (id : String)
  deriving DecidableEq

/-- `f'{channel:08x}'`. -/
def hex8 (channel : UInt32) : String :=
  let digits := Nat.toDigits 16 channel.toNat
  String.ofList (List.replicate (8 - digits.length) '0' ++ digits)

/-- A digit of `hex8`. -/
def isHex (c : Char) : Prop := 48 ≤ c.toNat ∧ c.toNat ≤ 57 ∨ 97 ≤ c.toNat ∧ c.toNat ≤ 102

theorem isHex_digitChar : ∀ d < 16, isHex (Nat.digitChar d) := by
  unfold isHex
  decide

theorem isHex_toDigits {n : Nat} {c : Char} (h : c ∈ Nat.toDigits 16 n) : isHex c := by
  induction n using Nat.strongRecOn with
  | ind n ih =>
      rw [Nat.toDigits_eq_if (by decide)] at h
      split at h
      · next hlt =>
          obtain rfl := List.mem_singleton.mp h
          exact isHex_digitChar n hlt
      · next hge =>
          rcases List.mem_append.mp h with h | h
          · exact ih _ (Nat.div_lt_self (by omega) (by decide)) h
          · obtain rfl := List.mem_singleton.mp h
            exact isHex_digitChar _ (Nat.mod_lt _ (by decide))

/-- **The channel of a message**: eight hexadecimal digits. -/
theorem hex8_digits (channel : UInt32) :
    ∃ l, hex8 channel = String.ofList l ∧ l.length = 8 ∧ ∀ c ∈ l, isHex c := by
  have hlength : (Nat.toDigits 16 channel.toNat).length ≤ 8 :=
    (Nat.length_toDigits_le_iff (by decide) (by decide)).mpr channel.toNat_lt
  refine ⟨_, rfl, ?_, fun c hc => ?_⟩
  · rw [List.length_append, List.length_replicate, Nat.sub_add_cancel hlength]
  · rcases List.mem_append.mp hc with hc | hc
    · obtain rfl := List.eq_of_mem_replicate hc
      exact isHex_digitChar 0 (by decide)
    · exact isHex_toDigits hc

def Rpc.value : Rpc → Object
  | .request id channel payload =>
      [("action", .str "request"), ("id", .str id), ("channel", .str (hex8 channel)),
        ("data", .str (String.ofList (Base64.encode payload)))]
  | .cancel id => [("action", .str "cancel"), ("id", .str id)]

/-- What the relay takes from Python's library. -/
structure Library where
  /-- `json.dumps(value, separators=(',', ':')).encode()`, of an object of strings. -/
  dumps : Object → Data
  /-- `json.loads`. -/
  loads : Data → Except Raised Json
  /-- `base64.b64decode(text, validate=True)`, if it does not raise. -/
  b64decode : String → Option Data

/-- The body of `complete` in `Relay.request`: what the transport is given. -/
def Library.reply (L : Library) : Option Json → Data
  | some (.obj result) =>
      if result.lookup "ok" = some (.bool true) then
        match result.lookup "data" with
        | some (.str data) => (L.b64decode data).getD [0x7f]
        | _ => [0x7f]
      else [0x7f]
  | _ => [0x7f]

/-! ### The relay -/

/-- `self.clients[client]`, with the number of the socket.  The completion is that of a request, or
does nothing. -/
structure Client where
  socket : Nat
  completion : Option String
  output : Data
  input : Data
  deadline : Nat
  deriving DecidableEq

structure Relay where
  hid : HID
  clients : List Client
  /-- The number of sockets so far. -/
  sockets : Nat
  deriving DecidableEq

/-- What a handler does to the outside: a report or another event for the device, and a connection to
the endpoint with a message. -/
inductive Deed where
  | emit (packet : Data)
  | write (event : Data)
  | connect (message : Rpc)
  deriving DecidableEq

def Effect.report : Effect → Option Deed
  | .emit packet => some (.emit packet)
  | _ => none

/-- What `rpc` reads from outside: whether `connect_ex` succeeds, and the clock. -/
structure Endpoint where
  connects : Bool
  now : Nat
  deriving DecidableEq

namespace Relay

/-- `Relay.__init__`. -/
def new : Relay := ⟨.new, [], 0⟩

variable (L : Library)

/-- `completion(result)`. -/
def completed (self : Relay) (completion : Option String) (result : Option Json) :
    Option (Relay × List Deed) :=
  match completion with
  | none => some (self, [])
  | some id =>
      match self.hid.complete id (L.reply result) with
      | .ok (hid, out) => some ({ self with hid }, out.filterMap Effect.report)
      | .error _ => none

/-- `Relay.rpc`. -/
def rpc (self : Relay) (message : Rpc) (completion : Option String) (p : Endpoint) :
    Option (Relay × List Deed) :=
  if self.clients.length ≥ 8 then self.completed L completion none
  else if p.connects then
    some ({ self with
      clients := self.clients ++
        [⟨self.sockets, completion, L.dumps message.value ++ [10], [], p.now + 70000⟩]
      sockets := self.sockets + 1 }, [.connect message])
  else self.completed L completion none

/-- What the transport asks for, in turn: `device.emit`, `Relay.request` and `Relay.cancel`. -/
def perform (self : Relay) (p : Endpoint) : List Effect → Option (Relay × List Deed)
  | [] => some (self, [])
  | .emit packet :: rest => do
      let (self, out) ← self.perform p rest
      return (self, .emit packet :: out)
  | .request id cid payload :: rest => do
      let (self, out) ← self.rpc L (.request id cid payload) (some id) p
      let (self, out') ← self.perform p rest
      return (self, out ++ out')
  | .cancel id :: rest => do
      let (self, out) ← self.rpc L (.cancel id) none p
      let (self, out') ← self.perform p rest
      return (self, out ++ out')

/-- A call of the transport, with what it asks for. -/
def call (self : Relay) (e : Event) (p : Endpoint) : Option (Relay × List Deed) :=
  match self.hid.call e with
  | .ok (hid, effects) => { self with hid }.perform L p effects
  | .error _ => none

/-- `Relay.finish`. -/
def finish (self : Relay) (client : Client) (result : Option Json) : Option (Relay × List Deed) :=
  { self with clients := self.clients.filter (·.socket ≠ client.socket) }.completed L
    client.completion result

/-- The record of a socket, changed. -/
def withClient (self : Relay) (socket : Nat) (f : Client → Client) : Relay :=
  { self with clients := self.clients.map fun c => if c.socket = socket then f c else c }

/-- The handler of a readable connection, with what `recv` returned. -/
def read (self : Relay) (client : Client) (data : Data) : Option (Relay × List Deed) :=
  if data = [] then self.finish L client none
  else if (client.input ++ data).length > 16384 then self.finish L client none
  else if 10 ∈ client.input ++ data then
    match L.loads (client.input ++ data) with
    | .ok result => self.finish L client (some result)
    | .error .caught => self.finish L client none
    | .error .uncaught => none
  else some (self.withClient client.socket fun c => { c with input := c.input ++ data }, [])

/-- The connections whose deadline has passed, one after the other. -/
def expire (self : Relay) : List Client → Option (Relay × List Deed)
  | [] => some (self, [])
  | client :: rest => do
      let (self, out) ← self.finish L client none
      let (self, out') ← self.expire rest
      return (self, out ++ out')

/-- What happens to the relay, in the order that `step` finds it: the device is readable, a connection
is writable (and takes `count` bytes), readable or broken, and the timers at the end. -/
inductive Ready where
  | device (event : Data) (r : Readings) (p : Endpoint)
  | writable (socket count : Nat)
  | readable (socket : Nat) (data : Data)
  | failed (socket : Nat)
  | timeout (now : Nat) (p : Endpoint)
  | expire (now : Nat)

/-- One handler of `Relay.step`, if it can run and returns.  A device that has closed raises. -/
def handle (self : Relay) : Ready → Option (List Deed × Relay)
  | .device event r p =>
      if event.length < 4 then none
      else
        match Device.receive event r with
        | .call e => (self.call L e p).map Prod.swap
        | .write event => some ([.write event], self)
        | .nothing => some ([], self)
  | .writable socket count =>
      match self.clients.find? (·.socket = socket) with
      | none => none
      | some client =>
          if client.output = [] then none
          else some ([], self.withClient socket fun c => { c with output := c.output.drop count })
  | .readable socket data =>
      match self.clients.find? (·.socket = socket) with
      | none => none
      | some client => if client.output = [] then (self.read L client data).map Prod.swap else none
  | .failed socket =>
      match self.clients.find? (·.socket = socket) with
      | none => none
      | some client => (self.finish L client none).map Prod.swap
  | .timeout now p => (self.call L (.timeout now) p).map Prod.swap
  | .expire now => (self.expire L (self.clients.filter (now ≥ ·.deadline))).map Prod.swap

def Step (s : Relay) (e : Ready) (out : List Deed) (s' : Relay) : Prop :=
  s.handle L e = some (out, s')

end Relay

/-! ### Ending a request -/

/-- The effects are reports. -/
def Reports (out : List Effect) : Prop := ∀ e ∈ out, ∃ packet, e = .emit packet

theorem reports_emits (cid : UInt32) (cmd : UInt8) (payload : Data) :
    Reports (emits cid cmd payload) := by
  intro e he
  obtain ⟨packet, -, rfl⟩ := List.mem_map.mp he
  exact ⟨packet, rfl⟩

namespace HID

variable {s s' : HID} {out : List Effect} {b : Busy}

theorem timeoutFragment_reports {now : Nat} (h : s.timeoutFragment now = .ok (s', out)) :
    s'.busy = s.busy ∧ Reports out := by
  rw [timeoutFragment] at h
  split at h
  · split at h
    · rw [refuse_eq] at h
      cases h
      exact ⟨rfl, reports_emits _ _ _⟩
    · cases h
      exact ⟨rfl, nofun⟩
  · cases h
    exact ⟨rfl, nofun⟩

/-- What a call does to the request that the host works on, unless it completes it: it goes on, or it
ends and is cancelled. -/
theorem ended_cancels {e : Event} (hs : s.Step e out s') (he : ∀ id payload, e ≠ .complete id payload)
    (hb : s.busy = some b) :
    (s'.busy ≠ none ∧ Reports out) ∨
      ∃ before after, out = before ++ .cancel b.requestId :: after ∧ Reports before ∧
        Reports after := by
  have hstill : ∀ {m : HID}, m.busy = s.busy → m.busy ≠ none := by
    intro m hm
    simp [hm, hb]
  cases e with
  | receive packet r =>
      cases receive_cases hs with
      | ignored | idle => exact .inl ⟨hstill rfl, nofun⟩
      | refused | allocated | resynced | confirmed | turnedAway =>
          exact .inl ⟨hstill rfl, reports_emits _ _ _⟩
      | aborted _ hbusy _ | cancelled _ hbusy _ =>
          obtain rfl := Option.some.inj (hb.symm.trans hbusy)
          exact .inr ⟨[], _, rfl, nofun, reports_emits _ _ _⟩
      | dropped _ hbusy | gathered _ hbusy => exact nomatch hb.symm.trans hbusy
  | complete id payload => exact absurd rfl (he id payload)
  | timeout now =>
      obtain ⟨s₁, out₁, out₂, h₁, h₂, rfl⟩ := timeout_cases hs
      obtain ⟨hbusy, hreports⟩ := timeoutFragment_reports h₁
      rw [timeoutBusy, hbusy, hb] at h₂
      simp only [send_byte, Except.map] at h₂
      split at h₂
      · cases h₂
        exact .inr ⟨out₁, _, rfl, hreports, reports_emits _ _ _⟩
      · split at h₂
        · cases h₂
          refine .inl ⟨nofun, ?_⟩
          rintro e he
          rcases List.mem_append.mp he with he | he
          · exact hreports e he
          · exact reports_emits _ _ _ e he
        · cases h₂
          rw [List.append_nil]
          exact .inl ⟨hstill hbusy, hreports⟩
  | abort =>
      simp only [Step, call, abort, hb, Bool.false_eq_true, if_false] at hs
      cases hs
      exact .inr ⟨[], [], rfl, nofun, nofun⟩

/-! ### Requests -/

variable {id : String} {cid : UInt32} {payload : Data}

theorem not_request_reports (h : Reports out) : .request id cid payload ∉ out := by
  intro hmem
  obtain ⟨packet, heq⟩ := h _ hmem
  cases heq

theorem dispatch_request {part : Fragment} {r : Readings} {c : UInt32}
    (hmax : part.length ≤ maxMessage) (h : s.dispatch c part r = .ok (s', out))
    (hmem : .request id cid payload ∈ out) : 1 ≤ payload.length ∧ payload.length ≤ maxMessage := by
  unfold HID.dispatch at h
  split at h
  · next hfull =>
      split at h
      · rw [send_eq (by omega)] at h
        cases h
        exact absurd hmem (not_request_reports (reports_emits _ _ _))
      split at h
      · rw [refuse_eq] at h
        cases h
        exact absurd hmem (not_request_reports (reports_emits _ _ _))
      · next hne =>
          cases h
          obtain ⟨-, -, rfl⟩ := Effect.request.inj (List.mem_singleton.mp hmem)
          exact ⟨List.length_pos_iff.mpr hne, hfull ▸ hmax⟩
  · cases h
    cases hmem

theorem complete_reports {requestId : String} (h : s.complete requestId payload = .ok (s', out)) :
    Reports out := by
  rw [complete] at h
  split at h
  · split at h
    · have hlength : (if 1 ≤ payload.length ∧ payload.length ≤ maxMessage then payload
          else [0x7f]).length ≤ maxMessage := by
        split
        · next hp => exact hp.2
        · decide
      rw [send_eq hlength] at h
      cases h
      exact reports_emits _ _ _
    · cases h
      nofun
  · cases h
    nofun

theorem timeoutBusy_effects {now : Nat} (h : s.timeoutBusy now = .ok (s', out)) :
    Reports out ∨ ∃ requestId after, out = .cancel requestId :: after ∧ Reports after := by
  rw [timeoutBusy] at h
  split at h
  · simp only [send_byte, Except.map] at h
    split at h
    · cases h
      exact .inr ⟨_, _, rfl, reports_emits _ _ _⟩
    · split at h
      · cases h
        exact .inl (reports_emits _ _ _)
      · cases h
        exact .inl nofun
  · cases h
    exact .inl nofun

/-- **The transport hands over 1 to 1024 bytes.** -/
theorem request_length {e : Event} (hs : s.Invariant) (h : s.Step e out s')
    (hmem : .request id cid payload ∈ out) : 1 ≤ payload.length ∧ payload.length ≤ maxMessage := by
  cases e with
  | receive packet r =>
      cases receive_cases h with
      | ignored | idle => cases hmem
      | refused | allocated | resynced | confirmed | turnedAway | dropped =>
          exact absurd hmem (not_request_reports (reports_emits _ _ _))
      | aborted | cancelled =>
          exact absurd ((List.mem_cons.mp hmem).resolve_left (by rintro ⟨⟩))
            (not_request_reports (reports_emits _ _ _))
      | gathered _ _ hpart hdisp =>
          -- only a complete fragment is handed over
          by_cases hlen : packet.length = 64
          · exact dispatch_request (gathers_lengths hs hlen hpart).2.1 hdisp hmem
          · simp only [Step, call, receive, ne_eq, hlen, not_false_eq_true, if_true] at h
            cases h
            cases hmem
  | complete requestId payload => exact absurd hmem (not_request_reports (complete_reports h))
  | timeout now =>
      obtain ⟨s₁, out₁, out₂, h₁, h₂, rfl⟩ := timeout_cases h
      rcases List.mem_append.mp hmem with hmem | hmem
      · exact absurd hmem (not_request_reports (timeoutFragment_reports h₁).2)
      · rcases timeoutBusy_effects h₂ with hreports | ⟨_, _, rfl, hreports⟩
        · exact absurd hmem (not_request_reports hreports)
        · exact absurd ((List.mem_cons.mp hmem).resolve_left (by rintro ⟨⟩)) (not_request_reports hreports)
  | abort =>
      simp only [Step, call, abort, Bool.false_eq_true, if_false] at h
      split at h
      · cases h
        cases hmem
      · cases h
        cases List.mem_singleton.mp hmem

end HID

namespace Relay

variable {L : Library} {s s' : Relay} {e : Ready} {out : List Deed} {b : Busy}

theorem perform_reports {effects : List Effect} (h : Reports effects) (rest : List Effect)
    (self : Relay) (p : Endpoint) :
    self.perform L p (effects ++ rest) =
      (self.perform L p rest).map fun x => (x.1, effects.filterMap Effect.report ++ x.2) := by
  induction effects with
  | nil => simp
  | cons e effects ih =>
      obtain ⟨packet, rfl⟩ := h e List.mem_cons_self
      rw [List.cons_append, perform, ih fun e he => h e (List.mem_cons_of_mem _ he)]
      cases self.perform L p rest <;> rfl

/-- A message is handed to the endpoint: a new connection has it as its output. -/
def Handed (L : Library) (s : Relay) (message : Rpc) (out : List Deed) (s' : Relay) : Prop :=
  .connect message ∈ out ∧
    ∃ client ∈ s'.clients, client.socket = s.sockets ∧ client.output = L.dumps message.value ++ [10]

theorem not_connect_reports {effects : List Effect} {message : Rpc} :
    Deed.connect message ∉ effects.filterMap Effect.report := by
  rw [List.mem_filterMap]
  rintro ⟨e, -, he⟩
  cases e <;> cases he

/-- **A cancel, among reports**, is handed to the endpoint when a connection is free. -/
theorem perform_cancel {before after : List Effect} (hbefore : Reports before)
    (hafter : Reports after) {id : String} {p : Endpoint} (hp : p.connects = true)
    (h : s.perform L p (before ++ .cancel id :: after) = some (s', out)) :
    s'.hid = s.hid ∧ (Handed L s (.cancel id) out s' ↔ s.clients.length < 8) := by
  have hnil : ∀ self : Relay, self.perform L p after =
      some (self, after.filterMap Effect.report) := by
    intro self
    rw [← List.append_nil after, perform_reports hafter, perform, Option.map_some, List.append_nil,
      List.append_nil]
  rw [perform_reports hbefore, perform, rpc, hp] at h
  by_cases hfull : s.clients.length ≥ 8
  · -- the completion of a cancel does nothing
    rw [if_pos hfull, completed] at h
    simp only [Option.bind_eq_bind, Option.bind_some, hnil, Option.map_some, Option.some.injEq,
      Prod.mk.injEq, Option.pure_def] at h
    obtain ⟨rfl, rfl⟩ := h
    refine ⟨rfl, ?_, fun hlt => absurd hfull (Nat.not_le.mpr hlt)⟩
    rintro ⟨hconnect, -⟩
    rw [List.nil_append, ← List.filterMap_append] at hconnect
    exact absurd hconnect not_connect_reports
  · rw [if_neg hfull] at h
    simp only [if_true, Option.bind_eq_bind, Option.bind_some, hnil, Option.map_some,
      Option.some.injEq, Prod.mk.injEq, Option.pure_def] at h
    obtain ⟨rfl, rfl⟩ := h
    refine ⟨rfl, fun _ => Nat.not_le.mp hfull, fun _ => ⟨by simp, ?_⟩⟩
    exact ⟨_, List.mem_append_right _ List.mem_cons_self, rfl, rfl⟩

/-- The endpoint that a handler may connect to for the transport. -/
def Ready.endpoint : Ready → Option Endpoint
  | .device _ _ p => some p
  | .timeout _ p => some p
  | _ => none

/-- The request that the host works on is ended by a packet, by the device or by its deadline, while
its own connection is open; connections succeed. -/
structure Aborts (s : Relay) (e : Ready) (s' : Relay) (b : Busy) : Prop where
  busy : s.hid.busy = some b
  attended : ∃ client ∈ s.clients, client.completion = some b.requestId
  ended : s'.hid.busy = none
  connects : ∃ p, e.endpoint = some p ∧ p.connects = true

theorem device_call {event : Data} {r : Readings} {e : Event}
    (h : Device.receive event r = .call e) (id : String) (payload : Data) :
    e ≠ .complete id payload := by
  rintro rfl
  simp only [Device.receive] at h
  repeat' split at h
  all_goals cases h

/-- A call of the transport that ends the request. -/
theorem call_handed {e : Event} {p : Endpoint} (h : s.call L e p = some (s', out))
    (he : ∀ id payload, e ≠ .complete id payload) (hp : p.connects = true)
    (hb : s.hid.busy = some b) (hend : s'.hid.busy = none) :
    Handed L s (.cancel b.requestId) out s' ↔ s.clients.length < 8 := by
  rw [call] at h
  cases hcall : s.hid.call e with
  | error f =>
      rw [hcall] at h
      cases h
  | ok r =>
      obtain ⟨hid, effects⟩ := r
      rw [hcall] at h
      rcases HID.ended_cancels hcall he hb with ⟨hbusy, hreports⟩ |
        ⟨before, after, rfl, hbefore, hafter⟩
      · -- reports leave the transport as it is, busy
        dsimp only at h
        rw [← List.append_nil effects, perform_reports hreports, perform] at h
        cases h
        exact absurd hend hbusy
      · exact (perform_cancel hbefore hafter hp h).2

/-- **One handler**: a request that it ends is cancelled when a connection is free. -/
theorem step_handed (hs : Step L s e out s') (h : Aborts s e s' b) :
    Handed L s (.cancel b.requestId) out s' ↔ s.clients.length < 8 := by
  obtain ⟨hb, -, hend, p, hp, hconnects⟩ := h
  have hbusy : s'.hid ≠ s.hid := by
    intro heq
    rw [heq, hb] at hend
    cases hend
  cases e with
  | device event r q =>
      cases hp
      obtain ⟨-, hs⟩ := Option.ite_none_left_eq_some.mp hs
      split at hs
      · next e hdevice =>
          obtain ⟨⟨_, _⟩, hcall, heq⟩ := Option.map_eq_some_iff.mp hs
          cases heq
          exact call_handed hcall (device_call hdevice) hconnects hb hend
      · cases hs
        exact absurd rfl hbusy
      · cases hs
        exact absurd rfl hbusy
  | timeout now q =>
      cases hp
      obtain ⟨⟨_, _⟩, hcall, heq⟩ := Option.map_eq_some_iff.mp hs
      cases heq
      exact call_handed hcall nofun hconnects hb hend
  | writable | readable | failed | expire => cases hp

/-- A request that the handler ends is cancelled on the host. -/
def Cancels (L : Library) (s : Relay) (e : Ready) (out : List Deed) (s' : Relay) : Prop :=
  ∀ b, Aborts s e s' b → Handed L s (.cancel b.requestId) out s'

/-- Fewer than eight connections are open when the handler ends a request. -/
def Room (s : Relay) (e : Ready) (s' : Relay) : Prop := ∀ b, Aborts s e s' b → s.clients.length < 8

end Relay

/-- **Every aborted request is cancelled on the host**, in a run of the relay, exactly if every abort
in the run finds fewer than eight connections open. -/
theorem aborted_cancelled_iff (L : Library) (t : List (Relay.Ready × List Deed)) (s : Relay) :
    Steps (fun s e out s' => Relay.Step L s e out s' ∧ Relay.Cancels L s e out s') .new t s ↔
      Steps (fun s e out s' => Relay.Step L s e out s' ∧ Relay.Room s e s') .new t s := by
  constructor
  · refine fun h => h.mono ?_
    rintro m e out m' ⟨hs, hcancels⟩
    exact ⟨hs, fun b hb => (Relay.step_handed hs hb).mp (hcancels b hb)⟩
  · refine fun h => h.mono ?_
    rintro m e out m' ⟨hs, hroom⟩
    exact ⟨hs, fun b hb => (Relay.step_handed hs hb).mpr (hroom b hb)⟩

namespace Sample

/-- The bytes of an ASCII text. -/
def ascii (text : String) : Data := text.toList.map fun c => UInt8.ofNat c.toNat

/-- The library, on strings that need no escapes and on the host's plain answer. -/
def library : Library where
  dumps value := ascii ("\x7b" ++ ",".intercalate (value.map fun e =>
    "\"" ++ e.1 ++ "\":\"" ++ e.2.string.getD "" ++ "\"") ++ "\x7d")
  loads text :=
    if text = ascii "\x7b\"ok\":true\x7d\n" then .ok (.obj [("ok", .bool true)])
    else .error .caught
  b64decode text := Base64.decode text.toList

/-- `UHID_OUTPUT` with a packet. -/
def output (packet : Data) (uuid : String) : Relay.Ready :=
  .device (padRight 4380 (leBytes 4 6 ++ padRight 4096 packet ++ leBytes 2 64 ++ [1]))
    ⟨[7], uuid, 0, 0, 0⟩ ⟨true, 0⟩

/-- `authenticatorGetInfo`, under the given identifier. -/
def ask (uuid : String) : Relay.Ready := output (initPacket 7 Cmd.cbor [4]) uuid

def cancel : Relay.Ready := output (initPacket 7 Cmd.cancel []) ""

/-- Four requests are cancelled while the host is slow.  It takes the first cancel and answers it, and
a fifth request follows. -/
def impatient : List Relay.Ready :=
  [output (initPacket broadcast Cmd.init [1, 2, 3, 4, 5, 6, 7, 8]) "",
    ask "5f0c8f6e-0001-4c57-9d53-1f2a3b4c5d6e", cancel,
    ask "5f0c8f6e-0002-4c57-9d53-1f2a3b4c5d6e", cancel,
    ask "5f0c8f6e-0003-4c57-9d53-1f2a3b4c5d6e", cancel,
    ask "5f0c8f6e-0004-4c57-9d53-1f2a3b4c5d6e", cancel,
    .writable 1 80, .readable 1 (ascii "\x7b\"ok\":true\x7d\n"),
    ask "5f0c8f6e-0005-4c57-9d53-1f2a3b4c5d6e"]

/-- The last request is waiting, and its cancel finds eight connections. -/
theorem crowded :
    (play (Relay.handle library) .new impatient).bind (fun x =>
      (x.2.handle library cancel).map fun y =>
        (x.2.clients.length, x.2.hid.busy.map Busy.requestId, x.2.clients.getLast?.map Client.completion,
          y.2.hid.busy)) =
      some (8, some "5f0c8f6e-0005-4c57-9d53-1f2a3b4c5d6e",
        some (some "5f0c8f6e-0005-4c57-9d53-1f2a3b4c5d6e"), none) := by
  decide +kernel

end Sample

/-- **A cancel is dropped** when eight connections are open. -/
theorem aborted_not_cancelled :
    ¬ ∀ (L : Library) (t : List (Relay.Ready × List Deed)) (s : Relay),
      Steps (Relay.Step L) .new t s →
        Steps (fun s e out s' => Relay.Step L s e out s' ∧ Relay.Cancels L s e out s') .new t s := by
  intro hall
  obtain ⟨⟨t, m⟩, hplay, hlast⟩ := Option.bind_eq_some_iff.mp Sample.crowded
  obtain ⟨⟨out, m'⟩, hstep, heq⟩ := Option.map_eq_some_iff.mp hlast
  simp only [Prod.mk.injEq] at heq
  obtain ⟨hlength, hbusy, hlast, hended⟩ := heq
  obtain ⟨b, hb, hid⟩ := Option.map_eq_some_iff.mp hbusy
  obtain ⟨client, hclient, hcompletion⟩ := Option.map_eq_some_iff.mp hlast
  have haborts : Relay.Aborts m Sample.cancel m' b :=
    ⟨hb, ⟨client, List.mem_of_getLast? hclient, hid ▸ hcompletion⟩, hended, _, rfl, rfl⟩
  have hrun := hall Sample.library (t ++ [(Sample.cancel, out)]) m'
    ((Steps.of_play hplay).append (.one hstep))
  obtain ⟨m₁, m₂, h₁, ⟨hstep₂, hcancels⟩, -⟩ := hrun.split_at
  -- the run is the one that was played
  have hplay₁ := (h₁.mono fun h => h.1).play_eq
  rw [play_events hplay, hplay] at hplay₁
  cases hplay₁
  obtain rfl := (Prod.mk.inj (Option.some.inj (hstep.symm.trans hstep₂))).2
  have hlt := (Relay.step_handed hstep haborts).mp (hcancels b haborts)
  exact hlt.ne hlength

end Ashacky.Hid
