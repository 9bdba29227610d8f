import Ashacky.Support.Machine
import Ashacky.Control.Channel

/-!
# Control — the two ends and the port between them

The broker and the channel with the bytes under way in both directions.  A step is one event at one
end, in any order:

* at the guest, a client connects, sends data, leaves or takes its output, a deadline passes, the
  port takes or yields any number of bytes, the process ends, or a new broker starts;
* at the host, any number of bytes arrive, a write or a handler completes, a write times out, or
  the frontend closes the channel.

Bytes arrive in order.  A broker that ends leaves what it has written of a frame on its way; a new
one starts somewhere in what the host has written.  The port takes each line of the host as a whole
or not at all (`taken`): it may be closed, and writes may be cancelled.
-/

namespace Ashacky.Control
open Ashacky.Support

structure System where
  broker : Broker
  alive : Bool
  toHost : Data
  channel : ControlChannel
  toGuest : Data
  /-- The frames the port has taken from the host so far. -/
  written : List HostFrame

/-- What happens at one of the ends. -/
inductive Event where
  | start (lost now : Nat)
  | exit
  | accept (service : Service) (uid now : Nat)
  | readClient (client : Nat) (data : Data) (now : Nat)
  | writeClient (client count : Nat)
  | closeClient (client : Nat)
  | readPort (count now : Nat)
  | writePort (count : Nat)
  | expire (now : Nat)
  | receive (count : Nat) (taken : List Bool)
  | wrote (n : Nat) (success : Bool) (taken : List Bool)
  | writeTimeout (n : Nat) (taken : List Bool)
  | complete (n : Nat) (result : Object) (taken : List Bool)
  | close

namespace System

/-- Before the first broker. -/
def initial : System where
  broker :=
    { index := 0, nonce := "", session := none, frames := [], outgoing := [], helloDeadline := 0
      writeDeadline := 0, clients := [], pending := [], counter := 0, accepted := 0, sent := []
      deliveries := [] }
  alive := false
  toHost := []
  channel := .initial
  toGuest := []
  written := []

/-- Run a method of the broker; what it raises ends the broker. -/
def guest (x : Act Broker Unit) (s : System) : System :=
  match x.run s.broker with
  | .ok _ b => { s with broker := b }
  | .error _ b => { s with broker := b.stop, alive := false }

/-- The lines that the port takes. -/
def pick : List Line → List Bool → List Line
  | line :: lines, b :: taken => if b then line :: pick lines taken else pick lines taken
  | _, _ => []

/-- The channel after an event, with the lines the port takes of its output. -/
def host (c : ControlChannel) (taken : List Bool) (s : System) : System :=
  { s with
    channel := { c with output := [] }
    toGuest := s.toGuest ++ (pick c.output taken).flatMap Line.bytes
    written := s.written ++ (pick c.output taken).map Line.frame }

variable (S : Setting)

/-- One event, if it can happen. -/
def next (s : System) : Event → Option System
  | .start lost now =>
      if s.alive then none
      else some <| { s with alive := true, toGuest := s.toGuest.drop lost }.guest
        (s.broker.start S.python S.token now)
  | .exit => if s.alive then some { s with broker := s.broker.stop, alive := false } else none
  | .accept service uid now =>
      if s.alive then some { s with broker := s.broker.accept service uid now } else none
  | .readClient client data now =>
      if s.alive ∧ (s.broker.clients.lookup client).isSome then
        some <| s.guest (Broker.guarded client (Broker.readClient S.python client data now))
      else none
  | .writeClient client count =>
      if s.alive ∧ ((s.broker.clients.lookup client).map (·.output.isEmpty)) = some false then
        some { s with broker := s.broker.writeClient client count }
      else none
  | .closeClient client =>
      if s.alive then some { s with broker := s.broker.closeClient client } else none
  | .readPort count now =>
      if s.alive then
        some <| { s with toGuest := s.toGuest.drop count }.guest
          (Broker.readPort S.python S.token now (splitlines [] (s.toGuest.take count)))
      else none
  | .writePort count =>
      if s.alive then
        some { s with
          broker := { s.broker with outgoing := s.broker.outgoing.drop count }
          toHost := s.toHost ++ s.broker.outgoing.take count }
      else none
  | .expire now => if s.alive then some (s.guest (Broker.expire now)) else none
  | .receive count taken =>
      some <| { s with toHost := s.toHost.drop count }.host
        (s.channel.receive S.foundation S.token (s.toHost.take count)) taken
  | .wrote n success taken =>
      match s.channel.writes[n]? with
      | some (expected, line) =>
          some <| s.host ({ s.channel with writes := s.channel.writes.eraseIdx n }.wrote
            expected line success) taken
      | none => none
  | .writeTimeout n taken =>
      match s.channel.writes[n]? with
      | some (expected, _) => some <| s.host (s.channel.writeTimeout expected) taken
      | none => none
  | .complete n result taken =>
      if n ∈ s.channel.running then
        some <| s.host (s.channel.complete S.foundation n result) taken
      else none
  | .close => some { s with channel := s.channel.close }

/-- One step of a run. -/
def Step (s : System) (e : Event) (_ : Unit) (s' : System) : Prop := s.next S e = some s'

/-- The events in turn, if each can happen. -/
def run (s : System) (events : List Event) : Option System := events.foldlM (next S) s

variable {S}

theorem steps_of_run {events : List Event} {s s' : System} (h : s.run S events = some s') :
    Steps (Step S) s (events.map (·, ())) s' := by
  induction events generalizing s with
  | nil =>
      cases h
      exact .refl _
  | cons e events ih =>
      rw [run, List.foldlM_cons] at h
      obtain ⟨s₁, he, hrest⟩ := Option.bind_eq_some_iff.mp h
      exact .more he (ih hrest)

end System

end Ashacky.Control
