import Ashacky.Hid.Packets
import Ashacky.Support.Machine

/-!
# Hid — the CTAPHID transport

The class `HID` of `guest/auth/fido2.py`: the allocated channels in least-recently-used order,
the message being reassembled (`fragment`) and the request the host is working on (`busy`).  A
call returns the new state and what it did to the outside: `emit` a report, hand a `request` to
the host, `cancel` one.

What the code reads from outside comes with the event: the channel numbers `secrets.randbits(32)`
draws, the `uuid4` of a new request, and the readings of the clock (in milliseconds).  The
allocation loop draws until it finds a number that is free; a call whose draws hold none has not
returned (`Fault.drawing`).

`receive_cases` says once what a received report can do (`Received`); the later modules argue
from it and never unfold `receive`.
-/

namespace Ashacky.Hid
open Ashacky.Support

/-- A message being reassembled. -/
structure Fragment where
  cid : UInt32
  cmd : UInt8
  length : Nat
  data : Data
  sequence : Nat
  deadline : Nat
  deriving DecidableEq, Repr

/-- The request the host is working on: `(cid, request_id, deadline, keepalive)`. -/
structure Busy where
  cid : UInt32
  requestId : String
  deadline : Nat
  keepalive : Nat
  deriving DecidableEq, Repr

/-- The three fields of `HID`; `channels` lists the keys of the ordered dictionary. -/
structure HID where
  channels : List UInt32
  fragment : Option Fragment
  busy : Option Busy
  deriving DecidableEq, Repr

/-- `HID.__init__`. -/
def HID.new : HID := ⟨[], none, none⟩

/-- What a call does to the outside. -/
inductive Effect where
  | emit (packet : Data)
  | request (requestId : String) (cid : UInt32) (payload : Data)
  | cancel (requestId : String)
  deriving DecidableEq, Repr

/-- What `receive` reads from outside: the draws of the allocation loop, the identifier of a new
request, and the clock at the places it is read (a fragment's start, then twice for a request). -/
structure Readings where
  draws : List UInt32
  uuid : String
  started : Nat
  requested : Nat
  waiting : Nat
  deriving DecidableEq, Repr

/-- The result of a call. -/
abbrev Outcome := Except Fault (HID × List Effect)

/-- `HID.send`. -/
def send (cid : UInt32) (cmd : UInt8) (payload : Data) : Except Fault (List Effect) :=
  (packets cid cmd payload).map fun ps => ps.map .emit

/-- `HID.error`. -/
def sendError (cid : UInt32) (code : UInt8) : Except Fault (List Effect) :=
  send cid Cmd.error [code]

namespace HID

/-- `self.error(cid, code); return`. -/
def refuse (self : HID) (cid : UInt32) (code : UInt8) : Outcome :=
  (sendError cid code).map fun out => (self, out)

/-- `HID.abort`. -/
def abort (self : HID) (respond : Bool) : Outcome :=
  let self := { self with fragment := none }
  match self.busy with
  | none => .ok (self, [])
  | some b =>
      let self := { self with busy := none }
      if respond then (send b.cid Cmd.cbor [0x2d]).map fun out => (self, .cancel b.requestId :: out)
      else .ok (self, [.cancel b.requestId])

/-- The channels an allocation must not evict. -/
def isProtected (self : HID) (c : UInt32) : Bool :=
  self.busy.any (·.cid == c) || self.fragment.any (·.cid == c)

/-- `next((c for c in self.channels if c not in protected), None)`. -/
def victim (self : HID) : Option UInt32 := self.channels.find? fun c => !self.isProtected c

/-- The channels after `assigned` was allocated. -/
def allocate (self : HID) (assigned : UInt32) : List UInt32 :=
  if self.channels.length ≥ 64 then
    match self.victim with
    | some v => self.channels.erase v ++ [assigned]
    | none => self.channels ++ [assigned]
  else self.channels ++ [assigned]

/-- A number the allocation loop stops at. -/
def isFree (self : HID) (c : UInt32) : Bool := c ≠ 0 && c ≠ broadcast && c ∉ self.channels

/-- The payload of an INIT response: the nonce, the channel, protocol version 2, device version
0.1.0, and the capabilities CBOR and NMSG. -/
def initResponse (packet : Data) (assigned : UInt32) : Data :=
  slice packet 7 15 ++ beBytes 4 assigned.toNat ++ [2, 0, 1, 0, 0x0c]

/-- `receive` at `cmd == INIT`. -/
def receiveInit (self : HID) (packet : Data) (draws : List UInt32) : Outcome :=
  let cid := channelOf packet
  if lengthOf packet ≠ 8 then self.refuse cid 0x03
  else if cid ≠ broadcast ∧ cid ∉ self.channels then self.refuse cid 0x0b
  else if cid = broadcast then
    match draws.find? self.isFree with
    | none => .error .drawing
    | some assigned =>
        (send cid Cmd.init (initResponse packet assigned)).map fun out =>
          ({ self with channels := self.allocate assigned }, out)
  else do
    let (self, cancels) ← if self.busy.any (·.cid == cid) then self.abort false else .ok (self, [])
    let self :=
      if self.fragment.any (·.cid == cid) then { self with fragment := none } else self
    (send cid Cmd.init (initResponse packet cid)).map fun out => (self, cancels ++ out)

/-- The end of `receive`: a fragment that has all its bytes is answered or handed to the host. -/
def dispatch (self : HID) (cid : UInt32) (part : Fragment) (r : Readings) : Outcome :=
  if part.data.length = part.length then
    let self := { self with fragment := none }
    if part.cmd = Cmd.ping then (send cid Cmd.ping part.data).map fun out => (self, out)
    else if part.data = [] then self.refuse cid 0x03
    else
      .ok ({ self with busy := some ⟨cid, r.uuid, r.requested + 65000, r.waiting + 200⟩ },
        [.request r.uuid cid part.data])
  else .ok ({ self with fragment := some part }, [])

/-- `receive` at `cmd & 0x80`: a new message. -/
def receiveCommand (self : HID) (packet : Data) (r : Readings) : Outcome :=
  let cid := channelOf packet
  let cmd := commandOf packet
  match self.fragment with
  | some part =>
      if part.cid ≠ cid then self.refuse cid 0x06
      else { self with fragment := none }.refuse cid 0x04
  | none =>
      let length := lengthOf packet
      if length > maxMessage then self.refuse cid 0x03
      else if cmd ≠ Cmd.ping ∧ cmd ≠ Cmd.cbor then self.refuse cid 0x01
      else
        self.dispatch cid
          ⟨cid, cmd, length, slice packet 7 (7 + min length 57), 0, r.started + 3000⟩ r

/-- `receive` at a continuation packet. -/
def receiveContinuation (self : HID) (packet : Data) (r : Readings) : Outcome :=
  let cid := channelOf packet
  match self.fragment with
  | none => .ok (self, [])
  | some part =>
      if part.cid ≠ cid then self.refuse cid 0x06
      else if (commandOf packet).toNat ≠ part.sequence then
        { self with fragment := none }.refuse cid 0x04
      else
        self.dispatch cid
          { part with
            sequence := part.sequence + 1
            data := part.data ++ slice packet 5 (5 + min 59 (part.length - part.data.length)) } r

/-- `self.channels.move_to_end(cid)`. -/
def touch (self : HID) (cid : UInt32) : HID :=
  { self with channels := self.channels.erase cid ++ [cid] }

/-- `HID.receive`. -/
def receive (self : HID) (packet : Data) (r : Readings) : Outcome :=
  if packet.length ≠ 64 then .ok (self, [])
  else
    let cid := channelOf packet
    let cmd := commandOf packet
    if cid = 0 then self.refuse cid 0x0b
    else if cmd = Cmd.init then self.receiveInit packet r.draws
    else if cid = broadcast ∨ cid ∉ self.channels then self.refuse cid 0x0b
    else
      let self := self.touch cid
      if cmd = Cmd.cancel then
        if slice packet 5 7 ≠ [0, 0] then self.refuse cid 0x03
        else if self.busy.any (·.cid == cid) then self.abort true
        else .ok (self, [])
      else if self.busy.isSome then self.refuse cid 0x06
      else if cmd &&& 0x80 ≠ 0 then self.receiveCommand packet r
      else self.receiveContinuation packet r

/-- `HID.complete`. -/
def complete (self : HID) (requestId : String) (payload : Data) : Outcome :=
  match self.busy with
  | some b =>
      if b.requestId = requestId then
        (send b.cid Cmd.cbor
          (if 1 ≤ payload.length ∧ payload.length ≤ maxMessage then payload else [0x7f])).map
            fun out => ({ self with busy := none }, out)
      else .ok (self, [])
  | none => .ok (self, [])

/-- The first half of `HID.timeout`: an expired fragment. -/
def timeoutFragment (self : HID) (now : Nat) : Outcome :=
  match self.fragment with
  | some part =>
      if now ≥ part.deadline then { self with fragment := none }.refuse part.cid 0x05
      else .ok (self, [])
  | none => .ok (self, [])

/-- The second half of `HID.timeout`: an expired request, or one due a keepalive. -/
def timeoutBusy (self : HID) (now : Nat) : Outcome :=
  match self.busy with
  | some b =>
      if now ≥ b.deadline then
        (send b.cid Cmd.cbor [0x2f]).map fun out =>
          ({ self with busy := none }, .cancel b.requestId :: out)
      else if now ≥ b.keepalive then
        (send b.cid Cmd.keepalive [0x02]).map fun out =>
          ({ self with busy := some { b with keepalive := now + 200 } }, out)
      else .ok (self, [])
  | none => .ok (self, [])

/-- `HID.timeout`. -/
def timeout (self : HID) (now : Nat) : Outcome := do
  let (self, out) ← self.timeoutFragment now
  let (self, out') ← self.timeoutBusy now
  return (self, out ++ out')

end HID

/-- A call of the transport: a report from the device, a reply from the host, the timer, and
device STOP or CLOSE. -/
inductive Event where
  | receive (packet : Data) (r : Readings)
  | complete (requestId : String) (payload : Data)
  | timeout (now : Nat)
  | abort
  deriving DecidableEq, Repr

/-- The call an event makes. -/
def HID.call (self : HID) : Event → Outcome
  | .receive packet r => self.receive packet r
  | .complete requestId payload => self.complete requestId payload
  | .timeout now => self.timeout now
  | .abort => self.abort false

/-- The step relation of the transport: a call that returned. -/
def HID.Step (s : HID) (e : Event) (out : List Effect) (s' : HID) : Prop := s.call e = .ok (s', out)

instance (s : HID) (e : Event) (out : List Effect) (s' : HID) : Decidable (s.Step e out s') :=
  inferInstanceAs (Decidable (s.call e = .ok (s', out)))

/-- The calls of a list of events, one after the other. -/
def HID.run (self : HID) : List Event → Outcome
  | [] => .ok (self, [])
  | e :: es => do
      let (self, out) ← self.call e
      let (self, out') ← self.run es
      return (self, out ++ out')

/-! ### What a call returns -/

/-- The effects of sending a message that fits. -/
def emits (cid : UInt32) (cmd : UInt8) (payload : Data) : List Effect :=
  (reports cid cmd payload).map .emit

/-- A payload that fits is sent in packets. -/
theorem send_eq {cid : UInt32} {cmd : UInt8} {payload : Data} (h : payload.length ≤ maxMessage) :
    send cid cmd payload = .ok (emits cid cmd payload) := by
  simp [send, packets_ok h, emits, Except.map]

@[simp] theorem send_byte (cid : UInt32) (cmd code : UInt8) :
    send cid cmd [code] = .ok (emits cid cmd [code]) :=
  send_eq (by simp [maxMessage])

@[simp] theorem send_initResponse (cid : UInt32) (packet : Data) (assigned : UInt32) :
    send cid Cmd.init (HID.initResponse packet assigned) =
      .ok (emits cid Cmd.init (HID.initResponse packet assigned)) :=
  send_eq (by simp [HID.initResponse, maxMessage])

/-- A refusal is sent, and the device stays as it is. -/
@[simp] theorem HID.refuse_eq (self : HID) (cid : UInt32) (code : UInt8) :
    self.refuse cid code = .ok (self, emits cid Cmd.error [code]) := by
  simp [HID.refuse, sendError, Except.map]

/-- Aborting a message does not trap. -/
theorem HID.abort_returns (self : HID) (respond : Bool) :
    ∃ p, self.abort respond = .ok p := by
  unfold HID.abort
  cases self.busy <;> cases respond <;> simp [Except.map]

/-- A run goes on from the state its first event leads to. -/
theorem HID.run_cons_ok {s s₁ : HID} {e : Event} {es : List Event} {out : List Effect}
    (h : s.call e = .ok (s₁, out)) :
    s.run (e :: es) = (s₁.run es).map fun p => (p.1, out ++ p.2) := by
  simp only [HID.run, h, bind, Except.bind, pure, Except.pure, Except.map]

/-- A run ends with the first trap. -/
theorem HID.run_cons_error {s : HID} {e : Event} {es : List Event} {f : Fault}
    (h : s.call e = .error f) : s.run (e :: es) = .error f := by
  simp only [HID.run, h, bind, Except.bind]

/-- What the fragment becomes when `packet` starts a message or carries the next part of one. -/
inductive Gathers (s : HID) (packet : Data) (r : Readings) : Fragment → Prop where
  | start (hfrag : s.fragment = none) (hlen : lengthOf packet ≤ maxMessage)
      (hcmd : commandOf packet = Cmd.ping ∨ commandOf packet = Cmd.cbor) :
      Gathers s packet r ⟨channelOf packet, commandOf packet, lengthOf packet,
        slice packet 7 (7 + min (lengthOf packet) 57), 0, r.started + 3000⟩
  | next {part : Fragment} (hfrag : s.fragment = some part) (hcid : part.cid = channelOf packet)
      (hseq : (commandOf packet).toNat = part.sequence) :
      Gathers s packet r { part with
        sequence := part.sequence + 1
        data := part.data ++ slice packet 5 (5 + min 59 (part.length - part.data.length)) }

/-- Everything a received report can do. -/
inductive Received (s : HID) (packet : Data) (r : Readings) : HID → List Effect → Prop where
  | ignored (hlen : packet.length ≠ 64) : Received s packet r s []
  | refused (code : UInt8) : Received s packet r s (emits (channelOf packet) Cmd.error [code])
  | allocated {assigned : UInt32} (hcid : channelOf packet = broadcast)
      (hfree : s.isFree assigned = true) :
      Received s packet r { s with channels := s.allocate assigned }
        (emits (channelOf packet) Cmd.init (HID.initResponse packet assigned))
  | resynced (hcid : channelOf packet ∈ s.channels) (hfrag : s.fragment.any (·.cid == channelOf packet))
      (hbusy : s.busy = none ∨ ∃ b, s.busy = some b ∧ b.cid ≠ channelOf packet) :
      Received s packet r { s with fragment := none }
        (emits (channelOf packet) Cmd.init (HID.initResponse packet (channelOf packet)))
  | confirmed (hcid : channelOf packet ∈ s.channels) :
      Received s packet r s
        (emits (channelOf packet) Cmd.init (HID.initResponse packet (channelOf packet)))
  | aborted {b : Busy} (hcid : channelOf packet ∈ s.channels) (hbusy : s.busy = some b)
      (hb : b.cid = channelOf packet) :
      Received s packet r { s with fragment := none, busy := none }
        (.cancel b.requestId ::
          emits (channelOf packet) Cmd.init (HID.initResponse packet (channelOf packet)))
  | turnedAway (code : UInt8) (hcid : channelOf packet ∈ s.channels) :
      Received s packet r (s.touch (channelOf packet)) (emits (channelOf packet) Cmd.error [code])
  | idle (hcid : channelOf packet ∈ s.channels) :
      Received s packet r (s.touch (channelOf packet)) []
  | cancelled {b : Busy} (hcid : channelOf packet ∈ s.channels) (hbusy : s.busy = some b)
      (hb : b.cid = channelOf packet) :
      Received s packet r { s.touch (channelOf packet) with fragment := none, busy := none }
        (.cancel b.requestId :: emits (channelOf packet) Cmd.cbor [0x2d])
  | dropped {part : Fragment} (hcid : channelOf packet ∈ s.channels) (hbusy : s.busy = none)
      (hfrag : s.fragment = some part) (hpart : part.cid = channelOf packet) :
      Received s packet r { s.touch (channelOf packet) with fragment := none }
        (emits (channelOf packet) Cmd.error [0x04])
  | gathered {part : Fragment} {s' : HID} {out : List Effect}
      (hcid : channelOf packet ∈ s.channels) (hbusy : s.busy = none)
      (hpart : Gathers s packet r part)
      (hdisp : (s.touch (channelOf packet)).dispatch (channelOf packet) part r = .ok (s', out)) :
      Received s packet r s' out

namespace HID

variable {s s' : HID} {packet : Data} {r : Readings} {out : List Effect}

/-- An optional entry has a channel if it is there with that one. -/
theorem any_cid_iff {α : Type*} (o : Option α) (f : α → UInt32) (c : UInt32) :
    o.any (f · == c) = true ↔ ∃ a, o = some a ∧ f a = c := by
  cases o <;> simp

/-- What an INIT packet does is one of the listed cases. -/
theorem receiveInit_cases (h : s.receiveInit packet r.draws = .ok (s', out)) :
    Received s packet r s' out := by
  unfold receiveInit at h
  simp only [refuse_eq, send_initResponse, Except.map] at h
  split at h
  · cases h; exact .refused _
  split at h
  · cases h; exact .refused _
  split at h
  · rename_i hb
    split at h
    · cases h
    · rename_i assigned hfind
      cases h
      exact .allocated hb (List.find?_some hfind)
  rename_i hlen hmem hb
  have hcid : channelOf packet ∈ s.channels := by
    by_contra hc
    exact hmem ⟨hb, hc⟩
  by_cases hbusy : s.busy.any (·.cid == channelOf packet)
  · obtain ⟨b, hsb, hbc⟩ := (any_cid_iff _ _ _).mp hbusy
    rw [if_pos hbusy] at h
    simp only [abort, hsb, Bool.false_eq_true, if_false, bind, Except.bind, Option.any_none] at h
    cases h
    exact .aborted hcid hsb hbc
  · rw [if_neg hbusy] at h
    simp only [bind, Except.bind, List.nil_append] at h
    split at h
    · rename_i hfrag
      cases h
      refine .resynced hcid hfrag ?_
      cases hsb : s.busy with
      | none => exact .inl rfl
      | some b => exact .inr ⟨b, rfl, fun e => hbusy ((any_cid_iff _ _ _).mpr ⟨b, hsb, e⟩)⟩
    · cases h
      exact .confirmed hcid

/-- **What a received report can do.** -/
theorem receive_cases (h : s.receive packet r = .ok (s', out)) : Received s packet r s' out := by
  unfold receive at h
  simp only [refuse_eq] at h
  split at h
  · rename_i hlen; cases h; exact .ignored hlen
  split at h
  · cases h; exact .refused _
  split at h
  · exact receiveInit_cases h
  split at h
  · cases h; exact .refused _
  rename_i hmem
  -- From here on the channel is one that was allocated.
  have hcid : channelOf packet ∈ s.channels := by
    by_contra hc
    exact hmem (.inr hc)
  split at h
  · split at h
    · cases h; exact .turnedAway _ hcid
    split at h
    · rename_i hb
      obtain ⟨b, hsb, hbc⟩ := (any_cid_iff _ _ _).mp hb
      simp only [abort, hsb, if_true, send_byte, Except.map] at h
      cases h
      rw [hbc]
      exact .cancelled hcid hsb hbc
    · cases h; exact .idle hcid
  split at h
  · cases h; exact .turnedAway _ hcid
  rename_i hbusy
  -- From here on no message is being answered.
  have hbusy : s.busy = none := by simpa [touch] using hbusy
  split at h
  · unfold receiveCommand at h
    simp only [refuse_eq] at h
    split at h
    · rename_i part hfrag
      split at h
      · cases h; exact .turnedAway _ hcid
      · rename_i hpart
        cases h; exact .dropped hcid hbusy hfrag (not_not.mp hpart)
    · rename_i hfrag
      split at h
      · cases h; exact .turnedAway _ hcid
      split at h
      · cases h; exact .turnedAway _ hcid
      · rename_i hlen hcmd
        exact .gathered hcid hbusy
          (.start hfrag (by omega) (by by_contra hno; exact hcmd (not_or.mp hno))) h
  · unfold receiveContinuation at h
    simp only [refuse_eq] at h
    split at h
    · cases h; exact .idle hcid
    · rename_i part hfrag
      split at h
      · cases h; exact .turnedAway _ hcid
      rename_i hpart
      split at h
      · cases h; exact .dropped hcid hbusy hfrag (not_not.mp hpart)
      · rename_i hseq
        exact .gathered hcid hbusy (.next hfrag (not_not.mp hpart) (not_not.mp hseq)) h

/-- **How a received report can fail to return**: the allocation loop is still drawing, or a
gathered message does not go through `dispatch`. -/
theorem receive_error {f : Fault} (h : s.receive packet r = .error f) :
    f = .drawing ∨ ∃ part, Gathers s packet r part ∧
      (s.touch (channelOf packet)).dispatch (channelOf packet) part r = .error f := by
  unfold receive at h
  simp only [refuse_eq] at h
  split at h
  · cases h
  split at h
  · cases h
  split at h
  -- An INIT for a new channel draws until it finds a free one.
  · left
    unfold receiveInit at h
    simp only [refuse_eq, send_initResponse, Except.map] at h
    split at h
    · cases h
    split at h
    · cases h
    split at h
    · split at h
      · cases h; rfl
      · cases h
    · obtain ⟨p, hp⟩ := s.abort_returns false
      split at h <;> simp only [hp, bind, Except.bind] at h <;> cases h
  split at h
  · cases h
  split at h
  · split at h
    · cases h
    split at h
    · obtain ⟨p, hp⟩ := (s.touch (channelOf packet)).abort_returns true
      rw [hp] at h
      cases h
    · cases h
  split at h
  · cases h
  split at h
  · unfold receiveCommand at h
    simp only [refuse_eq] at h
    split at h
    · split at h <;> cases h
    · rename_i hfrag
      split at h
      · cases h
      split at h
      · cases h
      · rename_i hlen hcmd
        exact .inr ⟨_, .start hfrag (by omega) (by by_contra hno; exact hcmd (not_or.mp hno)), h⟩
  · unfold receiveContinuation at h
    simp only [refuse_eq] at h
    split at h
    · cases h
    · rename_i part hfrag
      split at h
      · cases h
      rename_i hpart
      split at h
      · cases h
      · rename_i hseq
        exact .inr ⟨_, .next hfrag (not_not.mp hpart) (not_not.mp hseq), h⟩

end HID

end Ashacky.Hid
