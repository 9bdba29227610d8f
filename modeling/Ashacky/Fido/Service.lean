import Ashacky.Support.Machine
import Ashacky.Fido.Authenticator

/-!
# Fido — the service

`FIDO2Service` of `host/auth/FIDO2Service.swift`: requests, cancellations, notifications, timeouts
and completion blocks run on the main queue, one at a time; calls of `core.process` and `core.clear`
run on a serial queue of their own, in the order they were added.

A step of the service is one block of one of the two queues.  The serial queue starts a job and,
later, finishes it: everything on the main queue can happen in between.  What `core.process` returns
is left open (`Core.processes`), so it may depend in any way on the cancellation flag and on the
state of the session while it ran.  Transactions are named by the number of the request call they
belong to, and generations (`UUID()`) by counting them.
-/

namespace Ashacky.Fido
open Ashacky.Support

/-! ### Requests -/

/-- The dictionary of a request; a value that is not a string is `none`. -/
abbrev Fields := List (String × Option String)

/-- `request[key] as? String`. -/
def Fields.string (fields : Fields) (key : String) : Option String := (fields.lookup key).join

/-- `Set(request.keys) == keys`. -/
def Fields.hasKeys (fields : Fields) (keys : List String) : Bool :=
  (fields.map Prod.fst).all (· ∈ keys) && keys.all (· ∈ fields.map Prod.fst)

/-- What the service takes from Foundation. -/
structure Foundation where
  /-- `UUID(uuidString:)` is not nil. -/
  isUUID : String → Bool
  /-- `Data(base64Encoded:)`. -/
  base64 : String → Option Data

/-- What a request asks for. -/
inductive Asked where
  | malformed
  | cancel (id : String)
  | process (id channel : String) (data : Data)
  deriving DecidableEq

/-- The field checks of `request`. -/
def asked (F : Foundation) (fields : Fields) : Asked :=
  match fields.string "id" with
  | none => .malformed
  | some id =>
      if F.isUUID id then
        if fields.string "action" = some "cancel" then
          if fields.hasKeys ["action", "id"] then .cancel id else .malformed
        else if fields.hasKeys ["action", "id", "channel", "data"] ∧
            fields.string "action" = some "request" then
          match fields.string "channel", fields.string "data" with
          | some channel, some encoded =>
              if (utf8 channel).length = 8 ∧
                  ((utf8 channel).all fun b => 48 ≤ b && b ≤ 57 || 97 ≤ b && b ≤ 102) ∧
                  (utf8 encoded).length ≤ 1368 then
                match F.base64 encoded with
                | some data =>
                    if data ≠ [] ∧ data.length ≤ maximumMessage then .process id channel data
                    else .malformed
                | none => .malformed
              else .malformed
          | _, _ => .malformed
        else .malformed
      else .malformed

/-- A reply: `ok`, and the bytes that `data` is the Base64 form of. -/
structure Reply where
  ok : Bool
  data : Option Data
  deriving DecidableEq, Repr

/-- `["ok": false]`. -/
def Reply.failed : Reply := ⟨false, none⟩

/-- The data of a reply that carries a status only. -/
def Reply.status (code : UInt8) : Reply := ⟨true, some [code]⟩

/-- What the main queue samples: `Control.active()`, `Control.sleeping`, `NSApp.isActive`. -/
structure Session where
  active : Bool
  sleeping : Bool
  foreground : Bool

/-- The data of the reply in the completion block. -/
def answer (valid : Bool) (result : Data) : Data := if valid then result else [0x2d]

/-! ### The state -/

/-- An accepted request: the number of its call, which also names its transaction, and what the
blocks it enqueues have captured. -/
structure Call where
  number : Nat
  id : String
  channel : String
  data : Data
  expected : Nat
  deriving DecidableEq, Repr

/-- A block of the serial queue. -/
inductive Job where
  | process (call : Call)
  | clear
  deriving DecidableEq, Repr

/-- The authenticator behind the service: its states, `clear()`, and what a call of `process` may
return and leave. -/
structure Core where
  State : Type
  clear : State → State
  processes : Call → State → Data → State → Prop

/-- `FIDO2Service`, with its two queues: `jobs` has not been started, `running` has not returned,
and `completions` is on the main queue. -/
structure FIDO2Service (C : Core) where
  core : C.State
  current : Option (String × Nat)
  generation : Nat
  stopped : List Nat
  timers : List Nat
  jobs : List Job
  running : Option Call
  completions : List (Call × Data)
  calls : Nat

/-- A block that runs. -/
inductive Block (C : Core) where
  /-- A call of `request` on the main queue. -/
  | request (fields : Fields) (session : Session)
  /-- A notification or the loss of the channel: `cancelAll`. -/
  | cancelAll
  /-- The timeout of a transaction. -/
  | timeout (number : Nat)
  /-- The serial queue starts its next job. -/
  | start
  /-- `core.process` returns. -/
  | finish (result : Data) (core : C.State)
  /-- The next completion block. -/
  | complete (session : Session)

namespace FIDO2Service

variable {C : Core}

/-- `transaction.cancel()`. -/
def stop (s : FIDO2Service C) (number : Nat) : FIDO2Service C :=
  { s with stopped := number :: s.stopped }

/-- `current?.transaction.cancel()`. -/
def stopCurrent (s : FIDO2Service C) : FIDO2Service C :=
  match s.current with
  | some (_, number) => s.stop number
  | none => s

/-- `queue.async { core.clear() }`. -/
def enqueueClear (s : FIDO2Service C) : FIDO2Service C := { s with jobs := s.jobs ++ [.clear] }

/-- `cancelAll()`. -/
def cancelAll (s : FIDO2Service C) : FIDO2Service C :=
  ({ s with generation := s.generation + 1 }).stopCurrent.enqueueClear

/-- `request(fields, reply:)` after its field checks; an accepted request has no reply yet. -/
def accept (s : FIDO2Service C) (session : Session) (number : Nat) :
    Asked → Option Reply × FIDO2Service C
  | .malformed => (some .failed, s)
  | .cancel id =>
      let s := if s.current.map Prod.fst = some id then s.stopCurrent else s
      (some ⟨true, none⟩, s.enqueueClear)
  | .process id channel data =>
      if s.current.isSome then (some (.status 0x21), s)
      else if ¬ (session.active ∧ ¬ session.sleeping) then (some .failed, s)
      else if ¬ (data.head? = some 4 ∨ session.foreground) then (some (.status 0x27), s)
      else
        (none, { s with
          current := some (id, number)
          timers := number :: s.timers
          jobs := s.jobs ++ [.process ⟨number, id, channel, data, s.generation⟩] })

/-- `generation == expected && !transaction.cancelled && Control.active() && !Control.sleeping`. -/
def valid (s : FIDO2Service C) (call : Call) (session : Session) : Bool :=
  s.generation = call.expected ∧ call.number ∉ s.stopped ∧ session.active ∧ ¬ session.sleeping

/-- One block, with the replies it sends: the number of the request call, and the reply. -/
inductive Step (F : Foundation) : FIDO2Service C → Block C → List (Nat × Reply) →
    FIDO2Service C → Prop where
  | request (s : FIDO2Service C) (fields : Fields) (session : Session) :
      Step F s (.request fields session)
        (((s.accept session s.calls (asked F fields)).1.map fun r => (s.calls, r)).toList)
        { (s.accept session s.calls (asked F fields)).2 with calls := s.calls + 1 }
  | cancelAll (s : FIDO2Service C) : Step F s .cancelAll [] s.cancelAll
  | timeout (s : FIDO2Service C) {number : Nat} (h : number ∈ s.timers) :
      Step F s (.timeout number) [] { s.stop number with timers := s.timers.erase number }
  | clear (s : FIDO2Service C) {jobs : List Job} (hr : s.running = none)
      (h : s.jobs = .clear :: jobs) :
      Step F s .start [] { s with core := C.clear s.core, jobs := jobs }
  | start (s : FIDO2Service C) {call : Call} {jobs : List Job} (hr : s.running = none)
      (h : s.jobs = .process call :: jobs) :
      Step F s .start [] { s with running := some call, jobs := jobs }
  | finish (s : FIDO2Service C) {call : Call} {result : Data} {core : C.State}
      (hr : s.running = some call) (h : C.processes call s.core result core) :
      Step F s (.finish result core) []
        { s with core := core, running := none, completions := s.completions ++ [(call, result)] }
  | complete (s : FIDO2Service C) {call : Call} {result : Data} {rest : List (Call × Data)}
      (session : Session) (h : s.completions = (call, result) :: rest) :
      Step F s (.complete session)
        [(call.number, ⟨true, some (answer (s.valid call session) result)⟩)]
        { s with
          timers := s.timers.erase call.number
          current := none
          completions := rest }

/-- `init`: nothing requested yet. -/
def initial (core : C.State) : FIDO2Service C := ⟨core, none, 0, [], [], [], none, [], 0⟩

end FIDO2Service

end Ashacky.Fido
