import Ashacky.Control.Channel
import Ashacky.Support.Machine

/-!
# Session — Control

`host/control/Control.swift`: the host's side of the session's requests.  Two sockets hand requests
to the main queue, where `handle` answers them one by one; the control channel's requests for the
host arrive at the public socket like any other.  An action that stops the host is first *armed*: it
stays pending until the supervisor reports that the guest stopped, and runs a second after that.

The blocks that wait are part of the state: those on the main queue, those delayed by a second, and
the calls of the power helper on the global queue.  The console user, the calendar and the uptime
change on their own.  `handle` blocks the main queue while it asks the power helper, so what changes
meanwhile is seen by the blocks after it, and the time it takes is one of its arguments.  `request`
stops waiting for an answer after 80 seconds; the block it queued runs all the same.

An arm has a number of its own, which nothing in the source reads; the block and the call that come
of it carry it along.
-/

namespace Ashacky.Session
open Ashacky.Support Ashacky.Control

/-- The actions that stop the host. -/
inductive Action where
  | poweroff
  | restart
  | logout
  deriving DecidableEq

def Action.name : Action → String
  | .poweroff => "poweroff"
  | .restart => "restart"
  | .logout => "logout"

/-- The action of a name, in the case that lists the three. -/
def Action.ofName (name : String) : Option Action :=
  [Action.poweroff, .restart, .logout].find? (·.name = name)

/-- Where a request came from. -/
inductive Origin where
  | channel
  | socket
  | supervisor
  deriving DecidableEq

structure Message where
  origin : Origin
  value : Object
  deriving DecidableEq

/-- An action that was armed, with its number. -/
structure Arm where
  number : Nat
  action : Action
  deriving DecidableEq

/-- A block that runs on the main queue when it is due. -/
structure Delayed where
  arm : Arm
  due : Nat
  deriving DecidableEq

/-- A call of `power` on the global queue. -/
structure Job where
  action : String
  arm : Option Arm
  due : Nat
  deriving DecidableEq

/-- What the session is started with: the configuration, and how a number of a floating type is
bridged to `Bool`. -/
structure Host where
  foundation : Foundation
  token : String
  powerEnabled : Bool
  bundleID : String
  bridged : String → Option Bool

/-- A channel that reads nothing. -/
def sampleFoundation : Foundation where
  jsonObject _ := none
  data _ := none
  isUUID _ := false
  uuidString n := String.ofList (List.replicate n 'u')
  uuidString_inj h := by simpa using congrArg String.length h

structure Control where
  queue : List Message
  pending : Option Arm
  deadline : Nat
  delayed : List Delayed
  jobs : List Job
  /-- The request that is being authenticated; `authBusy` is that there is one. -/
  authenticating : Option Message
  wake : Nat
  sleeping : Bool
  sidecar : Bool
  /-- The sockets, the observers and the timer exist. -/
  started : Bool
  channel : ControlChannel
  /-- `active()`: the console user is this one. -/
  active : Bool
  /-- `Date()`, in nanoseconds. -/
  date : Nat
  /-- `DispatchTime.now()`, in nanoseconds. -/
  uptime : Nat
  /-- The number of arms so far. -/
  armed : Nat

/-- What a request finds outside: the battery, the screen lock, the power helper's answer and the
time it took, and why a fingerprint cannot be asked for. -/
structure Surroundings where
  battery : Option Object
  lockScreen : Bool
  helper : Object
  date : Nat
  uptime : Nat
  touchID : Option String

/-- What is done outside.  A request to the power helper and the logout event have the arm they come
of. -/
inductive Effect where
  | reply (message : Message) (answer : Object)
  | helper (request : Object) (arm : Option Arm)
  | logOut (arm : Arm)
  | lockScreen
  | sidecarRequest (message : Message)
  | sidecarCancel
  | evaluatePolicy (reason : String)
  | statusChanged

def second : Nat := 1000000000

/-- `as? Bool`: zero and one are bridged too. -/
def Host.bool (H : Host) : Json → Option Bool
  | .bool b => some b
  | .int 0 => some false
  | .int 1 => some true
  | .float text => H.bridged text
  | _ => none

/-- `value[key] as? Bool == true`. -/
def Host.isTrue (H : Host) (value : Object) (key : String) : Bool :=
  (value.lookup key).bind H.bool = some true

def failure (error : String) : Object := [("ok", .bool false), ("error", .str error)]

/-- The request's action: `value["action"] as? String ?? ""`. -/
def Message.action (m : Message) : String := (Object.text m.value "action").getD ""

/-- The request bears the session's token. -/
def Message.bears (m : Message) (token : String) : Prop := Object.text m.value "token" = some token

instance (m : Message) (token : String) : Decidable (m.bears token) :=
  inferInstanceAs (Decidable (_ = _))

/-- `enabled`, and the request `power` makes of the helper then. -/
def power (H : Host) (action : String) (operation : Option String) (arm : Option Arm) :
    List Effect :=
  if H.powerEnabled then
    [.helper ([("action", .str action)] ++ operation.toList.map fun op => ("operation", .str op))
      arm]
  else []

/-- What `power` returns when the helper answers with `answer`. -/
def powerAnswer (H : Host) (answer : Object) : Object :=
  if H.powerEnabled then answer else failure "Power actions disabled for this test session"

namespace Control

/-- `start`, with the console user, the clocks and whether the sidecar helper was found. -/
def initial (active : Bool) (date uptime : Nat) (sidecar : Bool) : Control where
  queue := []
  pending := none
  deadline := 0
  delayed := []
  jobs := []
  authenticating := none
  wake := 0
  sleeping := false
  sidecar := sidecar
  started := true
  channel := .initial
  active := active
  date := date
  uptime := uptime
  armed := 0

/-- `status`. -/
def status (H : Host) (battery : Option Object) (c : Control) : Object :=
  [("ok", Json.bool true), ("active", .bool c.active), ("wakeGeneration", .int c.wake),
    ("sleeping", .bool c.sleeping),
    ("pendingPower", .str ((c.pending.map (·.action.name)).getD "none")),
    ("backend", .str "qemu-spice"), ("bundleID", .str H.bundleID)] ++
  battery.toList.map fun b =>
    ("battery", Json.obj (b.filter fun entry => entry.1 ∈
      ["Current Capacity", "Max Capacity", "Is Charging", "Power Source State"]))

/-- The time after the power helper was asked. -/
def after (S : Surroundings) (c : Control) : Control :=
  { c with date := c.date + S.date, uptime := c.uptime + S.uptime }

/-- `case "poweroff", "restart", "logout"`. -/
def arm (H : Host) (S : Surroundings) (m : Message) (action : Action) (c : Control) :
    List Effect × Control :=
  if c.pending ≠ none then ([.reply m (failure "A session action is already pending")], c)
  else if H.powerEnabled = false then
    ([.reply m (failure "Session actions disabled for this test")], c)
  else
    let set (c : Control) : Control :=
      { c with
        pending := some ⟨c.armed, action⟩
        deadline := c.date + 120 * second
        armed := c.armed + 1 }
    let done : Effect := .reply m [("ok", .bool true), ("shutdownGuest", .bool true)]
    if action = .logout then ([done], set c)
    else
      let check := power H "check" (some action.name) none
      if H.isTrue (powerAnswer H S.helper) "ok" then (check ++ [done], set (c.after S))
      else (check ++ [.reply m (powerAnswer H S.helper)], c.after S)

/-- `case "vm-stopped"`. -/
def vmStopped (H : Host) (m : Message) (c : Control) : List Effect × Control :=
  let done : Effect := .reply m [("ok", .bool true)]
  match c.pending with
  | some operation =>
      if c.date < c.deadline ∧ H.isTrue m.value "clean" then
        ([done], { c with
          pending := none
          delayed := c.delayed ++ [⟨operation, c.uptime + second⟩] })
      else ([done], { c with pending := none })
  | none => ([done], { c with pending := none })

/-- The reasons that `authenticate` shows, by purpose. -/
def reasons : List (String × String) :=
  [("sudo", "authorize administrator access inside Linux"), ("unlock", "unlock your Linux desktop"),
    ("test", "test Linux Touch ID integration")]

/-- `case "authenticate"`. -/
def authenticate (S : Surroundings) (m : Message) (c : Control) : List Effect × Control :=
  if c.authenticating.isSome then
    ([.reply m (failure "Authentication is already in progress")], c)
  else
    match (Object.text m.value "purpose").bind fun p => reasons.lookup p with
    | none => ([.reply m (failure "Unsupported authentication purpose")], c)
    | some reason =>
        match S.touchID with
        | some error => ([.reply m (failure error)], c)
        | none => ([.evaluatePolicy reason], { c with authenticating := some m })

/-- The cases of `handle` that the guard on `active()` lets through. -/
def handleActive (H : Host) (S : Surroundings) (m : Message) (c : Control) :
    List Effect × Control :=
  match Action.ofName m.action with
  | some action => c.arm H S m action
  | none =>
      if m.action ∈ ["display-list", "display-connect", "display-disconnect"] then
        if c.sidecar then ([.sidecarRequest m], c)
        else ([.reply m (failure "Host display controls are unavailable")], c)
      else if m.action = "lock" then
        ((if c.sidecar then [.sidecarCancel] else []) ++ [.lockScreen, .reply m
          (if S.lockScreen then [("ok", .bool true)]
          else failure "macOS screen locking is unavailable")], c)
      else if m.action = "powercheck" then
        (power H "check" (some "poweroff") none ++ [.reply m (powerAnswer H S.helper)], c.after S)
      else if m.action = "sleep" then
        let check := power H "check" (some "sleep") none
        let c := c.after S
        if H.isTrue (powerAnswer H S.helper) "ok" then
          (check ++ [.reply m [("ok", .bool true)]],
            { c with jobs := c.jobs ++ [⟨"sleep", none, c.uptime + second⟩] })
        else (check ++ [.reply m (powerAnswer H S.helper)], c)
      else if m.action = "vm-stopped" then c.vmStopped H m
      else if m.action = "authenticate" then c.authenticate S m
      else ([.reply m (failure "Unsupported action")], c)

/-- `handle`. -/
def handle (H : Host) (S : Surroundings) (m : Message) (c : Control) : List Effect × Control :=
  if ¬ m.bears H.token then ([.reply m (failure "Invalid session token")], c)
  else if m.action = "status" then ([.reply m (c.status H S.battery)], c)
  else if c.active = false then
    ([.reply m (failure "The Linux macOS session is not active")], { c with pending := none })
  else c.handleActive H S m

/-- The block that `vm-stopped` delays. -/
def perform (b : Delayed) (c : Control) : List Effect × Control :=
  if c.active = false then ([], c)
  else if b.arm.action = .logout then ([.logOut b.arm], c)
  else ([], { c with jobs := c.jobs ++ [⟨b.arm.action.name, some b.arm, c.uptime⟩] })

/-- The handlers of the two sockets: why the request is refused, if it is.  `owner` is that the peer
is a process of this user. -/
def refusal (origin : Origin) (owner : Bool) (value : Object) : Option Object :=
  match origin with
  | .supervisor =>
      if owner ∧ Object.text value "action" = some "vm-stopped" then none
      else some (failure "Invalid supervisor request")
  | .channel | .socket =>
      if owner = false then some (failure "Wrong session user")
      else if Object.text value "action" = some "vm-stopped" then
        some (failure "Supervisor endpoint required")
      else none

/-- A request at a socket: it is refused, or put on the main queue. -/
def connect (origin : Origin) (owner : Bool) (value : Object) (c : Control) :
    List Effect × Control :=
  match refusal origin owner value with
  | some answer => ([.reply ⟨origin, value⟩ answer], c)
  | none => ([], { c with queue := c.queue ++ [⟨origin, value⟩] })

/-- The sidecar is told to give up, if there is one. -/
def cancelled (c : Control) : List Effect := if c.sidecar then [.sidecarCancel] else []

/-- `stop`, of the session's services. -/
def stop (c : Control) : List Effect × Control :=
  (c.cancelled, { c with
    sidecar := false
    pending := none
    started := false
    channel := c.channel.close })

end Control

/-! ### The machine -/

/-- What the control channel is called with. -/
inductive ChannelEvent where
  | receive (data : Data)
  | complete (n : Nat) (result : Object)
  | wrote (expected : Nat) (line : Line) (success : Bool)
  | writeTimeout (expected : Nat)

def ChannelEvent.apply (H : Host) (c : ControlChannel) : ChannelEvent → ControlChannel
  | .receive data => c.receive H.foundation H.token data
  | .complete n result => c.complete H.foundation n result
  | .wrote expected line success => c.wrote expected line success
  | .writeTimeout expected => c.writeTimeout expected

/-- What happens: a request arrives at a socket, at the channel or from the channel at the public
socket; a block runs; the system notifies; or the console user and the clocks change. -/
inductive Event where
  | connect (supervisor owner : Bool) (value : Object)
  | channel (e : ChannelEvent)
  | forward (n : Nat)
  | handle (S : Surroundings)
  | delayed (n : Nat)
  | job (n : Nat)
  | evaluated (success : Bool) (error : Option String)
  | willSleep
  | didWake
  | resign
  | becomeActive
  | tick
  | stop
  | console (active : Bool)
  | clock (date uptime : Nat)

/-- A step, when it can happen. -/
def step (H : Host) (c : Control) : Event → Option (List Effect × Control)
  | .connect supervisor owner value =>
      if c.started then
        some (c.connect (if supervisor then .supervisor else .socket) owner value)
      else none
  | .channel e => if c.started then some ([], { c with channel := e.apply H c.channel }) else none
  | .forward n =>
      -- `requestSocket` at the endpoint of the service `host`, from this process
      match c.channel.history.invocations[n]? with
      | some i =>
          if c.started ∧ n ∈ c.channel.running ∧ i.service = .host then
            some (c.connect .channel true i.payload)
          else none
      | none => none
  | .handle S =>
      match c.queue with
      | m :: queue => some ({ c with queue := queue }.handle H S m)
      | [] => none
  | .delayed n =>
      match c.delayed[n]? with
      | some b =>
          if b.due ≤ c.uptime then some ({ c with delayed := c.delayed.eraseIdx n }.perform b)
          else none
      | none => none
  | .job n =>
      match c.jobs[n]? with
      | some j =>
          if j.due ≤ c.uptime then
            some (power H j.action none j.arm, { c with jobs := c.jobs.eraseIdx n })
          else none
      | none => none
  | .evaluated success error =>
      match c.authenticating with
      | some m =>
          some ([.reply m [("ok", .bool (success && c.active)),
            ("error", .str (error.getD "none"))]], { c with authenticating := none })
      | none => none
  | .willSleep =>
      if c.started then some (c.cancelled ++ [.statusChanged], { c with sleeping := true })
      else none
  | .didWake =>
      if c.started then
        some ([.statusChanged], { c with sleeping := false, wake := c.wake + 1 })
      else none
  | .resign =>
      if c.started then some (c.cancelled ++ [.statusChanged], { c with pending := none })
      else none
  | .becomeActive => if c.started then some ([.statusChanged], c) else none
  | .tick =>
      if c.started then
        some ([], if c.pending ≠ none ∧ c.deadline < c.date then { c with pending := none } else c)
      else none
  | .stop => if c.started then some c.stop else none
  | .console active => some ([], { c with active := active })
  | .clock date uptime =>
      some ([], { c with date := c.date + date, uptime := c.uptime + uptime })

abbrev Trace := List (Event × List Effect)

/-- A run of the session. -/
abbrev Run (H : Host) : Control → Trace → Control → Prop :=
  Steps fun c e o c' => step H c e = some (o, c')

end Ashacky.Session
