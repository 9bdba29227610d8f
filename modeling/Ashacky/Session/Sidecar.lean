import Ashacky.Session.Control
import Mathlib.Logic.Function.Basic

/-!
# Session — Sidecar

`host/devices/SidecarService.swift`: a display operation runs in a child process, and its request is
answered by what the child wrote, by the deadline, or by `cancel`.  `request`, `cancel`, the item of
the deadline and the block with a child's result run on the main queue, each to its end: a reply is
the last thing they do.  In between a block on the global queue reads the output, and the child runs.

A request has the number of requests before it, and its child the same; nothing in the source reads
it.  The item and the blocks of a child may come at any time after they are due.

* `step_cases`: what a step does to the one slot for a child.
* `answered_once`: a request is answered once, by its own child or by none.
-/

namespace Ashacky.Sidecar
open Ashacky.Support Ashacky.Control Ashacky.Session

/-! ### A child -/

/-- The block that reads the output of a child. -/
inductive Reader where
  | reading (data : Data)
  | waiting (data : Data) (overflow : Bool)
  /-- The block with the result waits on the main queue. -/
  | posted (result : Object)
  | done

/-- A child, its reader, and the work item of its deadline. -/
structure Child where
  reader : Reader
  /-- `terminationStatus`, once it has exited. -/
  status : Option Int
  /-- The item waits for its time. -/
  armed : Bool
  /-- `DispatchWorkItem.cancel` was called on it. -/
  cancelled : Bool

/-- What a child does, and its reader. -/
inductive Activity where
  /-- `readData(ofLength: 4096)` returns; without bytes the output has ended. -/
  | read (chunk : Data)
  | exit (status : Int)
  /-- `waitUntilExit` returns. -/
  | wake

def stopped : Object :=
  failure ("Display helper stopped; connection outcome is unknown. " ++
    "Refresh the list before retrying.")

/-- The result of a child. -/
def result (H : Host) (data : Data) (overflow : Bool) (status : Int) : Object :=
  if overflow then stopped
  else
    match (H.foundation.jsonObject data).bind Json.object with
    | none => stopped
    | some decoded =>
        match (decoded.lookup "ok").bind H.bool with
        | none => stopped
        | some ok => if !ok || status = 0 then decoded else stopped

/-- `isRunning`. -/
def Child.isRunning (c : Child) : Bool := c.status.isNone

/-- Whether the child is killed, and what becomes of it. -/
def Child.act (H : Host) (c : Child) : Activity → Option (Bool × Child)
  | .read chunk =>
      match c.reader with
      | .reading data =>
          if chunk = [] then some (false, { c with reader := .waiting data false })
          else if chunk.length > 4096 then none
          else if data.length + chunk.length > 16384 then
            some (c.isRunning, { c with reader := .waiting data true })
          else some (false, { c with reader := .reading (data ++ chunk) })
      | _ => none
  | .exit status => if c.isRunning then some (false, { c with status := some status }) else none
  | .wake =>
      match c.reader, c.status with
      | .waiting data overflow, some status =>
          some (false, { c with reader := .posted (result H data overflow status) })
      | _, _ => none

/-! ### The service -/

/-- `process`, `completion` and `deadline` by their numbers. -/
structure SidecarService where
  process : Option Nat
  completion : Option Nat
  deadline : Option Nat
  /-- How many requests there were. -/
  requests : Nat
  children : Nat → Option Child

def initial : SidecarService := ⟨none, none, none, 0, fun _ => none⟩

inductive Output where
  | reply (request : Nat) (value : Object)
  | start (child : Nat) (arguments : List String)
  | kill (child : Nat)
  deriving DecidableEq

/-- What a request finds: `isActive()`, `available`, and whether the child starts. -/
structure Surroundings where
  active : Bool
  available : Bool
  starts : Bool

/-- `^sidecar:[0-9a-f]{64}$` on a string of 72 bytes of UTF-8, which leaves no room for a line end. -/
def isDestination (id : String) : Bool :=
  id.utf8ByteSize = 72 && id.toList.take 8 = "sidecar:".toList && (id.toList.drop 8).length = 64 &&
    (id.toList.drop 8).all fun c => ('0' ≤ c && c ≤ '9') || ('a' ≤ c && c ≤ 'f')

/-- The arguments of the helper, or why the request is refused. -/
def arguments (value : Object) : Except String (List String) :=
  match Object.text value "action" with
  | some action =>
      if action = "display-list" then .ok ["list"]
      else if action = "display-connect" ∨ action = "display-disconnect" then
        match Object.text value "id" with
        | some id =>
            if isDestination id then
              .ok [if action = "display-connect" then "connect" else "disconnect", id]
            else .error "Invalid display destination"
        | none => .error "Invalid display destination"
      else .error "Unsupported display action"
  | none => .error "Unsupported display action"

def ended : Object :=
  failure ("Display operation ended; connection outcome is unknown. " ++
    "Refresh the list before retrying.")

namespace SidecarService

def setChild (s : SidecarService) (n : Nat) (c : Child) : SidecarService :=
  { s with children := Function.update s.children n (some c) }

/-- A child that is set is found. -/
theorem setChild_self (s : SidecarService) (n : Nat) (c : Child) :
    (s.setChild n c).children n = some c := Function.update_self ..

/-- The other children are as they were. -/
theorem setChild_other (s : SidecarService) {m n : Nat} (c : Child) (h : m ≠ n) :
    (s.setChild n c).children m = s.children m := Function.update_of_ne h ..

/-- `deadline?.cancel()`. -/
def cancelItem (s : SidecarService) (n : Nat) : Option Child :=
  if s.deadline = some n then (s.children n).map fun c => { c with cancelled := true }
  else s.children n

/-- `finish`. -/
def finish (value : Object) (s : SidecarService) : List Output × SidecarService :=
  (s.completion.toList.map (.reply · value),
    { s with process := none, completion := none, deadline := none, children := s.cancelItem })

/-- `cancel`. -/
def cancel (s : SidecarService) : List Output × SidecarService :=
  match s.process with
  | none => ([], s)
  | some child =>
      let kills := if (s.children child).any Child.isRunning then [.kill child] else []
      (kills ++ (s.finish ended).1, (s.finish ended).2)

/-- The reply of a request that starts no child. -/
def refuse (s : SidecarService) (text : String) : List Output × SidecarService :=
  ([.reply s.requests (failure text)], { s with requests := s.requests + 1 })

/-- The child has started; its item and its reader are queued. -/
def track (s : SidecarService) : SidecarService :=
  { s with
    process := some s.requests
    completion := some s.requests
    deadline := some s.requests
    requests := s.requests + 1 }.setChild s.requests ⟨.reading [], none, true, false⟩

/-- `request`. -/
def request (value : Object) (S : Surroundings) (s : SidecarService) :
    List Output × SidecarService :=
  if S.active = false then s.refuse "The Mac desktop session is inactive"
  else if s.process.isSome then s.refuse "A display operation is already in progress"
  else if S.available = false then s.refuse "Host display controls are unavailable"
  else
    match arguments value with
    | .error text => s.refuse text
    | .ok arguments =>
        if S.starts = false then s.refuse "Could not start the host display helper"
        else ([.start s.requests arguments], s.track)

/-- The item of a deadline runs, unless it was cancelled. -/
def expire (n : Nat) (s : SidecarService) : Option (List Output × SidecarService) :=
  match s.children n with
  | none => none
  | some c =>
      if c.armed = false then none
      else
        let s := s.setChild n { c with armed := false }
        if c.cancelled then some ([], s)
        else if s.process = some n then some s.cancel
        else some ([], s)

/-- The block with the result of a child runs. -/
def complete (n : Nat) (s : SidecarService) : Option (List Output × SidecarService) :=
  match s.children n with
  | none => none
  | some c =>
      match c.reader with
      | .posted result =>
          let s := s.setChild n { c with reader := .done }
          if s.process = some n then some (s.finish result) else some ([], s)
      | _ => none

end SidecarService

inductive Event where
  | request (value : Object) (S : Surroundings)
  | cancel
  | expire (child : Nat)
  | complete (child : Nat)
  | act (child : Nat) (a : Activity)

def step (H : Host) (s : SidecarService) : Event → Option (List Output × SidecarService)
  | .request value S => some (s.request value S)
  | .cancel => some s.cancel
  | .expire n => s.expire n
  | .complete n => s.complete n
  | .act n a =>
      match s.children n with
      | none => none
      | some c => (c.act H a).map fun r => (if r.1 then [.kill n] else [], s.setChild n r.2)

/-! ### The slot -/

/-- The three fields are of one child, whose item was not cancelled; children are those of requests
that were made. -/
structure Tidy (s : SidecarService) : Prop where
  completion : s.completion = s.process
  deadline : s.deadline = s.process
  item : ∀ n c, s.process = some n → s.children n = some c → c.cancelled = false
  child : ∀ n, s.process = some n → (s.children n).isSome
  made : ∀ n, (s.children n).isSome → n < s.requests

/-- At the start there is no child. -/
theorem tidy_initial : Tidy initial := ⟨rfl, rfl, nofun, nofun, nofun⟩

/-- What a step does to the slot. -/
inductive Move (H : Host) (s : SidecarService) : Event → List Output → SidecarService → Prop where
  | refuse {value : Object} {S : Surroundings} {s' : SidecarService} (text : String)
      (hrequests : s'.requests = s.requests + 1) (hprocess : s'.process = s.process) :
      Move H s (.request value S) [.reply s.requests (failure text)] s'
  | start {value : Object} {S : Surroundings} {s' : SidecarService} (arguments : List String)
      (hrequests : s'.requests = s.requests + 1) (hfree : s.process = none)
      (hprocess : s'.process = some s.requests) :
      Move H s (.request value S) [.start s.requests arguments] s'
  | settle {e : Event} {o : List Output} {s' : SidecarService} {n : Nat}
      (he : e = .cancel ∨ e = .expire n)
      (ho : o = [.reply n ended] ∨ o = [.kill n, .reply n ended])
      (hrequests : s'.requests = s.requests) (hheld : s.process = some n)
      (hprocess : s'.process = none) : Move H s e o s'
  | deliver {s' : SidecarService} {n : Nat} {c : Child} {result : Object}
      (hchild : s.children n = some c) (hposted : c.reader = .posted result)
      (hrequests : s'.requests = s.requests) (hheld : s.process = some n)
      (hprocess : s'.process = none) : Move H s (.complete n) [.reply n result] s'
  | quiet {e : Event} {o : List Output} {s' : SidecarService}
      (hrequest : ∀ value S, e ≠ .request value S) (hcancel : e = .cancel → s.process = none)
      (hitem : ∀ n, e = .expire n ∨ e = .complete n → s.process ≠ some n)
      (ho : ∀ x ∈ o, ∃ n, x = .kill n)
      (hrequests : s'.requests = s.requests) (hprocess : s'.process = s.process) : Move H s e o s'

section Step
variable {H : Host} {s s' : SidecarService} {e : Event} {o : List Output}

/-- A refusal keeps the three fields of one child. -/
theorem Tidy.refuse (h : Tidy s) (text : String) : Tidy (s.refuse text).2 :=
  ⟨h.completion, h.deadline, h.item, h.child, fun n hn => Nat.lt_succ_of_lt (h.made n hn)⟩

/-- A child's record changes, its item as it is. -/
theorem Tidy.setChild (h : Tidy s) {n : Nat} {c c' : Child} (hc : s.children n = some c)
    (hitem : c'.cancelled = c.cancelled) : Tidy (s.setChild n c') := by
  refine ⟨h.completion, h.deadline, fun m d hm hd => ?_, fun m hm => ?_, fun m hm => ?_⟩
  · by_cases heq : m = n
    · subst heq
      rw [s.setChild_self] at hd
      cases hd
      rw [hitem]
      exact h.item m c hm hc
    · rw [s.setChild_other _ heq] at hd
      exact h.item m d hm hd
  · by_cases heq : m = n
    · subst heq
      rw [s.setChild_self]
      rfl
    · rw [s.setChild_other _ heq]
      exact h.child m hm
  · by_cases heq : m = n
    · subst heq
      exact h.made m (by rw [hc]; rfl)
    · rw [s.setChild_other _ heq] at hm
      exact h.made m hm

theorem Tidy.finish (h : Tidy s) (value : Object) : Tidy (s.finish value).2 := by
  refine ⟨rfl, rfl, nofun, nofun, fun n hn => h.made n ?_⟩
  have hsome : (s.cancelItem n).isSome := hn
  rw [SidecarService.cancelItem] at hsome
  split at hsome
  · rwa [Option.isSome_map] at hsome
  · exact hsome

theorem Tidy.track (h : Tidy s) : Tidy s.track := by
  refine ⟨rfl, rfl, ?_, ?_, fun n hn => ?_⟩
  · rintro n c ⟨⟩ hc
    rw [SidecarService.track, SidecarService.setChild_self] at hc
    cases hc
    rfl
  · rintro n ⟨⟩
    rw [SidecarService.track, SidecarService.setChild_self]
    rfl
  · by_cases heq : n = s.requests
    · exact heq ▸ Nat.lt_succ_self n
    · rw [SidecarService.track, SidecarService.setChild_other _ _ heq] at hn
      exact Nat.lt_succ_of_lt (h.made n hn)

/-- Finishing replies to the request of the child that is tracked. -/
theorem finish_replies (h : Tidy s) {n : Nat} (hn : s.process = some n) (value : Object) :
    (s.finish value).1 = [.reply n value] := by
  rw [SidecarService.finish, h.completion, hn]
  rfl

/-- `cancel`, from the main queue or from the item of the tracked child. -/
theorem cancel_settles (h : Tidy s) {n : Nat} (hn : s.process = some n) :
    Tidy s.cancel.2 ∧ s.cancel.2.process = none ∧ s.cancel.2.requests = s.requests ∧
      (s.cancel.1 = [.reply n ended] ∨ s.cancel.1 = [.kill n, .reply n ended]) := by
  have hreplies := finish_replies h hn ended
  rw [SidecarService.cancel, hn]
  refine ⟨h.finish ended, rfl, rfl, ?_⟩
  dsimp only
  rw [hreplies]
  split
  · exact .inr rfl
  · exact .inl rfl

/-- A request is refused, or its child is tracked. -/
theorem request_cases (h : Tidy s) (value : Object) (S : Surroundings) :
    Tidy (s.request value S).2 ∧
      Move H s (.request value S) (s.request value S).1 (s.request value S).2 := by
  have hrefuse : ∀ text, Tidy (s.refuse text).2 ∧
      Move H s (.request value S) (s.refuse text).1 (s.refuse text).2 :=
    fun text => ⟨h.refuse text, .refuse text rfl rfl⟩
  rw [SidecarService.request]
  split
  · exact hrefuse _
  split
  · exact hrefuse _
  split
  · exact hrefuse _
  split
  · exact hrefuse _
  split
  · exact hrefuse _
  · rename_i _ hbusy _ _ _ _ _
    have hfree : s.process = none := by simpa using hbusy
    exact ⟨h.track, .start _ rfl hfree rfl⟩

/-- The deadline of a child ends it where it is the one that is tracked. -/
theorem expire_cases (h : Tidy s) {n : Nat} (hstep : s.expire n = some (o, s')) :
    Tidy s' ∧ Move H s (.expire n) o s' := by
  rw [SidecarService.expire] at hstep
  split at hstep
  · cases hstep
  next c hc =>
  split at hstep
  · cases hstep
  have hset : Tidy (s.setChild n { c with armed := false }) := h.setChild hc rfl
  dsimp only at hstep
  split at hstep
  · next hcancelled =>
      cases hstep
      refine ⟨hset, .quiet nofun nofun ?_ nofun rfl rfl⟩
      -- The item of the tracked child was not cancelled.
      rintro m (⟨⟨⟩⟩ | ⟨⟨⟩⟩) hm
      rw [h.item n c hm hc] at hcancelled
      cases hcancelled
  · split at hstep
    · next hheld =>
        obtain ⟨htidy, hprocess, hrequests, ho⟩ := cancel_settles hset hheld
        obtain ⟨rfl, rfl⟩ := Prod.ext_iff.mp (Option.some.inj hstep)
        exact ⟨htidy, .settle (.inr rfl) ho hrequests hheld hprocess⟩
    · next hother =>
        cases hstep
        refine ⟨hset, .quiet nofun nofun ?_ nofun rfl rfl⟩
        rintro m (⟨⟨⟩⟩ | ⟨⟨⟩⟩)
        exact hother

/-- The result of a child is its reply where it is the one that is tracked. -/
theorem complete_cases (h : Tidy s) {n : Nat} (hstep : s.complete n = some (o, s')) :
    Tidy s' ∧ Move H s (.complete n) o s' := by
  rw [SidecarService.complete] at hstep
  split at hstep
  · cases hstep
  next c hc =>
  split at hstep
  · next result hposted =>
      have hset : Tidy (s.setChild n { c with reader := .done }) := h.setChild hc rfl
      dsimp only at hstep
      split at hstep
      · next hheld =>
          have hreplies := finish_replies hset hheld result
          obtain ⟨rfl, rfl⟩ := Prod.ext_iff.mp (Option.some.inj hstep)
          rw [hreplies]
          exact ⟨hset.finish result, .deliver hc hposted rfl hheld rfl⟩
      · next hother =>
          cases hstep
          refine ⟨hset, .quiet nofun nofun ?_ nofun rfl rfl⟩
          rintro m (⟨⟨⟩⟩ | ⟨⟨⟩⟩)
          exact hother
  · cases hstep

/-- What a child does does not touch its deadline. -/
theorem act_cancelled {c c' : Child} {a : Activity} {killed : Bool}
    (h : c.act H a = some (killed, c')) : c'.cancelled = c.cancelled := by
  cases a with
  | read chunk =>
      rw [Child.act] at h
      split at h
      · split at h
        · cases h
          rfl
        split at h
        · cases h
        split at h <;>
        · cases h
          rfl
      · cases h
  | exit status =>
      obtain ⟨-, h⟩ := Option.ite_none_right_eq_some.mp h
      cases h
      rfl
  | wake =>
      rw [Child.act] at h
      split at h
      · cases h
        rfl
      · cases h

/-- **A step**, as what it does to the slot for a child. -/
theorem step_cases (h : Tidy s) (hstep : step H s e = some (o, s')) : Tidy s' ∧ Move H s e o s' := by
  cases e with
  | request value S =>
      obtain ⟨rfl, rfl⟩ := Prod.ext_iff.mp (Option.some.inj hstep)
      exact request_cases h value S
  | cancel =>
      cases hprocess : s.process with
      | none =>
          rw [step, SidecarService.cancel, hprocess] at hstep
          cases hstep
          exact ⟨h, .quiet nofun (fun _ => hprocess) nofun nofun rfl rfl⟩
      | some n =>
          obtain ⟨htidy, hnone, hrequests, ho⟩ := cancel_settles h hprocess
          obtain ⟨rfl, rfl⟩ := Prod.ext_iff.mp (Option.some.inj hstep)
          exact ⟨htidy, .settle (.inl rfl) ho hrequests hprocess hnone⟩
  | expire n => exact expire_cases h hstep
  | complete n => exact complete_cases h hstep
  | act n a =>
      rw [step] at hstep
      split at hstep
      · cases hstep
      next c hc =>
      obtain ⟨⟨killed, c'⟩, hact, hstep⟩ := Option.map_eq_some_iff.mp hstep
      cases hstep
      refine ⟨h.setChild hc (act_cancelled hact), .quiet nofun nofun nofun ?_ rfl rfl⟩
      intro x hx
      split at hx
      · exact ⟨n, List.mem_singleton.mp hx⟩
      · cases hx

end Step

/-! ### Runs -/

abbrev Trace := List (Event × List Output)

abbrev Run (H : Host) : SidecarService → Trace → SidecarService → Prop :=
  Steps fun s e o s' => step H s e = some (o, s')

def Event.isRequest : Event → Bool
  | .request _ _ => true
  | _ => false

/-- The output is a reply to the request. -/
def Output.answers (n : Nat) : Output → Bool
  | .reply m _ => m = n
  | _ => false

/-- How many requests were made. -/
def requestsMade (t : Trace) : Nat := t.countP (·.1.isRequest)

/-- How often the request was replied to. -/
def replies (n : Nat) (t : Trace) : Nat := (t.flatMap (·.2)).countP (Output.answers n)

/-- A child was started for the request. -/
def Started (n : Nat) (t : Trace) : Prop := ∃ x ∈ t, ∃ arguments, .start n arguments ∈ x.2

/-- The child was started, and since then there was no `cancel`, its deadline did not run, and no
other child was started. -/
def Undisturbed (n : Nat) (t : Trace) : Prop :=
  ∃ u value S arguments v, t = u ++ (Event.request value S, [Output.start n arguments]) :: v ∧
    requestsMade u = n ∧
    ∀ x ∈ v, x.1 ≠ .cancel ∧ x.1 ≠ .expire n ∧ ∀ m arguments, .start m arguments ∉ x.2

/-- The result of the child waits on the main queue. -/
def Posted (s : SidecarService) (n : Nat) (result : Object) : Prop :=
  ∃ c, s.children n = some c ∧ c.reader = .posted result

@[simp] theorem requestsMade_append (t u : Trace) : requestsMade (t ++ u) = requestsMade t + requestsMade u :=
  List.countP_append

@[simp] theorem replies_append (n : Nat) (t u : Trace) :
    replies n (t ++ u) = replies n t + replies n u := by
  rw [replies, List.flatMap_append, List.countP_append]
  rfl

theorem started_append {n : Nat} {t u : Trace} : Started n (t ++ u) ↔ Started n t ∨ Started n u := by
  simp only [Started, List.mem_append, or_and_right, exists_or]

/-- A child stays undisturbed by what neither cancels, ends nor replaces it. -/
theorem Undisturbed.later {n : Nat} {t : Trace} {e : Event} {o : List Output} (h : Undisturbed n t)
    (hcancel : e ≠ .cancel) (hitem : e ≠ .expire n) (ho : ∀ m arguments, .start m arguments ∉ o) :
    Undisturbed n (t ++ [(e, o)]) := by
  obtain ⟨u, value, S, arguments, v, rfl, hn, hv⟩ := h
  refine ⟨u, value, S, arguments, v ++ [(e, o)], by simp, hn, fun x hx => ?_⟩
  rcases List.mem_append.mp hx with hx | hx
  · exact hv x hx
  · obtain rfl := List.mem_singleton.mp hx
    exact ⟨hcancel, hitem, ho⟩

/-- What a run has done, from the state it leads to: every request was replied to once, but the one
whose child is tracked. -/
structure Kept (s : SidecarService) (t : Trace) : Prop where
  tidy : Tidy s
  count : requestsMade t = s.requests
  once : ∀ n, replies n t = if n < s.requests ∧ s.process ≠ some n then 1 else 0
  started : ∀ n, Started n t → n < s.requests
  tracked : ∀ n, s.process = some n → n < s.requests ∧ Started n t ∧ Undisturbed n t

/-- At the start no request was made. -/
theorem kept_initial : Kept initial [] :=
  ⟨tidy_initial, rfl, fun _ => rfl, nofun, nofun⟩

section Kept
variable {H : Host} {s s' : SidecarService} {t : Trace} {e : Event} {o : List Output}

/-- The replies of one step. -/
theorem replies_one (n : Nat) (e : Event) (o : List Output) :
    replies n [(e, o)] = o.countP (Output.answers n) := by
  rw [replies, List.flatMap_singleton]

/-- A child is started in one step. -/
theorem started_one {n : Nat} : Started n [(e, o)] ↔ ∃ arguments, .start n arguments ∈ o := by
  simp only [Started, List.mem_singleton, exists_eq_left]

/-- The slot is as before, and no child was started. -/
theorem Kept.tracked_later (h : Kept s t) (hprocess : s'.process = s.process)
    (hrequests : s.requests ≤ s'.requests) (hcancel : e = .cancel → s.process = none)
    (hitem : ∀ n, e = .expire n → s.process ≠ some n) (ho : ∀ m arguments, .start m arguments ∉ o)
    (n : Nat) (hn : s'.process = some n) :
    n < s'.requests ∧ Started n (t ++ [(e, o)]) ∧ Undisturbed n (t ++ [(e, o)]) := by
  rw [hprocess] at hn
  obtain ⟨hlt, hstarted, hfresh⟩ := h.tracked n hn
  refine ⟨hlt.trans_le hrequests, started_append.mpr (.inl hstarted), hfresh.later ?_ ?_ ho⟩
  · intro he
    rw [hcancel he] at hn
    cases hn
  · exact fun he => hitem n he hn

/-- The tracked request is replied to, and the slot is free. -/
theorem Kept.settle (h : Kept s t) (htidy : Tidy s') {n : Nat} (hheld : s.process = some n)
    (hrequest : e.isRequest = false) (hreplies : ∀ m, o.countP (Output.answers m) = if m = n then 1 else 0)
    (ho : ∀ m arguments, .start m arguments ∉ o) (hrequests : s'.requests = s.requests)
    (hprocess : s'.process = none) : Kept s' (t ++ [(e, o)]) := by
  obtain ⟨hlt, -, -⟩ := h.tracked n hheld
  refine ⟨htidy, ?_, fun m => ?_, fun m hm => ?_, fun m hm => ?_⟩
  · rw [requestsMade_append, h.count, hrequests, requestsMade, List.countP_singleton, hrequest]
    rfl
  · rw [replies_append, h.once, replies_one, hreplies, hrequests, hprocess, hheld]
    by_cases hm : m = n
    · simp [hm, hlt]
    · simp [hm, Ne.symm hm]
  · rcases started_append.mp hm with hm | hm
    · exact hrequests ▸ h.started m hm
    · obtain ⟨arguments, hmem⟩ := started_one.mp hm
      exact absurd hmem (ho m arguments)
  · rw [hprocess] at hm
    cases hm

/-- Each step keeps the account of the replies. -/
theorem kept_step (h : Kept s t) (hstep : step H s e = some (o, s')) : Kept s' (t ++ [(e, o)]) := by
  obtain ⟨htidy, hmove⟩ := step_cases h.tidy hstep
  cases hmove with
  | @refuse value S _ text hrequests hprocess =>
      -- The request is a new one, and no child is tracked for it.
      have hnew : s.process ≠ some s.requests := fun hn => Nat.lt_irrefl _ (h.tracked _ hn).1
      refine ⟨htidy, ?_, fun n => ?_, fun n hn => ?_, ?_⟩
      · rw [requestsMade_append, h.count, hrequests]
        rfl
      · rw [replies_append, h.once, replies_one, hrequests, hprocess, List.countP_singleton]
        by_cases hn : n = s.requests
        · simp [hn, hnew, Output.answers]
        · have hlt : n < s.requests + 1 ↔ n < s.requests := by omega
          simp [hlt, Ne.symm hn, Output.answers]
      · rcases started_append.mp hn with hn | hn
        · exact hrequests ▸ Nat.lt_succ_of_lt (h.started n hn)
        · obtain ⟨arguments, hmem⟩ := started_one.mp hn
          cases List.mem_singleton.mp hmem
      · refine h.tracked_later hprocess (hrequests ▸ Nat.le_succ _) nofun nofun ?_
        exact fun m arguments hmem => nomatch List.mem_singleton.mp hmem
  | @start value S _ arguments hrequests hfree hprocess =>
      refine ⟨htidy, ?_, fun n => ?_, fun n hn => ?_, fun n hn => ?_⟩
      · rw [requestsMade_append, h.count, hrequests]
        rfl
      · rw [replies_append, h.once, replies_one, hrequests, hprocess, hfree]
        by_cases hn : n = s.requests
        · simp [hn, Output.answers]
        · have hlt : n < s.requests + 1 ↔ n < s.requests := by omega
          simp [hlt, Ne.symm hn, Output.answers]
      · rcases started_append.mp hn with hn | hn
        · exact hrequests ▸ Nat.lt_succ_of_lt (h.started n hn)
        · obtain ⟨_, hmem⟩ := started_one.mp hn
          cases List.mem_singleton.mp hmem
          exact hrequests ▸ Nat.lt_succ_self _
      · rw [hprocess] at hn
        cases hn
        refine ⟨hrequests ▸ Nat.lt_succ_self _, started_append.mpr (.inr (started_one.mpr ?_)), ?_⟩
        · exact ⟨arguments, List.mem_singleton.mpr rfl⟩
        · exact ⟨t, value, S, arguments, [], rfl, h.count, nofun⟩
  | @settle _ _ _ n he ho hrequests hheld hprocess =>
      refine h.settle htidy hheld ?_ (fun m => ?_) (fun m arguments hmem => ?_) hrequests hprocess
      · rcases he with rfl | rfl <;> rfl
      · rcases ho with rfl | rfl <;> simp [Output.answers, List.countP_cons, eq_comm]
      · rcases ho with rfl | rfl <;> simp at hmem
  | @deliver _ n _ result _ _ hrequests hheld hprocess =>
      refine h.settle htidy hheld rfl (fun m => ?_) (fun m arguments hmem => ?_) hrequests hprocess
      · simp [Output.answers, List.countP_cons, eq_comm]
      · simp at hmem
  | quiet hrequest hcancel hitem ho hrequests hprocess =>
      have hstart : ∀ m arguments, .start m arguments ∉ o := fun m arguments hmem =>
        nomatch (ho _ hmem).choose_spec
      have hkinds : e.isRequest = false := by
        cases e with
        | request value S => exact absurd rfl (hrequest value S)
        | _ => rfl
      have hsilent : ∀ n, o.countP (Output.answers n) = 0 := fun n =>
        List.countP_eq_zero.mpr fun x hx => by
          obtain ⟨m, rfl⟩ := ho x hx
          exact Bool.false_ne_true
      refine ⟨htidy, ?_, fun n => ?_, fun n hn => ?_, ?_⟩
      · rw [requestsMade_append, h.count, hrequests, requestsMade, List.countP_singleton, hkinds]
        rfl
      · rw [replies_append, h.once, replies_one, hsilent, hrequests, hprocess]
        rfl
      · rcases started_append.mp hn with hn | hn
        · exact hrequests ▸ h.started n hn
        · obtain ⟨arguments, hmem⟩ := started_one.mp hn
          exact absurd hmem (hstart n arguments)
      · exact h.tracked_later hprocess hrequests.ge hcancel (fun n he => hitem n (.inl he)) hstart

theorem kept_run (h : Run H initial t s) : Kept s t :=
  Steps.invariant_trace (I := Kept) kept_step h kept_initial

/-- A request whose child is not tracked is not tracked again. -/
theorem settled_step {n : Nat} (hs : Tidy s ∧ n < s.requests ∧ s.process ≠ some n)
    (hstep : step H s e = some (o, s')) : Tidy s' ∧ n < s'.requests ∧ s'.process ≠ some n := by
  obtain ⟨hs, hlt, hn⟩ := hs
  obtain ⟨htidy, hmove⟩ := step_cases hs hstep
  refine ⟨htidy, ?_⟩
  cases hmove with
  | refuse text hrequests hprocess => exact ⟨by omega, hprocess ▸ hn⟩
  | start arguments hrequests hfree hprocess =>
      refine ⟨by omega, fun heq => ?_⟩
      obtain rfl := Option.some.inj (hprocess.symm.trans heq)
      exact Nat.lt_irrefl _ hlt
  | settle he ho hrequests hheld hprocess => exact ⟨by omega, by rw [hprocess]; nofun⟩
  | deliver hchild hposted hrequests hheld hprocess => exact ⟨by omega, by rw [hprocess]; nofun⟩
  | quiet hrequest hcancel hitem ho hrequests hprocess => exact ⟨by omega, hprocess ▸ hn⟩

/-- After `cancel`, the deadline or the result of a child, the child is not tracked. -/
theorem settles {n : Nat} (h : Tidy s) (hstep : step H s e = some (o, s'))
    (he : e = .cancel ∨ e = .expire n ∨ e = .complete n) : s'.process ≠ some n := by
  obtain ⟨-, hmove⟩ := step_cases h hstep
  cases hmove with
  | refuse | start => rcases he with he | he | he <;> cases he
  | settle _ _ _ _ hprocess => rw [hprocess]; nofun
  | deliver _ _ _ _ hprocess => rw [hprocess]; nofun
  | quiet hrequest hcancel hitem ho hrequests hprocess =>
      rw [hprocess]
      rcases he with he | he
      · rw [hcancel he]
        nofun
      · exact hitem n he

end Kept

/-- What a reply may be, in the state and after the trace before it: the refusal of the request, the
reply of `cancel` or of the deadline, or the result of the request's own child. -/
inductive Proper (s : SidecarService) (t : Trace) (n : Nat) (value : Object) : Event → Prop where
  | refused {v : Object} {S : Surroundings} (text : String) (hn : n = requestsMade t)
      (hvalue : value = failure text) : Proper s t n value (.request v S)
  | ended {e : Event} (he : e = .cancel ∨ e = .expire n) (hvalue : value = ended) : Proper s t n value e
  | delivered (hposted : Posted s n value) (hfresh : Undisturbed n t) : Proper s t n value (.complete n)

/-- Every reply is a refusal, that of `cancel` or of the deadline, or the child's own result. -/
theorem reply_proper {H : Host} {s s' : SidecarService} {t : Trace} {e : Event} {o : List Output} {n : Nat}
    {value : Object} (h : Kept s t) (hstep : step H s e = some (o, s')) (hmem : .reply n value ∈ o) :
    Proper s t n value e := by
  obtain ⟨-, hmove⟩ := step_cases h.tidy hstep
  cases hmove with
  | refuse text =>
      cases List.mem_singleton.mp hmem
      exact .refused text h.count.symm rfl
  | start arguments => cases List.mem_singleton.mp hmem
  | settle he ho =>
      rcases ho with rfl | rfl
      · cases List.mem_singleton.mp hmem
        exact .ended he rfl
      · cases List.mem_singleton.mp ((List.mem_cons.mp hmem).resolve_left nofun)
        exact .ended he rfl
  | deliver hchild hposted _ hheld =>
      cases List.mem_singleton.mp hmem
      exact .delivered ⟨_, hchild, hposted⟩ (h.tracked _ hheld).2.2
  | quiet _ _ _ ho => cases (ho _ hmem).choose_spec

/-- **A request is answered once, and never by another's child.**  It is answered once at most; once
if no child is started for it, and once if `cancel`, its deadline or the result of its child comes
after it.  The child that is tracked is the one whose request has no answer; and a result is the
reply of its own request only, with neither a `cancel` nor the deadline nor another child since. -/
theorem answered_once (H : Host) {t : Trace} {s : SidecarService} (h : Run H initial t s) :
    (∀ n, replies n t ≤ 1) ∧
    (∀ n, n < requestsMade t → ¬ Started n t → replies n t = 1) ∧
    (∀ u e o v n, t = u ++ (e, o) :: v → n < requestsMade u →
      e = .cancel ∨ e = .expire n ∨ e = .complete n → replies n t = 1) ∧
    (∀ n, s.process = some n ↔ Started n t ∧ replies n t = 0) ∧
    ∀ u e o v n value, t = u ++ (e, o) :: v → Output.reply n value ∈ o →
      ∃ m, Run H initial u m ∧ Proper m u n value e := by
  have hkept := kept_run h
  refine ⟨fun n => ?_, fun n hn hstarted => ?_, ?_, fun n => ⟨fun hn => ?_, ?_⟩, ?_⟩
  · rw [hkept.once]
    split <;> decide
  · rw [hkept.once, if_pos ⟨hkept.count ▸ hn, fun hheld => hstarted (hkept.tracked n hheld).2.1⟩]
  · rintro u e o v n rfl hn he
    obtain ⟨m, m', hu, hstep, hv⟩ := h.split_at
    have hbefore := kept_run hu
    have htidy := (step_cases hbefore.tidy hstep).1
    have hlt : n < m'.requests := by
      have hcount := (kept_step hbefore hstep).count
      rw [requestsMade_append] at hcount
      omega
    obtain ⟨-, hmade, hfree⟩ :=
      Steps.invariant (I := fun s => Tidy s ∧ n < s.requests ∧ s.process ≠ some n) settled_step hv
        ⟨htidy, hlt, settles hbefore.tidy hstep he⟩
    rw [hkept.once, if_pos ⟨hmade, hfree⟩]
  · refine ⟨(hkept.tracked n hn).2.1, ?_⟩
    rw [hkept.once, if_neg fun hfree => hfree.2 hn]
  · rintro ⟨hstarted, hnone⟩
    by_contra hother
    rw [hkept.once, if_pos ⟨hkept.started n hstarted, hother⟩] at hnone
    cases hnone
  · rintro u e o v n value rfl hmem
    obtain ⟨m, m', hu, hstep, -⟩ := h.split_at
    exact ⟨m, hu, reply_proper (kept_run hu) hstep hmem⟩

/-- `{"ok":true}`. -/
def listText : Data := [0x7b, 0x22, 0x6f, 0x6b, 0x22, 0x3a, 0x74, 0x72, 0x75, 0x65, 0x7d]

/-- A host that reads it. -/
def listHost : Host where
  foundation :=
    { sampleFoundation with
      jsonObject := fun d => if d = listText then some (.obj [("ok", .bool true)]) else none }
  token := "0123456789abcdef0123456789abcdef"
  powerEnabled := true
  bundleID := "Ashacky"
  bridged := fun _ => none

def listRequest : Event := .request [("action", .str "display-list")] ⟨true, true, true⟩

/-- A child has listed the displays when it is cancelled, and its result comes while another one
runs. -/
def lateEvents : List Event :=
  [listRequest, .act 0 (.read listText), .act 0 (.exit 0), .cancel, listRequest, .act 0 (.read []),
    .act 0 .wake, .act 1 (.read listText), .complete 0, .act 1 (.read []), .act 1 (.exit 0),
    .act 1 .wake, .complete 1]

/-- The first request gets the reply of `cancel`, the second the result of its own child; the late
result is not delivered. -/
theorem answered_once_late :
    ∃ t s, Run listHost initial t s ∧ t.map Prod.fst = lateEvents ∧
      t.flatMap (·.2) = [.start 0 ["list"], .reply 0 ended, .start 1 ["list"],
        .reply 1 [("ok", .bool true)]] ∧
      (∀ o, (.complete 0, o) ∈ t → o = []) ∧ replies 0 t = 1 ∧ replies 1 t = 1 := by
  have hplay : (play (step listHost) initial lateEvents).map
      (fun r => (r.1.flatMap (·.2), r.2.process,
        r.1.all fun x => match x.1 with | .complete 0 => x.2.isEmpty | _ => true)) =
      some ([.start 0 ["list"], .reply 0 ended, .start 1 ["list"],
        .reply 1 [("ok", .bool true)]], none, true) := by decide +kernel
  obtain ⟨⟨t, s⟩, hplayed, hresult⟩ := Option.map_eq_some_iff.mp hplay
  obtain ⟨hout, hprocess, hlate⟩ := by simpa only [Prod.mk.injEq] using hresult
  have hrun : Run listHost initial t s := Steps.of_play hplayed
  obtain ⟨honce, -, -, htracked, -⟩ := answered_once listHost hrun
  -- nobody is tracked in the end, so whoever was started has been answered
  have hanswered : ∀ n, .start n ["list"] ∈ t.flatMap (·.2) → replies n t = 1 := by
    intro n hmem
    obtain ⟨x, hx, hstart⟩ := List.mem_flatMap.mp hmem
    have hfree : ¬ (Started n t ∧ replies n t = 0) := by
      rw [← htracked, hprocess]
      nofun
    have hsome : replies n t ≠ 0 := fun h => hfree ⟨⟨x, hx, _, hstart⟩, h⟩
    have := honce n
    omega
  refine ⟨t, s, hrun, play_events hplayed, hout, fun o ho => ?_, hanswered 0 (by simp [hout]),
    hanswered 1 (by simp [hout])⟩
  exact List.isEmpty_iff.mp (List.all_eq_true.mp hlate _ ho)

end Ashacky.Sidecar
