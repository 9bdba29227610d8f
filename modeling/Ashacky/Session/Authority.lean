import Ashacky.Session.Control

/-!
# Session — Authority

What stands behind every host action that is executed.

* `step_cases`: what a step does to the arm, the delayed blocks and the calls of the power helper.
* `authority_step`: the pending arm was set by a request for it and held since; a delayed block comes
  of a clean stop of the guest; a call that stops the host comes of such a block.
* `accounts_step`: every arm is in one place only, and at most once among what was executed.
* `host_actions`: what is executed was armed, confirmed and released; an arm is executed at most
  once; arms do not overlap; and only the supervisor's socket can report that the guest stopped.
-/

namespace Ashacky.Session
open Ashacky.Support Ashacky.Control

/-! ### Executions -/

/-- The action that stops the host when the effect happens. -/
def Effect.executes : Effect → Option Action
  | .helper request _ => (Object.text request "action").bind Action.ofName
  | .logOut _ => some .logout
  | _ => none

/-- The arm that the effect comes of. -/
def Effect.arm : Effect → Option Arm
  | .helper _ arm => arm
  | .logOut arm => some arm
  | _ => none

/-- The arms of the actions that were executed. -/
def executed (t : Trace) : List Arm :=
  t.flatMap fun s => s.2.filterMap fun x => if x.executes.isSome then x.arm else none

/-! ### What a step is -/

/-- The step handles the message. -/
def Handles (c : Control) (m : Message) (e : Event) : Prop :=
  c.queue.head? = some m ∧ ∃ S, e = .handle S

/-- The step drops a pending arm: the session resigns or stops, a request other than for the status
finds the session inactive, the time is over, or the guest is not known to have stopped cleanly in
time. -/
def Disarms (H : Host) (c : Control) (e : Event) : Prop :=
  e = .resign ∨ e = .stop ∨ (e = .tick ∧ c.deadline < c.date) ∨
  ∃ m, Handles c m e ∧ m.bears H.token ∧ m.action ≠ "status" ∧
    (c.active = false ∨ m.action = "vm-stopped" ∧ (H.isTrue m.value "clean" = false ∨
      c.deadline ≤ c.date))

/-- The step arms the action at the given date: the session is active, nothing is pending, actions
are enabled, and the request for it bears the token. -/
def Arms (H : Host) (arm : Arm) (date : Nat) (c : Control) (e : Event) (c' : Control) : Prop :=
  ∃ m, Handles c m e ∧ m.bears H.token ∧ m.action = arm.action.name ∧ c.active = true ∧
    H.powerEnabled = true ∧ c.pending = none ∧ c'.pending = some arm ∧ c'.date = date

/-- The arm stays pending, and the step is not one that drops it. -/
def Holds (H : Host) (arm : Arm) (c : Control) (e : Event) (c' : Control) : Prop :=
  c.pending = some arm ∧ c'.pending = some arm ∧ ¬ Disarms H c e

section Chain
variable (H : Host) (c₀ : Control) (arm : Arm)

/-- The action was armed at the given date, and the arm held since. -/
def Armed (date : Nat) (t : Trace) (c : Control) : Prop :=
  Since (fun c e o c' => step H c e = some (o, c')) (fun _ c e _ c' => Arms H arm date c e c')
    (fun c e _ c' => Holds H arm c e c') c₀ t c

/-- The step confirms the arm: the supervisor reports that the guest stopped cleanly, less than 120
seconds after it was armed, and the arm is still pending. -/
def Confirms (t : Trace) (c : Control) (e : Event) : Prop :=
  ∃ m date, Handles c m e ∧ m.origin = .supervisor ∧ m.bears H.token ∧ m.action = "vm-stopped" ∧
    H.isTrue m.value "clean" = true ∧ c.active = true ∧ c.pending = some arm ∧
    c.date < date + 120 * second ∧ Armed H c₀ arm date t c

/-- The arm was confirmed a second before the given time. -/
def Confirmed (due : Nat) (t : Trace) (c : Control) : Prop :=
  Once (fun c e o c' => step H c e = some (o, c'))
    (fun t c e _ _ => Confirms H c₀ arm t c e ∧ due = c.uptime + second) c₀ t c

/-- The step releases the arm: the block runs a second or more after the confirmation, and the
session is active. -/
def Releases (t : Trace) (c : Control) (e : Event) : Prop :=
  ∃ n due, e = .delayed n ∧ c.delayed[n]? = some ⟨arm, due⟩ ∧ due ≤ c.uptime ∧ c.active = true ∧
    Confirmed H c₀ arm due t c

/-- The arm was released. -/
def Released (t : Trace) (c : Control) : Prop :=
  Once (fun c e o c' => step H c e = some (o, c'))
    (fun t c e _ _ => Releases H c₀ arm t c e) c₀ t c

end Chain

/-! ### Steps -/

/-- The part of the state that an action goes through. -/
structure Ledger where
  pending : Option Arm
  deadline : Nat
  delayed : List Delayed
  jobs : List Job
  armed : Nat

def Control.ledger (c : Control) : Ledger := ⟨c.pending, c.deadline, c.delayed, c.jobs, c.armed⟩

/-- What a step does to that part. -/
inductive Change (H : Host) (c : Control) (e : Event) (o : List Effect) (c' : Control) : Prop where
  | keeps (jobs : List Job) (hjobs : ∀ j ∈ jobs, j.arm = none ∧ Action.ofName j.action = none)
      (h : c'.ledger = { c.ledger with jobs := c.jobs ++ jobs })
      (held : c.pending ≠ none → ¬ Disarms H c e) (ho : ∀ x ∈ o, x.executes = none)
  | drops (h : c'.ledger = { c.ledger with pending := none }) (hd : Disarms H c e)
      (ho : ∀ x ∈ o, x.executes = none)
  | arms (action : Action)
      (h : c'.ledger = { c.ledger with
        pending := some ⟨c.armed, action⟩
        deadline := c'.date + 120 * second
        armed := c.armed + 1 })
      (ha : Arms H ⟨c.armed, action⟩ c'.date c e c') (ho : ∀ x ∈ o, x.executes = none)
  | confirms (m : Message) (arm : Arm) (hm : Handles c m e) (ht : m.bears H.token)
      (hv : m.action = "vm-stopped") (hclean : H.isTrue m.value "clean" = true)
      (hactive : c.active = true) (hp : c.pending = some arm) (hdate : c.date < c.deadline)
      (h : c'.ledger = { c.ledger with
        pending := none
        delayed := c.delayed ++ [⟨arm, c.uptime + second⟩] })
      (ho : ∀ x ∈ o, x.executes = none)
  | releases (n : Nat) (b : Delayed) (he : e = .delayed n) (hb : c.delayed[n]? = some b)
      (hdue : b.due ≤ c.uptime) (logOut : List Arm) (jobs : List Job)
      (h : c'.ledger = { c.ledger with
        delayed := c.delayed.eraseIdx n
        jobs := c.jobs ++ jobs })
      (ho : o = logOut.map .logOut)
      (hr : logOut = [] ∧ jobs = [] ∨
        c.active = true ∧ logOut = [b.arm] ∧ b.arm.action = .logout ∧ jobs = [] ∨
        c.active = true ∧ logOut = [] ∧ b.arm.action ≠ .logout ∧
          jobs = [⟨b.arm.action.name, some b.arm, c.uptime⟩])
  | runs (n : Nat) (j : Job) (he : e = .job n) (hj : c.jobs[n]? = some j)
      (h : c'.ledger = { c.ledger with jobs := c.jobs.eraseIdx n })
      (ho : o = power H j.action none j.arm)

section Step
variable {H : Host} {c c' : Control} {e : Event} {o : List Effect}

/-- The names of the actions are read back. -/
theorem ofName_eq_some {name : String} {action : Action} :
    Action.ofName name = some action ↔ name = action.name := by
  constructor
  · intro h
    have := List.find?_some h
    exact (of_decide_eq_true this).symm
  · rintro rfl
    cases action <;> decide

/-- What the power helper is asked for executes what the request names. -/
theorem executes_power {action : String} {operation : Option String} {arm : Option Arm}
    {x : Effect} (hx : x ∈ power H action operation arm) :
    x.executes = Action.ofName action ∧ x.arm = arm := by
  unfold power at hx
  split at hx
  · obtain rfl := List.mem_singleton.mp hx
    exact ⟨rfl, rfl⟩
  · cases hx

/-- A check executes nothing. -/
theorem executes_check {operation : String} {x y : Effect} (hy : y.executes = none)
    (hx : x ∈ power H "check" (some operation) none ++ [y]) : x.executes = none := by
  rcases List.mem_append.mp hx with hx | hx
  · exact (executes_power hx).1
  · rwa [List.mem_singleton.mp hx]

/-- A step that leaves the ledger as it was. -/
theorem Change.same (h : c'.ledger = c.ledger) (held : c.pending ≠ none → ¬ Disarms H c e)
    (ho : ∀ x ∈ o, x.executes = none) : Change H c e o c' :=
  .keeps [] nofun (by rw [h]; simp [Control.ledger]) held ho

section Handle
variable {S : Surroundings} {m : Message} {queue : List Message}

/-- A message with the token disarms when the session is inactive, or when it reports no clean stop
in time. -/
theorem disarms_handle (hq : c.queue = m :: queue) :
    Disarms H c (.handle S) ↔ m.bears H.token ∧ m.action ≠ "status" ∧
      (c.active = false ∨ m.action = "vm-stopped" ∧ (H.isTrue m.value "clean" = false ∨
        c.deadline ≤ c.date)) := by
  constructor
  · rintro (h | h | ⟨h, -⟩ | ⟨m', ⟨hm, -⟩, h⟩)
    · cases h
    · cases h
    · cases h
    · rw [hq] at hm
      cases hm
      exact h
  · intro h
    exact .inr (.inr (.inr ⟨m, ⟨by rw [hq]; rfl, S, rfl⟩, h⟩))

/-- A request for an action arms it, or is refused. -/
theorem arm_change (hq : c.queue = m :: queue) (ht : m.bears H.token) (hactive : c.active = true)
    {action : Action} (hm : m.action = action.name) :
    Change H c (.handle S) ({ c with queue := queue }.arm H S m action).1
      ({ c with queue := queue }.arm H S m action).2 := by
  have hheld : ¬ Disarms H c (.handle S) := by
    rw [disarms_handle hq, hm, hactive]
    cases action <;> simp [Action.name]
  have hhandles : Handles c m (.handle S) := ⟨by rw [hq]; rfl, S, rfl⟩
  unfold Control.arm
  dsimp only
  split
  · exact .same rfl (fun _ => hheld) (by simp [Effect.executes])
  rename_i hpending
  rw [not_not] at hpending
  split
  · exact .same rfl (fun _ => hheld) (by simp [Effect.executes])
  rename_i henabled
  rw [Bool.not_eq_false] at henabled
  split
  · rename_i hlogout
    subst hlogout
    exact .arms .logout rfl ⟨m, hhandles, ht, hm, hactive, henabled, hpending, rfl, rfl⟩
      (by simp [Effect.executes])
  split
  · exact .arms action rfl ⟨m, hhandles, ht, hm, hactive, henabled, hpending, rfl, rfl⟩
      fun x hx => executes_check rfl hx
  · exact .same rfl (fun _ => hheld) fun x hx => executes_check rfl hx

/-- The guest's end confirms the arm, or drops it. -/
theorem vmStopped_change (hq : c.queue = m :: queue) (ht : m.bears H.token)
    (hactive : c.active = true) (hm : m.action = "vm-stopped") :
    Change H c (.handle S) ({ c with queue := queue }.vmStopped H m).1
      ({ c with queue := queue }.vmStopped H m).2 := by
  unfold Control.vmStopped
  dsimp only
  cases hpending : c.pending with
  | none =>
      exact .same (by simp [Control.ledger, hpending]) (absurd hpending) (by simp [Effect.executes])
  | some arm =>
      dsimp only
      split
      · rename_i h
        exact .confirms m arm ⟨by rw [hq]; rfl, S, rfl⟩ ht hm h.2 hactive hpending h.1 rfl
          (by simp [Effect.executes])
      · rename_i h
        refine .drops rfl ?_ (by simp [Effect.executes])
        rw [disarms_handle hq, hm]
        refine ⟨ht, by decide, .inr ⟨rfl, ?_⟩⟩
        rw [not_and_or, Nat.not_lt, Bool.not_eq_true] at h
        exact h.symm

/-- A message without the token changes nothing of an action. -/
theorem authenticate_change (hheld : ¬ Disarms H c (.handle S)) :
    Change H c (.handle S) ({ c with queue := queue }.authenticate S m).1
      ({ c with queue := queue }.authenticate S m).2 := by
  unfold Control.authenticate
  dsimp only
  split
  · exact .same rfl (fun _ => hheld) (by simp [Effect.executes])
  split
  · exact .same rfl (fun _ => hheld) (by simp [Effect.executes])
  split <;> exact .same rfl (fun _ => hheld) (by simp [Effect.executes])

/-- A message of an active session is an allowed change. -/
theorem handleActive_change (hq : c.queue = m :: queue) (ht : m.bears H.token)
    (hactive : c.active = true) :
    Change H c (.handle S) ({ c with queue := queue }.handleActive H S m).1
      ({ c with queue := queue }.handleActive H S m).2 := by
  unfold Control.handleActive
  split
  · rename_i action haction
    exact arm_change hq ht hactive (ofName_eq_some.mp haction)
  by_cases hv : m.action = "vm-stopped"
  · rw [hv]
    exact vmStopped_change hq ht hactive hv
  have hheld : ¬ Disarms H c (.handle S) := by
    rw [disarms_handle hq, hactive]
    simp [hv]
  dsimp only
  split
  · split <;> exact .same rfl (fun _ => hheld) (by simp [Effect.executes])
  split
  · refine .same rfl (fun _ => hheld) fun x hx => ?_
    rcases List.mem_append.mp hx with hx | hx
    · split at hx
      · obtain rfl := List.mem_singleton.mp hx
        rfl
      · cases hx
    · rcases List.mem_pair.mp hx with rfl | rfl <;> rfl
  split
  · exact .same rfl (fun _ => hheld) fun x hx => executes_check rfl hx
  split
  · split
    · exact .keeps [_] (by simpa using by decide) rfl (fun _ => hheld)
        fun x hx => executes_check rfl hx
    · exact .same rfl (fun _ => hheld) fun x hx => executes_check rfl hx
  split
  · exact authenticate_change hheld
  · exact .same rfl (fun _ => hheld) (by simp [Effect.executes])

theorem handle_change (hq : c.queue = m :: queue) :
    Change H c (.handle S) ({ c with queue := queue }.handle H S m).1
      ({ c with queue := queue }.handle H S m).2 := by
  unfold Control.handle
  split
  · rename_i ht
    exact .same rfl (fun _ hd => ht ((disarms_handle hq).mp hd).1) (by simp [Effect.executes])
  rename_i ht
  rw [not_not] at ht
  split
  · rename_i hs
    exact .same rfl (fun _ hd => ((disarms_handle hq).mp hd).2.1 hs) (by simp [Effect.executes])
  rename_i hs
  dsimp only
  split
  · rename_i hactive
    exact .drops rfl ((disarms_handle hq).mpr ⟨ht, hs, .inl hactive⟩) (by simp [Effect.executes])
  · rename_i hactive
    exact handleActive_change hq ht (by simpa using hactive)

end Handle

/-- A connection changes nothing of an action. -/
theorem connect_ledger (origin : Origin) (owner : Bool) (value : Object) :
    (c.connect origin owner value).2.ledger = c.ledger := by
  unfold Control.connect
  split <;> rfl

theorem connect_executes (origin : Origin) (owner : Bool) (value : Object) :
    ∀ x ∈ (c.connect origin owner value).1, x.executes = none := by
  unfold Control.connect
  split <;> simp [Effect.executes]

/-- What is cancelled executes nothing. -/
theorem cancelled_executes {x : Effect} (hx : x ∈ c.cancelled) : x.executes = none := by
  unfold Control.cancelled at hx
  split at hx
  · obtain rfl := List.mem_singleton.mp hx
    rfl
  · cases hx

/-- A delayed block that is due releases its arm, or drops it. -/
theorem perform_change {n : Nat} {b : Delayed} (hb : c.delayed[n]? = some b)
    (hdue : b.due ≤ c.uptime) :
    Change H c (.delayed n) ({ c with delayed := c.delayed.eraseIdx n }.perform b).1
      ({ c with delayed := c.delayed.eraseIdx n }.perform b).2 := by
  unfold Control.perform
  dsimp only
  split
  · exact .releases n b rfl hb hdue [] [] (by simp [Control.ledger]) rfl (.inl ⟨rfl, rfl⟩)
  rename_i hactive
  rw [Bool.not_eq_false] at hactive
  split
  · rename_i hlogout
    exact .releases n b rfl hb hdue [b.arm] [] (by simp [Control.ledger]) rfl
      (.inr (.inl ⟨hactive, rfl, hlogout, rfl⟩))
  · rename_i hlogout
    exact .releases n b rfl hb hdue [] [_] rfl rfl (.inr (.inr ⟨hactive, rfl, hlogout, rfl⟩))

/-- **What a step does.** -/
theorem step_cases (h : step H c e = some (o, c')) : Change H c e o c' := by
  cases e with
  | connect supervisor owner value =>
      obtain ⟨-, h⟩ := Option.ite_none_right_eq_some.mp h
      obtain ⟨rfl, rfl⟩ := Prod.ext_iff.mp (Option.some.inj h)
      exact .same (connect_ledger _ _ _) (by simp [Disarms, Handles]) (connect_executes _ _ _)
  | channel e =>
      obtain ⟨-, h⟩ := Option.ite_none_right_eq_some.mp h
      cases h
      exact .same rfl (by simp [Disarms, Handles]) nofun
  | forward n =>
      rw [step] at h
      split at h
      · obtain ⟨-, h⟩ := Option.ite_none_right_eq_some.mp h
        obtain ⟨rfl, rfl⟩ := Prod.ext_iff.mp (Option.some.inj h)
        exact .same (connect_ledger _ _ _) (by simp [Disarms, Handles]) (connect_executes _ _ _)
      · cases h
  | handle S =>
      rw [step] at h
      split at h
      · rename_i m queue hq
        obtain ⟨rfl, rfl⟩ := Prod.ext_iff.mp (Option.some.inj h)
        exact handle_change hq
      · cases h
  | delayed n =>
      rw [step] at h
      split at h
      · rename_i b hb
        obtain ⟨hdue, h⟩ := Option.ite_none_right_eq_some.mp h
        obtain ⟨rfl, rfl⟩ := Prod.ext_iff.mp (Option.some.inj h)
        exact perform_change hb hdue
      · cases h
  | job n =>
      rw [step] at h
      split at h
      · rename_i j hj
        obtain ⟨-, h⟩ := Option.ite_none_right_eq_some.mp h
        cases h
        exact .runs n j rfl hj rfl rfl
      · cases h
  | evaluated success error =>
      rw [step] at h
      split at h
      · cases h
        exact .same rfl (by simp [Disarms, Handles]) (by simp [Effect.executes])
      · cases h
  | willSleep =>
      obtain ⟨-, h⟩ := Option.ite_none_right_eq_some.mp h
      cases h
      refine .same rfl (by simp [Disarms, Handles]) fun x hx => ?_
      rcases List.mem_append.mp hx with hx | hx
      · exact cancelled_executes hx
      · rw [List.mem_singleton.mp hx]
        rfl
  | didWake =>
      obtain ⟨-, h⟩ := Option.ite_none_right_eq_some.mp h
      cases h
      exact .same rfl (by simp [Disarms, Handles]) (by simp [Effect.executes])
  | resign =>
      obtain ⟨-, h⟩ := Option.ite_none_right_eq_some.mp h
      cases h
      refine .drops rfl (.inl rfl) fun x hx => ?_
      rcases List.mem_append.mp hx with hx | hx
      · exact cancelled_executes hx
      · rw [List.mem_singleton.mp hx]
        rfl
  | becomeActive =>
      obtain ⟨-, h⟩ := Option.ite_none_right_eq_some.mp h
      cases h
      exact .same rfl (by simp [Disarms, Handles]) (by simp [Effect.executes])
  | tick =>
      obtain ⟨-, h⟩ := Option.ite_none_right_eq_some.mp h
      cases h
      split
      · rename_i ht
        exact .drops rfl (.inr (.inr (.inl ⟨rfl, ht.2⟩))) nofun
      · rename_i ht
        -- Nothing is pending, or its time is not over.
        refine .same rfl (fun hp hd => ht ⟨hp, ?_⟩) nofun
        simpa [Disarms, Handles] using hd
  | stop =>
      obtain ⟨-, h⟩ := Option.ite_none_right_eq_some.mp h
      obtain ⟨rfl, rfl⟩ := Prod.ext_iff.mp (Option.some.inj h)
      exact .drops rfl (.inr (.inl rfl)) fun x hx => cancelled_executes hx
  | console active =>
      cases h
      exact .same rfl (by simp [Disarms, Handles]) nofun
  | clock date uptime =>
      cases h
      exact .same rfl (by simp [Disarms, Handles]) nofun

end Step

/-! ### Who reports a stop -/

/-- What waits on the main queue reports a stop only if it comes from the supervisor's socket. -/
def Vetted (c : Control) : Prop := ∀ m ∈ c.queue, m.action = "vm-stopped" → m.origin = .supervisor

section Vetted
variable {H : Host} {c c' : Control} {e : Event} {o : List Effect}

/-- Handling a message leaves the others queued. -/
theorem handle_queue (S : Surroundings) (m : Message) : (c.handle H S m).2.queue = c.queue := by
  unfold Control.handle
  split
  · rfl
  split
  · rfl
  split
  · rfl
  unfold Control.handleActive
  split
  · unfold Control.arm
    dsimp only
    split
    · rfl
    split
    · rfl
    split
    · rfl
    split <;> rfl
  split
  · split <;> rfl
  split
  · rfl
  split
  · rfl
  split
  · dsimp only
    split <;> rfl
  split
  · unfold Control.vmStopped
    dsimp only
    split
    · split <;> rfl
    · rfl
  split
  · unfold Control.authenticate
    split
    · rfl
    split
    · rfl
    split <;> rfl
  · rfl

/-- A connection queues a stop only from the supervisor's socket. -/
theorem Vetted.connect (h : Vetted c) (origin : Origin) (owner : Bool) (value : Object) :
    Vetted (c.connect origin owner value).2 := by
  unfold Control.connect
  split
  · exact h
  rename_i hnone
  intro m hm hv
  rcases List.mem_append.mp hm with hm | hm
  · exact h m hm hv
  · obtain rfl := List.mem_singleton.mp hm
    have htext : Object.text value "action" = some "vm-stopped" := by
      cases ht : Object.text value "action" with
      | none => simp [Message.action, ht] at hv
      | some name => simpa [Message.action, ht] using hv
    cases origin with
    | supervisor => rfl
    | channel | socket => cases owner <;> simp [Control.refusal, htext] at hnone

/-- What waits is vetted by itself. -/
theorem Vetted.congr (h : Vetted c) (hq : c'.queue = c.queue) : Vetted c' := by
  intro m hm
  rw [hq] at hm
  exact h m hm

/-- Each step keeps what waits vetted. -/
theorem vetted_step (hv : Vetted c) (h : step H c e = some (o, c')) : Vetted c' := by
  cases e with
  | connect supervisor owner value =>
      obtain ⟨-, h⟩ := Option.ite_none_right_eq_some.mp h
      obtain ⟨rfl, rfl⟩ := Prod.ext_iff.mp (Option.some.inj h)
      exact hv.connect _ _ _
  | forward n =>
      rw [step] at h
      split at h
      · obtain ⟨-, h⟩ := Option.ite_none_right_eq_some.mp h
        obtain ⟨rfl, rfl⟩ := Prod.ext_iff.mp (Option.some.inj h)
        exact hv.connect _ _ _
      · cases h
  | handle S =>
      rw [step] at h
      split at h
      · rename_i m queue hq
        obtain ⟨rfl, rfl⟩ := Prod.ext_iff.mp (Option.some.inj h)
        intro m' hm'
        rw [handle_queue] at hm'
        exact hv m' (by rw [hq]; exact .tail _ hm')
      · cases h
  | delayed n =>
      rw [step] at h
      split at h
      · obtain ⟨-, h⟩ := Option.ite_none_right_eq_some.mp h
        obtain ⟨rfl, rfl⟩ := Prod.ext_iff.mp (Option.some.inj h)
        refine hv.congr ?_
        unfold Control.perform
        split
        · rfl
        split <;> rfl
      · cases h
  | job n =>
      rw [step] at h
      split at h
      · obtain ⟨-, h⟩ := Option.ite_none_right_eq_some.mp h
        cases h
        exact hv
      · cases h
  | evaluated success error =>
      rw [step] at h
      split at h
      · cases h
        exact hv
      · cases h
  | tick =>
      obtain ⟨-, h⟩ := Option.ite_none_right_eq_some.mp h
      cases h
      refine hv.congr ?_
      split <;> rfl
  | channel | willSleep | didWake | resign | becomeActive | stop =>
      obtain ⟨-, h⟩ := Option.ite_none_right_eq_some.mp h
      cases h
      exact hv
  | console | clock =>
      cases h
      exact hv

end Vetted

/-! ### What stands behind an action -/

/-- The pending arm, the delayed blocks and the calls of the power helper have what they need. -/
structure Authority (H : Host) (c₀ : Control) (t : Trace) (c : Control) : Prop where
  run : Run H c₀ t c
  vetted : Vetted c
  pending : ∀ arm, c.pending = some arm →
    ∃ date, c.deadline = date + 120 * second ∧ Armed H c₀ arm date t c
  delayed : ∀ b ∈ c.delayed, Confirmed H c₀ b.arm b.due t c
  jobs : ∀ j ∈ c.jobs, ∀ action, Action.ofName j.action = some action →
    ∃ arm, j.arm = some arm ∧ arm.action = action ∧ Released H c₀ arm t c

section Authority
variable {H : Host} {c₀ c c' : Control} {e : Event} {o : List Effect} {t : Trace}

/-- At the start nothing is armed. -/
theorem authority_initial (active : Bool) (date uptime : Nat) (sidecar : Bool) :
    Authority H (.initial active date uptime sidecar) [] (.initial active date uptime sidecar) :=
  ⟨.refl _, nofun, nofun, nofun, nofun⟩

/-- What a step leaves in place keeps what stands behind it. -/
theorem Authority.later (I : Authority H c₀ t c) (h : step H c e = some (o, c')) :
    (∀ b ∈ c.delayed, Confirmed H c₀ b.arm b.due (t ++ [(e, o)]) c') ∧
    ∀ j ∈ c.jobs, ∀ action, Action.ofName j.action = some action →
      ∃ arm, j.arm = some arm ∧ arm.action = action ∧ Released H c₀ arm (t ++ [(e, o)]) c' := by
  refine ⟨fun b hb => Once.later (I.delayed b hb) h, fun j hj action hname => ?_⟩
  obtain ⟨arm, harm, haction, hr⟩ := I.jobs j hj action hname
  exact ⟨arm, harm, haction, Once.later hr h⟩

/-- A step that does not drop the arm keeps it armed. -/
theorem Authority.held (I : Authority H c₀ t c) (h : step H c e = some (o, c'))
    (hp : c'.pending = c.pending) (hd : c'.deadline = c.deadline)
    (hheld : c.pending ≠ none → ¬ Disarms H c e) (arm : Arm) (harm : c'.pending = some arm) :
    ∃ date, c'.deadline = date + 120 * second ∧ Armed H c₀ arm date (t ++ [(e, o)]) c' := by
  have hc : c.pending = some arm := hp ▸ harm
  obtain ⟨date, hdate, ha⟩ := I.pending arm hc
  refine ⟨date, hd.trans hdate, Since.later ha h ⟨hc, harm, hheld ?_⟩⟩
  rw [hc]
  exact nofun

/-- Each step keeps the arm, the blocks and the calls with what they need. -/
theorem authority_step (I : Authority H c₀ t c) (h : step H c e = some (o, c')) :
    Authority H c₀ (t ++ [(e, o)]) c' := by
  have hrun : Run H c₀ (t ++ [(e, o)]) c' := I.run.append (.one h)
  have hvetted := vetted_step I.vetted h
  obtain ⟨hdelayed, hjobs⟩ := I.later h
  cases step_cases h with
  | keeps jobs hnew hl hheld ho =>
      obtain ⟨hp, hd, hb, hj, -⟩ := Ledger.mk.injEq .. ▸ hl
      refine ⟨hrun, hvetted, I.held h hp hd hheld, by rwa [hb], ?_⟩
      rw [hj]
      intro j hj action hname
      rcases List.mem_append.mp hj with hj | hj
      · exact hjobs j hj action hname
      · rw [(hnew j hj).2] at hname
        cases hname
  | drops hl hd ho =>
      obtain ⟨hp, -, hb, hj, -⟩ := Ledger.mk.injEq .. ▸ hl
      exact ⟨hrun, hvetted, fun arm harm => (nomatch hp.symm.trans harm), by rwa [hb], by rwa [hj]⟩
  | arms action hl ha ho =>
      obtain ⟨hp, hd, hb, hj, -⟩ := Ledger.mk.injEq .. ▸ hl
      refine ⟨hrun, hvetted, fun arm harm => ?_, by rwa [hb], by rwa [hj]⟩
      obtain rfl := Option.some.inj (hp.symm.trans harm)
      exact ⟨c'.date, hd, Since.now I.run h ha⟩
  | confirms m arm hm ht hv hclean hactive hpending hdate hl ho =>
      obtain ⟨hp, -, hb, hj, -⟩ := Ledger.mk.injEq .. ▸ hl
      refine ⟨hrun, hvetted, fun arm harm => (nomatch hp.symm.trans harm), ?_, by rwa [hj]⟩
      rw [hb]
      intro b hb
      rcases List.mem_append.mp hb with hb | hb
      · exact hdelayed b hb
      obtain rfl := List.mem_singleton.mp hb
      obtain ⟨date, hdeadline, ha⟩ := I.pending arm hpending
      -- The arm that is confirmed was set before, and its deadline is that of then.
      refine Since.now I.run h ⟨⟨m, date, hm, ?_, ht, hv, hclean, hactive, hpending, ?_, ha⟩, rfl⟩
      · exact I.vetted m (List.mem_of_mem_head? hm.1) hv
      · rwa [hdeadline] at hdate
  | releases n b he hb hdue logOut jobs hl ho hr =>
      obtain ⟨hp, hd, hb', hj, -⟩ := Ledger.mk.injEq .. ▸ hl
      have hheld : c.pending ≠ none → ¬ Disarms H c e := by
        subst he
        simp [Disarms, Handles]
      refine ⟨hrun, hvetted, I.held h hp hd hheld, ?_, ?_⟩
      · rw [hb']
        exact fun b hb => hdelayed b (List.mem_of_mem_eraseIdx hb)
      rw [hj]
      intro j hj action hname
      rcases List.mem_append.mp hj with hj | hj
      · exact hjobs j hj action hname
      rcases hr with ⟨-, rfl⟩ | ⟨-, -, -, rfl⟩ | ⟨hactive, -, -, rfl⟩
      · cases hj
      · cases hj
      obtain rfl := List.mem_singleton.mp hj
      -- The job that is new is for the arm of the block, which was confirmed.
      refine ⟨b.arm, rfl, ?_, Since.now I.run h ⟨n, b.due, he, hb, hdue, hactive, ?_⟩⟩
      · rw [ofName_eq_some.mpr rfl] at hname
        exact Option.some.inj hname
      · exact I.delayed b (List.mem_of_getElem? hb)
  | runs n j he hj hl ho =>
      obtain ⟨hp, hd, hb, hj', -⟩ := Ledger.mk.injEq .. ▸ hl
      have hheld : c.pending ≠ none → ¬ Disarms H c e := by
        subst he
        simp [Disarms, Handles]
      refine ⟨hrun, hvetted, I.held h hp hd hheld, by rwa [hb], ?_⟩
      rw [hj']
      exact fun j hj => hjobs j (List.mem_of_mem_eraseIdx hj)

theorem authority_run (h : Run H c₀ t c) (I : Authority H c₀ [] c₀) : Authority H c₀ t c := by
  simpa using h.invariant_trace (I := fun c t => Authority H c₀ t c) authority_step I

/-- What a step executes was released before, or is released by it. -/
theorem executes_released (I : Authority H c₀ t c) (h : step H c e = some (o, c')) {x : Effect}
    (hx : x ∈ o) {action : Action} (hexec : x.executes = some action) :
    ∃ arm, x.arm = some arm ∧ arm.action = action ∧ Released H c₀ arm (t ++ [(e, o)]) c' := by
  cases step_cases h with
  | keeps _ _ _ _ ho | drops _ _ ho | arms _ _ _ ho | confirms _ _ _ _ _ _ _ _ _ _ ho =>
      rw [ho x hx] at hexec
      cases hexec
  | releases n b he hb hdue logOut jobs hl ho hr =>
      subst ho
      obtain ⟨arm, harm, rfl⟩ := List.mem_map.mp hx
      rcases hr with ⟨rfl, -⟩ | ⟨hactive, rfl, hlogout, -⟩ | ⟨-, rfl, -, -⟩
      · cases harm
      · obtain rfl := List.mem_singleton.mp harm
        refine ⟨b.arm, rfl, hlogout.trans (Option.some.inj hexec), ?_⟩
        exact Since.now I.run h ⟨n, b.due, he, hb, hdue, hactive,
          I.delayed b (List.mem_of_getElem? hb)⟩
      · cases harm
  | runs n j he hj hl ho =>
      subst ho
      obtain ⟨hname, harm⟩ := executes_power hx
      rw [hname] at hexec
      rw [harm]
      exact (I.later h).2 j (List.mem_of_getElem? hj) action hexec

end Authority

/-! ### Once for each arm -/

/-- How often the arm is pending, delayed, waiting for the power helper, or executed. -/
def places (a : Arm) (t : Trace) (c : Control) : Nat :=
  c.pending.toList.count a + (c.delayed.filterMap fun b => some b.arm).count a +
    (c.jobs.filterMap Job.arm).count a + (executed t).count a

/-- Every arm is in one place at most, and only arms that were set are. -/
def Accounts (t : Trace) (c : Control) : Prop :=
  ∀ a, places a t c ≤ 1 ∧ (c.armed ≤ a.number → places a t c = 0)

section Accounts
variable {H : Host} {c c' : Control} {e : Event} {o : List Effect} {t : Trace}

/-- The arms executed after one more step. -/
theorem executed_concat :
    executed (t ++ [(e, o)]) =
      executed t ++ o.filterMap fun x => if x.executes.isSome then x.arm else none := by
  simp [executed]

/-- A step that stops nothing executes no arm. -/
theorem executed_quiet (ho : ∀ x ∈ o, x.executes = none) :
    executed (t ++ [(e, o)]) = executed t := by
  rw [executed_concat, List.append_right_eq_self, List.filterMap_eq_nil_iff]
  intro x hx
  rw [ho x hx]
  rfl

/-- What is taken out of a list, counted. -/
theorem count_eraseIdx {α β : Type} [DecidableEq β] (f : α → Option β) {l : List α} {n : Nat}
    {x : α} (h : l[n]? = some x) (b : β) :
    (l.filterMap f).count b = ((l.eraseIdx n).filterMap f).count b + (f x).toList.count b := by
  obtain ⟨hn, rfl⟩ := List.getElem?_eq_some_iff.mp h
  rw [← ((List.getElem_cons_eraseIdx_perm hn).filterMap f).count_eq b, List.filterMap_cons]
  cases f l[n] with
  | none => simp
  | some y => simp [List.count_cons]

/-- A step moves an arm at most, but for the one that it sets. -/
theorem places_step (h : step H c e = some (o, c')) (a : Arm) :
    c'.armed = c.armed ∧ places a (t ++ [(e, o)]) c' ≤ places a t c ∨
    c'.armed = c.armed + 1 ∧ (a.number = c.armed →
      places a (t ++ [(e, o)]) c' ≤ places a t c + 1) ∧
      (a.number ≠ c.armed → places a (t ++ [(e, o)]) c' ≤ places a t c) := by
  unfold places
  cases step_cases h with
  | keeps jobs hnew hl hheld ho =>
      obtain ⟨hp, -, hb, hj, ha⟩ := Ledger.mk.injEq .. ▸ hl
      have hnil : jobs.filterMap Job.arm = [] :=
        List.filterMap_eq_nil_iff.mpr fun j hj => (hnew j hj).1
      left
      rw [executed_quiet ho, hp, hb, hj, ha, List.filterMap_append, hnil, List.append_nil]
      exact ⟨rfl, le_refl _⟩
  | drops hl hd ho =>
      obtain ⟨hp, -, hb, hj, ha⟩ := Ledger.mk.injEq .. ▸ hl
      left
      rw [executed_quiet ho, hp, hb, hj, ha]
      exact ⟨rfl, by simp [Control.ledger]⟩
  | arms action hl harms ho =>
      obtain ⟨hp, -, hb, hj, ha⟩ := Ledger.mk.injEq .. ▸ hl
      obtain ⟨m, -, -, -, -, -, hnone, -⟩ := harms
      right
      rw [executed_quiet ho, hp, hb, hj, ha, hnone]
      have hone : ([⟨c.armed, action⟩] : List Arm).count a ≤ 1 := List.count_le_length
      refine ⟨rfl, fun _ => ?_, fun hne => ?_⟩
      · simp only [Option.toList_some, Option.toList_none, List.count_nil, Control.ledger]
        omega
      · have hzero : ([⟨c.armed, action⟩] : List Arm).count a = 0 := by
          rw [List.count_eq_zero, List.mem_singleton]
          rintro rfl
          exact hne rfl
        simp only [Option.toList_some, Option.toList_none, List.count_nil, Control.ledger, hzero]
        exact le_refl _
  | confirms m arm hm ht hv hclean hactive hpending hdate hl ho =>
      obtain ⟨hp, -, hb, hj, ha⟩ := Ledger.mk.injEq .. ▸ hl
      left
      rw [executed_quiet ho, hp, hb, hj, ha, hpending]
      refine ⟨rfl, ?_⟩
      simp only [Option.toList_some, Option.toList_none, List.count_nil, Control.ledger,
        List.filterMap_append, List.filterMap_cons, List.filterMap_nil, List.count_append]
      omega
  | releases n b he hb hdue logOut jobs hl ho hr =>
      obtain ⟨hp, -, hb', hj, ha⟩ := Ledger.mk.injEq .. ▸ hl
      left
      subst ho
      rw [executed_concat, hp, hb', hj, ha, count_eraseIdx (fun b => some b.arm) hb a]
      refine ⟨rfl, ?_⟩
      -- The block's arm goes to the power helper or is executed, but not both.
      have hmoved : (jobs.filterMap Job.arm).count a +
          ((logOut.map Effect.logOut).filterMap
            fun x => if x.executes.isSome then x.arm else none).count a ≤ [b.arm].count a := by
        rcases hr with ⟨rfl, rfl⟩ | ⟨-, rfl, -, rfl⟩ | ⟨-, rfl, -, rfl⟩
        · exact Nat.zero_le _
        · simp [Effect.executes, Effect.arm]
        · simp
      simp only [Control.ledger, List.filterMap_append, List.count_append, Option.toList_some]
      omega
  | runs n j he hj hl ho =>
      obtain ⟨hp, -, hb, hj', ha⟩ := Ledger.mk.injEq .. ▸ hl
      left
      rw [executed_concat, hp, hb, hj', ha, count_eraseIdx Job.arm hj a]
      refine ⟨rfl, ?_⟩
      -- The helper executes the arm of the job that it runs.
      have hmoved : (o.filterMap fun x => if x.executes.isSome then x.arm else none).count a ≤
          j.arm.toList.count a := by
        subst ho
        unfold power
        split
        · rw [List.filterMap_cons, List.filterMap_nil]
          split
          · exact Nat.zero_le _
          · rename_i b hb
            obtain ⟨-, harm⟩ := Option.ite_none_right_eq_some.mp hb
            rw [show j.arm = some b from harm]
            exact le_refl _
        · exact Nat.zero_le _
      simp only [Control.ledger, List.count_append]
      omega

/-- Each step keeps an arm in one place. -/
theorem accounts_step (I : Accounts t c) (h : step H c e = some (o, c')) :
    Accounts (t ++ [(e, o)]) c' := by
  intro a
  obtain ⟨hone, hzero⟩ := I a
  rcases places_step h a with ⟨harmed, hle⟩ | ⟨harmed, heq, hne⟩
  · rw [harmed]
    exact ⟨hle.trans hone, fun ha => Nat.le_zero.mp (hzero ha ▸ hle)⟩
  · rw [harmed]
    by_cases ha : a.number = c.armed
    · have := hzero ha.ge
      have := heq ha
      exact ⟨by omega, fun h => by omega⟩
    · have := hne ha
      exact ⟨by omega, fun h => by have := hzero (by omega); omega⟩

theorem accounts_run {c₀ : Control} (h : Run H c₀ t c) (I : Accounts [] c₀) : Accounts t c := by
  simpa using h.invariant_trace (I := fun c t => Accounts t c) accounts_step I

/-- No arm is executed twice. -/
theorem executed_nodup (I : Accounts t c) : (executed t).Nodup := by
  rw [List.nodup_iff_count_le_one]
  intro a
  have := (I a).1
  unfold places at this
  omega

end Accounts

/-! ### One at a time -/

section Apart
variable {H : Host} {c c' : Control} {e : Event} {o : List Effect} {t : Trace} {arm : Arm}
  {date : Nat}

/-- What a step that sets an arm does to the count of arms. -/
theorem Arms.number (ha : Arms H arm date c e c') (h : step H c e = some (o, c')) :
    arm.number = c.armed ∧ c'.armed = c.armed + 1 := by
  obtain ⟨m, -, -, -, -, -, hnone, hsome, -⟩ := ha
  cases step_cases h with
  | arms action hl _ _ =>
      obtain ⟨hp, -, -, -, ha⟩ := Ledger.mk.injEq .. ▸ hl
      obtain rfl := Option.some.inj (hp.symm.trans hsome)
      exact ⟨rfl, ha⟩
  | keeps _ _ hl | drops hl | confirms _ _ _ _ _ _ _ _ _ hl | releases _ _ _ _ _ _ _ hl
  | runs _ _ _ _ hl =>
      obtain ⟨hp, -⟩ := Ledger.mk.injEq .. ▸ hl
      rw [hsome] at hp
      first
        | cases hp
        | cases hnone.symm.trans hp.symm

/-- The number of arms never goes down. -/
theorem armed_mono (h : Run H c t c') : c.armed ≤ c'.armed := by
  refine h.invariant (I := fun m => c.armed ≤ m.armed) ?_ (le_refl _)
  intro m e o m' hm h
  rcases places_step (t := []) h ⟨0, .logout⟩ with ⟨heq, -⟩ | ⟨heq, -⟩
  all_goals omega

/-- A step out of an arm drops it or confirms it. -/
theorem leaves_cases {c₀ : Control} (I : Authority H c₀ t c) (h : step H c e = some (o, c'))
    (hp : c.pending = some arm) (hne : c'.pending ≠ some arm) :
    c'.pending = none ∧ (Disarms H c e ∨ Confirms H c₀ arm t c e) := by
  cases step_cases h with
  | keeps _ _ hl | releases _ _ _ _ _ _ _ hl | runs _ _ _ _ hl =>
      obtain ⟨hp', -⟩ := Ledger.mk.injEq .. ▸ hl
      exact absurd (hp'.trans hp) hne
  | drops hl hd =>
      obtain ⟨hp', -⟩ := Ledger.mk.injEq .. ▸ hl
      exact ⟨hp', .inl hd⟩
  | arms action hl ha =>
      obtain ⟨m, -, -, -, -, -, hnone, -⟩ := ha
      cases hnone.symm.trans hp
  | confirms m arm' hm ht hv hclean hactive hpending hdate hl =>
      obtain ⟨hp', -⟩ := Ledger.mk.injEq .. ▸ hl
      obtain rfl := Option.some.inj (hpending.symm.trans hp)
      obtain ⟨date, hdeadline, ha⟩ := I.pending _ hp
      refine ⟨hp', .inr ⟨m, date, hm, I.vetted m (List.mem_of_mem_head? hm.1) hv, ht, hv, hclean,
        hactive, hp, ?_, ha⟩⟩
      rwa [hdeadline] at hdate

end Apart

/-! ### Host actions -/

/-- **Armed host actions.**  In every run of the session: an action that stops the host is executed
only if its arm was released; an arm is executed at most once; between two arms the first was dropped
or confirmed; and a request that reports a stop was put on the queue by the supervisor's socket. -/
theorem host_actions (H : Host) (active : Bool) (date uptime : Nat) (sidecar : Bool)
    (c₀ : Control) (hc₀ : c₀ = .initial active date uptime sidecar) :
    (∀ t c e o c', Run H c₀ t c → step H c e = some (o, c') →
      ∀ x ∈ o, ∀ action, x.executes = some action →
        ∃ arm, x.arm = some arm ∧ arm.action = action ∧ Released H c₀ arm (t ++ [(e, o)]) c') ∧
    (∀ t c, Run H c₀ t c → (executed t).Nodup) ∧
    (∀ arm date t c e o c', Run H c₀ t c → step H c e = some (o, c') → Arms H arm date c e c' →
      ∀ arm' date' u d f p d', Run H c' u d → step H d f = some (p, d') →
        Arms H arm' date' d f d' →
        arm.number < arm'.number ∧ ∃ v g q w m m', u = v ++ (g, q) :: w ∧ Run H c' v m ∧
          step H m g = some (q, m') ∧ Run H m' w d ∧ m.pending = some arm ∧ m'.pending = none ∧
          (Disarms H m g ∨ Confirms H c₀ arm (t ++ (e, o) :: v) m g)) ∧
    (∀ t c m e, Run H c₀ t c → Handles c m e → m.origin ≠ .supervisor →
      m.action ≠ "vm-stopped") := by
  subst hc₀
  have hI : ∀ {t c}, Run H (.initial active date uptime sidecar) t c →
      Authority H (.initial active date uptime sidecar) t c :=
    fun h => authority_run h (authority_initial active date uptime sidecar)
  refine ⟨fun t c e o c' hrun h x hx action hexec => executes_released (hI hrun) h hx hexec,
    fun t c hrun => ?_, ?_, fun t c m e hrun hm hne hv => ?_⟩
  · exact executed_nodup (accounts_run hrun fun a => ⟨by simp [places, Control.initial, executed],
      fun _ => by simp [places, Control.initial, executed]⟩)
  · intro arm date t c e o c' hrun h ha arm' date' u d f p d' hrun' h' ha'
    obtain ⟨hnumber, hnext⟩ := ha.number h
    obtain ⟨hnumber', -⟩ := ha'.number h'
    obtain ⟨m₀, -, -, -, -, -, -, hpending, -⟩ := ha
    obtain ⟨m₁, -, -, -, -, -, hnone, -⟩ := ha'
    refine ⟨by have := armed_mono hrun'; omega, ?_⟩
    obtain ⟨v, g, q, w, m, m', rfl, hv, hstep, hp, hp', hw⟩ :=
      hrun'.leaves (I := fun c => c.pending = some arm) hpending (by rw [hnone]; exact nofun)
    have hI' := hI ((hrun.append (.one h)).append hv)
    rw [List.append_assoc] at hI'
    obtain ⟨hnone', hcases⟩ := leaves_cases hI' hstep hp hp'
    exact ⟨v, g, q, w, m, m', rfl, hv, hstep, hw, hp, hnone', hcases⟩
  · exact hne ((hI hrun).vetted m (List.mem_of_mem_head? hm.1) hv)

/-- A host whose channel reads nothing. -/
def sampleHost : Host where
  foundation := sampleFoundation
  token := "0123456789abcdef0123456789abcdef"
  powerEnabled := true
  bundleID := "Ashacky"
  bridged := fun _ => none

def sampleRequest (action : String) (more : Object) : Object :=
  [("token", Json.str sampleHost.token), ("action", .str action)] ++ more

def sampleSurroundings : Surroundings := ⟨none, true, [("ok", .bool true)], 5, 5, none⟩

/-- The user turns the machine off: the guest's request, the supervisor's report and the delayed
block, with a call of the power helper at the end. -/
theorem host_actions_poweroff :
    ∃ t c e o c', Run sampleHost (.initial true 0 0 true) t c ∧
      step sampleHost c e = some (o, c') ∧
      (∃ x ∈ o, x.executes = some .poweroff) ∧ (executed (t ++ [(e, o)])).Nodup ∧
      ∃ arm, arm.action = .poweroff ∧
        Released sampleHost (.initial true 0 0 true) arm (t ++ [(e, o)]) c' := by
  have hplay : (play (step sampleHost) (.initial true 0 0 true)
      [.connect false true (sampleRequest "poweroff" []), .handle sampleSurroundings,
        .connect true true (sampleRequest "vm-stopped" [("clean", .bool true)]),
        .handle sampleSurroundings, .clock second second, .delayed 0]).map
      (fun r => (r.2.jobs, r.2.uptime)) =
    some ([⟨"poweroff", some ⟨0, .poweroff⟩, second + 5⟩], second + 5) := by decide
  obtain ⟨⟨t, c⟩, hplayed, hjobs⟩ := Option.map_eq_some_iff.mp hplay
  obtain ⟨hjobs, huptime⟩ := Prod.ext_iff.mp hjobs
  have hrun : Run sampleHost (.initial true 0 0 true) t c := Steps.of_play hplayed
  have hstep : step sampleHost c (.job 0) = some
      (power sampleHost "poweroff" none (some ⟨0, .poweroff⟩), { c with jobs := [] }) := by
    simp only at hjobs huptime
    simp [step, hjobs, huptime]
  obtain ⟨hreleased, honce, -⟩ := host_actions sampleHost true 0 0 true _ rfl
  obtain ⟨arm, -, haction, hr⟩ := hreleased _ _ _ _ _ hrun hstep _ (List.mem_singleton_self _)
    .poweroff rfl
  exact ⟨t, c, _, _, _, hrun, hstep, ⟨_, List.mem_singleton_self _, rfl⟩,
    honce _ _ (hrun.append (.one hstep)), arm, haction, hr⟩

end Ashacky.Session
