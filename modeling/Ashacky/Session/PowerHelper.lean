import Mathlib.Data.List.Chain
import Mathlib.Data.List.Perm.Basic
import Ashacky.Support.Machine
import Ashacky.Control.Json

/-!
# Session — the power helper

`helpers/power/PowerHelper.swift`: a process of the administrator that puts the host to sleep, turns it
off or restarts it.  Its server takes one request after the other.  A request that passes is answered
at once; its command comes a second later or more, if the console still belongs to the user.

What a request finds is in its `Surroundings`: the policy, who is at the other end of the socket, the
console, the logins and two readings of the calendar.  The executables that are trusted are fixed when
the helper is built.  A grant has a number of its own, which nothing in the source reads; the block
that comes of it carries it along.

* `Passes`: what a request has to be that is let through.
* `step_turn`: what a step can do.
* `Accounts`: the state against what has happened so far.
* `commands_authorized`: grants are ten seconds apart, and whatever is run was granted a second before
  or more, and is run once.
-/

namespace Ashacky.Session.PowerHelper
open Ashacky.Support
open Ashacky.Control (Json Object)

/-! ### The outside -/

structure PowerPolicy where
  userID : Nat
  enabled : Bool
  allowOtherSessions : Bool
deriving DecidableEq

/-- A record of `utmpx`: whether it is a `USER_PROCESS`, and `ut_user`. -/
structure Login where
  userProcess : Bool
  user : String
deriving DecidableEq

/-- What a request finds. -/
structure Surroundings where
  /-- The policy file, or what is wrong with it. -/
  policy : Except String PowerPolicy
  /-- `getpeereid`. -/
  peerID : Option Nat
  /-- `LOCAL_PEERPID`. -/
  peerPID : Option Nat
  /-- `proc_pidpath`. -/
  pidPath : Nat → Option String
  /-- `SCDynamicStoreCopyConsoleUser`; zero is also that there is none. -/
  consoleUser : Nat
  logins : List Login
  /-- `getpwnam`. -/
  account : String → Option Nat
  /-- The calendar in milliseconds, when `lastAction` is compared and when it is set. -/
  date : Int
  dateAfter : Int

def second : Nat := 1000

/-! ### The state -/

/-- The block of a request that passed. -/
structure Delayed where
  number : Nat
  action : String
  userID : Nat
  due : Nat
deriving DecidableEq

structure Helper where
  /-- None is `distantPast`. -/
  lastAction : Option Int
  /-- The global queue. -/
  delayed : List Delayed
  uptime : Nat
  /-- How many requests were granted. -/
  grants : Nat

inductive Effect where
  /-- The line in the log that tells of a grant. -/
  | authorized (number : Nat) (action : String) (userID pid : Nat)
  | reply (answer : Object)
  /-- `process.run`, of the executable with its arguments. -/
  | run (number : Nat) (executable : String) (arguments : List String)

def denied (reason : String) : Object := [("ok", .bool false), ("error", .str reason)]

def initial : Helper := ⟨none, [], 0, 0⟩

def operations : List String := ["sleep", "poweroff", "restart"]

def actions : List String := "check" :: operations

/-- The action of a request. -/
def requested (request : Object) : String := (Object.text request "action").getD ""

/-- The action that a request is about. -/
def operation (request : Object) : String :=
  if requested request = "check" then (Object.text request "operation").getD "poweroff"
  else requested request

/-- Someone else is logged in. -/
def otherSession (S : Surroundings) (policy : PowerPolicy) : Bool :=
  S.logins.any fun record =>
    record.userProcess && record.user ≠ "" && (S.account record.user).any (· ≠ policy.userID)

/-- The checks of a request: its policy, the process that made it and its action, or the reason why it is
denied. -/
def authorize (powerClients : List String) (S : Surroundings) (request : Object) :
    Except String (PowerPolicy × Nat × String) :=
  match S.policy with
  | .error reason => .error reason
  | .ok policy =>
      if S.peerID ≠ some policy.userID then .error "Wrong user"
      else
        match S.peerPID with
        | none => .error "Missing peer identity"
        | some pid =>
            -- Authenticate the actual process behind the socket, not a claimed PID.
            if !(S.pidPath pid).any powerClients.contains then .error "Untrusted client executable"
            else if S.consoleUser ≠ policy.userID then
              .error "Linux account is not the active console user"
            else if !policy.enabled then
              .error "Host power controls are disabled in the administrator policy"
            else if !actions.contains (requested request) then .error "Unsupported action"
            else if !operations.contains (operation request) then .error "Unsupported operation"
            else if !policy.allowOtherSessions && operation request ≠ "sleep" && otherSession S policy then
              .error "Another macOS user is logged in; log them out before host power actions"
            else .ok (policy, pid, requested request)

/-- `timeIntervalSince(lastAction) > 10`. -/
def rested (h : Helper) (date : Int) : Bool := h.lastAction.all fun last => 10 * second < date - last

/-- What a request does. -/
def handle (powerClients : List String) (S : Surroundings) (request : Object) (h : Helper) :
    List Effect × Helper :=
  match authorize powerClients S request with
  | .error reason => ([.reply (denied reason)], h)
  | .ok (policy, pid, action) =>
      if action = "check" then ([.reply [("ok", .bool true), ("enabled", .bool true)]], h)
      else if !operations.contains action then ([.reply (denied "Unsupported action")], h)
      else if !rested h S.date then ([.reply (denied "Power action rate limit")], h)
      else
        -- Reply before executing; never execute request-provided command text.
        ([.authorized h.grants action policy.userID pid, .reply [("ok", .bool true)]],
          { h with
            lastAction := some S.dateAfter
            delayed := h.delayed ++ [⟨h.grants, action, policy.userID, h.uptime + second⟩]
            grants := h.grants + 1 })

/-- The executable and the arguments of an action. -/
def command (action : String) : String × List String :=
  if action = "sleep" then ("/usr/bin/pmset", ["sleepnow"])
  else ("/sbin/shutdown", [if action = "restart" then "-r" else "-h", "now"])

/-! ### Events -/

inductive Event where
  | request (world : Surroundings) (value : Object)
  /-- Time passes, in milliseconds. -/
  | passes (time : Nat)
  /-- A block runs, and finds this console user. -/
  | block (index consoleUser : Nat)

/-- A step, if it can happen. -/
def step (powerClients : List String) (h : Helper) (e : Event) : Option (List Effect × Helper) :=
  match e with
  | .request S value => some (handle powerClients S value h)
  | .passes time => some ([], { h with uptime := h.uptime + time })
  | .block index consoleUser =>
      (h.delayed[index]?).bind fun d =>
        if h.uptime < d.due then none
        else
          some
            (if consoleUser = d.userID then [.run d.number (command d.action).1 (command d.action).2]
              else [],
              { h with delayed := h.delayed.eraseIdx index })

/-- A step. -/
def Step (powerClients : List String) (h : Helper) (e : Event) (o : List Effect) (h' : Helper) : Prop :=
  step powerClients h e = some (o, h')

abbrev Trace := List (Event × List Effect)

/-! ### What a step can do -/

/-- The request is let through: it comes from the user, out of a trusted executable, while the console is
the user's; the policy allows it, and nobody else is logged in whom the policy protects. -/
structure Passes (powerClients : List String) (S : Surroundings) (request : Object) (policy : PowerPolicy)
    (pid : Nat) (action : String) : Prop where
  read : S.policy = .ok policy
  peer : S.peerID = some policy.userID
  process : S.peerPID = some pid
  client : ∃ path, S.pidPath pid = some path ∧ path ∈ powerClients
  console : S.consoleUser = policy.userID
  enabled : policy.enabled = true
  asked : requested request = action
  known : operation request ∈ operations
  alone : policy.allowOtherSessions = true ∨ operation request = "sleep" ∨
    ∀ record ∈ S.logins, record.userProcess = true → record.user ≠ "" →
      ∀ uid ∈ S.account record.user, uid = policy.userID

/-- Without another session every login is the policy's user. -/
theorem own_sessions {S : Surroundings} {policy : PowerPolicy} (h : otherSession S policy = false) :
    ∀ record ∈ S.logins, record.userProcess = true → record.user ≠ "" →
      ∀ uid ∈ S.account record.user, uid = policy.userID := by
  intro record hrecord hprocess huser uid huid
  by_contra hne
  refine List.any_eq_false.mp h record hrecord ?_
  simp [hprocess, huser, Option.mem_def.mp huid, hne]

/-- A request that is authorized passes every check. -/
theorem authorize_ok {powerClients : List String} {S : Surroundings} {request : Object}
    {policy : PowerPolicy} {pid : Nat} {action : String}
    (h : authorize powerClients S request = .ok (policy, pid, action)) :
    Passes powerClients S request policy pid action := by
  rw [authorize] at h
  split at h
  · cases h
  rename_i p hp
  split at h
  · cases h
  rename_i hpeer
  split at h
  · cases h
  rename_i pid' hpid
  split at h
  · cases h
  rename_i hclient
  split at h
  · cases h
  rename_i hconsole
  split at h
  · cases h
  rename_i henabled
  split at h
  · cases h
  split at h
  · cases h
  rename_i hoperation
  split at h
  · cases h
  rename_i halone
  cases h
  exact
    { read := hp
      peer := not_not.mp hpeer
      process := hpid
      client := by simpa [Option.any_eq_true] using hclient
      console := not_not.mp hconsole
      enabled := by simpa using henabled
      asked := rfl
      known := by simpa using hoperation
      alone := by
        by_cases hallow : policy.allowOtherSessions = true
        · exact .inl hallow
        by_cases hsleep : operation request = "sleep"
        · exact .inr (.inl hsleep)
        · exact .inr (.inr (own_sessions (by simpa [hallow, hsleep] using halone))) }

/-- What a step can do. -/
inductive Turn (powerClients : List String) (h : Helper) : Event → List Effect → Helper → Prop where
  | grants {S : Surroundings} {request : Object} {policy : PowerPolicy} {pid : Nat} {action : String}
      (passes : Passes powerClients S request policy pid action) (runs : action ∈ operations)
      (rested : ∀ last ∈ h.lastAction, 10 * second < S.date - last) :
      Turn powerClients h (.request S request)
        [.authorized h.grants action policy.userID pid, .reply [("ok", .bool true)]]
        { h with
          lastAction := some S.dateAfter
          delayed := h.delayed ++ [⟨h.grants, action, policy.userID, h.uptime + second⟩]
          grants := h.grants + 1 }
  | answers (S : Surroundings) (request answer : Object) :
      Turn powerClients h (.request S request) [.reply answer] h
  | passes (time : Nat) : Turn powerClients h (.passes time) [] { h with uptime := h.uptime + time }
  /-- The console is still the user's, and the command is run. -/
  | runs {index : Nat} {d : Delayed} (hd : h.delayed[index]? = some d) (due : d.due ≤ h.uptime) :
      Turn powerClients h (.block index d.userID)
        [.run d.number (command d.action).1 (command d.action).2]
        { h with delayed := h.delayed.eraseIdx index }
  | cancels {index consoleUser : Nat} {d : Delayed} (hd : h.delayed[index]? = some d)
      (due : d.due ≤ h.uptime) (left : consoleUser ≠ d.userID) :
      Turn powerClients h (.block index consoleUser) [] { h with delayed := h.delayed.eraseIdx index }

/-- A request is refused, or it is authorized and the command delayed. -/
theorem handle_turn (powerClients : List String) (S : Surroundings) (request : Object) (h : Helper) :
    Turn powerClients h (.request S request) (handle powerClients S request h).1
      (handle powerClients S request h).2 := by
  rw [handle]
  split
  · exact .answers S request _
  rename_i policy pid action hok
  split
  · exact .answers S request _
  split
  · exact .answers S request _
  rename_i hruns
  split
  · exact .answers S request _
  rename_i hrested
  refine .grants (authorize_ok hok) (by simpa using hruns) fun last hlast => ?_
  have hdate : rested h S.date = true := by simpa using hrested
  rw [rested, Option.mem_def.mp hlast] at hdate
  exact of_decide_eq_true hdate

theorem step_turn {powerClients : List String} {h h' : Helper} {e : Event} {o : List Effect}
    (hstep : Step powerClients h e o h') : Turn powerClients h e o h' := by
  cases e with
  | request S value =>
      have T := handle_turn powerClients S value h
      rw [Option.some.inj hstep] at T
      exact T
  | passes time =>
      cases hstep
      exact .passes time
  | block index consoleUser =>
      obtain ⟨d, hd, hrun⟩ := Option.bind_eq_some_iff.mp hstep
      split at hrun
      · cases hrun
      rename_i hdue
      cases hrun
      split
      · rename_i huser
        subst huser
        exact .runs hd (not_lt.mp hdue)
      · rename_i huser
        exact .cancels hd (not_lt.mp hdue) huser

/-! ### What has happened -/

/-- The time that passed. -/
def elapsed (t : Trace) : Nat :=
  (t.map fun x =>
    match x.1 with
    | .passes time => time
    | _ => 0).sum

/-- The grants among the effects. -/
def granted (o : List Effect) : List Nat :=
  o.filterMap fun
    | .authorized number _ _ _ => some number
    | _ => none

/-- The grants whose commands are among the effects. -/
def executed (o : List Effect) : List Nat :=
  o.filterMap fun
    | .run number _ _ => some number
    | _ => none

/-- When `lastAction` was compared and when it was set, for each grant. -/
def dates (t : Trace) : List (Int × Int) :=
  t.filterMap fun x =>
    match x.1 with
    | .request S _ => if granted x.2 = [] then none else some (S.date, S.dateAfter)
    | _ => none

/-- The block comes of a request that passed, and is due a second after it. -/
def Sourced (powerClients : List String) (d : Delayed) (t : Trace) : Prop :=
  ∃ u S request w policy pid,
    t = u ++ (.request S request,
      [.authorized d.number d.action d.userID pid, .reply [("ok", .bool true)]]) :: w ∧
    Passes powerClients S request policy pid d.action ∧ d.userID = policy.userID ∧
    d.action ∈ operations ∧ d.due = elapsed u + second

/-- The grants whose command was run, or may still be. -/
def numbers (h : Helper) (t : Trace) : List Nat :=
  t.flatMap (fun x => executed x.2) ++ h.delayed.map Delayed.number

/-- The state against the trace that led to it. -/
structure Accounts (powerClients : List String) (h : Helper) (t : Trace) : Prop where
  uptime : h.uptime = elapsed t
  grants : t.flatMap (fun x => granted x.2) = List.range h.grants
  last : h.lastAction = (dates t).getLast?.map Prod.snd
  spaced : (dates t).IsChain fun (a b : Int × Int) => 10 * second < b.1 - a.2
  delayed : ∀ d ∈ h.delayed, Sourced powerClients d t
  below : ∀ n ∈ numbers h t, n < h.grants
  once : (numbers h t).Nodup

section Accounts
variable {powerClients : List String} {h h' : Helper} {t : Trace} {e : Event} {o : List Effect}

/-- At the start no command is delayed. -/
theorem accounts_initial : Accounts powerClients initial [] where
  uptime := rfl
  grants := rfl
  last := rfl
  spaced := .nil
  delayed := by rintro _ ⟨⟩
  below := by rintro _ ⟨⟩
  once := .nil

theorem elapsed_append (t u : Trace) : elapsed (t ++ u) = elapsed t + elapsed u := by
  simp only [elapsed, List.map_append, List.sum_append]

theorem dates_append (t u : Trace) : dates (t ++ u) = dates t ++ dates u := List.filterMap_append

/-- A command keeps the request that it comes from. -/
theorem Sourced.snoc {d : Delayed} (hd : Sourced powerClients d t) (x : Event × List Effect) :
    Sourced powerClients d (t ++ [x]) := by
  obtain ⟨u, S, request, w, policy, pid, rfl, hpass⟩ := hd
  exact ⟨u, S, request, w ++ [x], policy, pid, by simp, hpass⟩

/-- A step that starts no command adds none. -/
theorem numbers_sublist (hexecuted : executed o = []) (hdelayed : h'.delayed.Sublist h.delayed) :
    (numbers h' (t ++ [(e, o)])).Sublist (numbers h t) := by
  rw [numbers, List.flatMap_append, List.flatMap_singleton, hexecuted, List.append_nil]
  exact (List.Sublist.refl _).append (hdelayed.map _)

/-- A step that grants and runs nothing, and only may drop blocks or let time pass. -/
theorem Accounts.idle (A : Accounts powerClients h t) (hgranted : granted o = [])
    (hexecuted : executed o = []) (hdates : dates [(e, o)] = [])
    (hlast : h'.lastAction = h.lastAction) (hgrants : h'.grants = h.grants)
    (huptime : h'.uptime = h.uptime + elapsed [(e, o)]) (hdelayed : h'.delayed.Sublist h.delayed) :
    Accounts powerClients h' (t ++ [(e, o)]) where
  uptime := by rw [elapsed_append, huptime, A.uptime]
  grants := by
    rw [List.flatMap_append, A.grants, hgrants]
    simp [hgranted]
  last := by rw [dates_append, hdates, List.append_nil, hlast, A.last]
  spaced := by
    rw [dates_append, hdates, List.append_nil]
    exact A.spaced
  delayed := fun d hd => (A.delayed d (hdelayed.subset hd)).snoc _
  below := by
    rw [hgrants]
    exact fun n hn => A.below n ((numbers_sublist hexecuted hdelayed).subset hn)
  once := A.once.sublist (numbers_sublist hexecuted hdelayed)

/-- A grant adds its number. -/
theorem numbers_grant (S : Surroundings) (request : Object) (action : String) (userID pid due : Nat)
    (last : Option Int) :
    numbers { h with
        lastAction := last
        delayed := h.delayed ++ [⟨h.grants, action, userID, due⟩]
        grants := h.grants + 1 }
      (t ++ [(.request S request,
        [.authorized h.grants action userID pid, .reply [("ok", .bool true)]])]) =
      numbers h t ++ [h.grants] := by
  simp [numbers, executed]

/-- A command that is run was to be run. -/
theorem numbers_run {index : Nat} (consoleUser : Nat) {d : Delayed} (hd : h.delayed[index]? = some d) :
    (numbers { h with delayed := h.delayed.eraseIdx index }
      (t ++ [(.block index consoleUser, [.run d.number (command d.action).1 (command d.action).2])])).Perm
      (numbers h t) := by
  obtain ⟨hlt, rfl⟩ := List.getElem?_eq_some_iff.mp hd
  have hperm := (List.getElem_cons_eraseIdx_perm hlt).map Delayed.number
  simpa [numbers, executed] using hperm.append_left (t.flatMap fun x => executed x.2)

/-- Each step keeps every command with a request of its own. -/
theorem accounts_step (A : Accounts powerClients h t) (hstep : Step powerClients h e o h') :
    Accounts powerClients h' (t ++ [(e, o)]) := by
  cases step_turn hstep with
  | answers S request answer =>
      exact A.idle rfl rfl rfl rfl rfl rfl (List.Sublist.refl _)
  | passes time =>
      exact A.idle rfl rfl rfl rfl rfl (by simp [elapsed]) (List.Sublist.refl _)
  | cancels hd due left =>
      exact A.idle rfl rfl rfl rfl rfl rfl (List.eraseIdx_sublist _ _)
  | @grants S request policy pid action passes runs rested =>
      have hdates : dates (t ++ [(.request S request,
          [.authorized h.grants action policy.userID pid, .reply [("ok", .bool true)]])]) =
          dates t ++ [(S.date, S.dateAfter)] := dates_append _ _
      refine ⟨?_, ?_, ?_, ?_, fun d hd => ?_, ?_, ?_⟩
      · rw [elapsed_append, ← A.uptime]
        rfl
      · rw [List.flatMap_append, A.grants, List.range_succ]
        rfl
      · rw [hdates, List.getLast?_concat]
        rfl
      · rw [hdates]
        refine List.isChain_append.mpr ⟨A.spaced, .singleton _, ?_⟩
        rintro x hx _ ⟨⟩
        exact rested x.2 (by rw [A.last, Option.mem_def.mp hx]; rfl)
      · obtain hd | hd := List.mem_append.mp hd
        · exact (A.delayed d hd).snoc _
        · obtain rfl := List.mem_singleton.mp hd
          exact ⟨t, S, request, [], policy, pid, rfl, passes, rfl, runs, by rw [A.uptime]⟩
      · rw [numbers_grant]
        intro n hn
        obtain hn | hn := List.mem_append.mp hn
        · exact Nat.lt_succ_of_lt (A.below n hn)
        · rw [List.mem_singleton.mp hn]
          exact Nat.lt_succ_self _
      · rw [numbers_grant]
        refine List.nodup_append.mpr ⟨A.once, List.nodup_singleton _, ?_⟩
        intro n hn m hm hnm
        rw [List.mem_singleton.mp hm] at hnm
        exact absurd (A.below n hn) (hnm ▸ Nat.lt_irrefl _)
  | @runs index d hd due =>
      -- The command moves from the delayed ones to the executed ones.
      have hperm := numbers_run (t := t) d.userID hd
      refine ⟨?_, ?_, ?_, ?_, fun d' hd' => ?_, fun n hn => ?_, ?_⟩
      · rw [elapsed_append, ← A.uptime]
        rfl
      · rw [List.flatMap_append, A.grants]
        exact List.append_nil _
      · rw [dates_append, A.last]
        exact congrArg (fun l : List (Int × Int) => l.getLast?.map Prod.snd) (List.append_nil _).symm
      · rw [dates_append]
        exact (List.append_nil (dates t)).symm ▸ A.spaced
      · exact (A.delayed d' ((List.eraseIdx_sublist _ _).subset hd')).snoc _
      · exact A.below n (hperm.subset hn)
      · exact hperm.nodup_iff.mpr A.once

/-- A command that is run was granted, a second before or more. -/
theorem ran_granted (A : Accounts powerClients h t) (hstep : Step powerClients h e o h') {n : Nat}
    {executable : String} {arguments : List String} (hrun : .run n executable arguments ∈ o) :
    ∃ u S request w policy pid action i,
      t = u ++ (.request S request,
        [.authorized n action policy.userID pid, .reply [("ok", .bool true)]]) :: w ∧
      Passes powerClients S request policy pid action ∧ action ∈ operations ∧
      (executable, arguments) = command action ∧ e = .block i policy.userID ∧ second ≤ elapsed w := by
  cases step_turn hstep with
  | grants => simp at hrun
  | answers => simp at hrun
  | passes => cases hrun
  | cancels => cases hrun
  | @runs i d hd due =>
      cases List.mem_singleton.mp hrun
      obtain ⟨u, S, request, w, policy, pid, rfl, hpass, huser, hknown, hdue⟩ :=
        A.delayed d (List.mem_of_getElem? hd)
      refine ⟨u, S, request, w, policy, pid, d.action, i, by rw [huser], hpass, hknown, rfl,
        by rw [huser], ?_⟩
      rw [A.uptime, hdue, elapsed_append] at due
      have hw := Nat.le_of_add_le_add_left due
      simpa [elapsed] using hw

/-- **Who can stop the host.**  In every run grants are ten seconds apart, each by the calendar that the
helper reads, and no two have the same number.  A command that is run is that of an action which was
granted under this number a second before or more, to a request that passed all checks; the console is
the same user's when it is run; and no grant is run twice. -/
theorem commands_authorized (r : Steps (Step powerClients) initial t h) :
    ((dates t).IsChain fun (a b : Int × Int) => 10 * second < b.1 - a.2) ∧
    (t.flatMap fun x => granted x.2).Nodup ∧ (t.flatMap fun x => executed x.2).Nodup ∧
    ∀ u e o v n executable arguments, t = u ++ (e, o) :: v → .run n executable arguments ∈ o →
      ∃ u₁ S request w policy pid action i,
        u = u₁ ++ (.request S request,
          [.authorized n action policy.userID pid, .reply [("ok", .bool true)]]) :: w ∧
        Passes powerClients S request policy pid action ∧ action ∈ operations ∧
        (executable, arguments) = command action ∧ e = .block i policy.userID ∧
        second ≤ elapsed w := by
  have haccounts : ∀ {u m}, Steps (Step powerClients) initial u m → Accounts powerClients m u :=
    fun r => r.invariant_trace (I := fun m u => Accounts powerClients m u) accounts_step accounts_initial
  have A := haccounts r
  refine ⟨A.spaced, A.grants ▸ List.nodup_range, (List.nodup_append.mp A.once).1, ?_⟩
  rintro u e o v n executable arguments rfl hrun
  obtain ⟨m, m', hu, hstep, -⟩ := r.split_at
  exact ran_granted (haccounts hu) hstep hrun

end Accounts

/-! ### A run -/

/-- The user is alone, and asks from the app. -/
def sampleWorld : Surroundings where
  policy := .ok ⟨501, true, false⟩
  peerID := some 501
  peerPID := some 7
  pidPath _ := some "/Applications/Ashacky.app/Contents/MacOS/Ashacky"
  consoleUser := 501
  logins := [⟨true, "user"⟩]
  account _ := some 501
  date := 0
  dateAfter := 0

def sampleClients : List String := ["/Applications/Ashacky.app/Contents/MacOS/Ashacky"]

/-- The host is put to sleep. -/
def sampleRun : Trace :=
  [(.request sampleWorld [("action", .str "sleep")],
      [.authorized 0 "sleep" 501 7, .reply [("ok", .bool true)]]),
    (.passes 1000, []), (.block 0 501, [.run 0 "/usr/bin/pmset" ["sleepnow"]])]

/-- The sample request is authorized, and its command delayed. -/
theorem sample_granted : Step sampleClients initial (.request sampleWorld [("action", .str "sleep")])
    [.authorized 0 "sleep" 501 7, .reply [("ok", .bool true)]] ⟨some 0, [⟨0, "sleep", 501, 1000⟩], 0, 1⟩ := by
  have hasked : requested [("action", .str "sleep")] = "sleep" := rfl
  have hoperation : operation [("action", .str "sleep")] = "sleep" := by simp [operation, hasked]
  have hclients : "/Applications/Ashacky.app/Contents/MacOS/Ashacky" ∈ sampleClients :=
    List.mem_singleton_self _
  simp [Step, step, handle, authorize, sampleWorld, hclients, hasked, hoperation, actions, operations,
    rested, initial, second]

/-- The sample run starts the command. -/
theorem sampleRun_steps : Steps (Step sampleClients) initial sampleRun ⟨some 0, [], 1000, 1⟩ :=
  .more sample_granted (.more rfl (.one rfl))

/-- The command of the sample run comes of the request that was authorized a second before. -/
theorem commands_authorized_sample : ∃ u₁ S request w policy pid action i,
    sampleRun.take 2 = u₁ ++ (.request S request,
      [.authorized 0 action policy.userID pid, .reply [("ok", .bool true)]]) :: w ∧
    Passes sampleClients S request policy pid action ∧ action ∈ operations ∧
    ("/usr/bin/pmset", ["sleepnow"]) = command action ∧
    Event.block 0 501 = .block i policy.userID ∧ second ≤ elapsed w :=
  (commands_authorized sampleRun_steps).2.2.2 _ _ _ [] 0 _ _ rfl (List.mem_singleton_self _)

end Ashacky.Session.PowerHelper
