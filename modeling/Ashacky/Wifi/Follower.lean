import Mathlib.Algebra.Order.Ring.Rat
import Ashacky.Wifi.Execution

/-!
# Wi-Fi — the link that is followed

`LinkFollower`: while a connection is up, the bridge compares what the kernel holds of the link with
what the host reports, and tells the kernel of a roam or of a loss.  A loss without an identity waits
for a second look a second later.

The link, the host's state, the host's answers, the clock and what comes of the report are open at
each update.

* `update_spec`: what an update does, with everything it went by.
* `Gap`: a gap that is being timed began at an update of that connection, and nothing since has ended
  it.
* `follower_reports`.
-/

namespace Ashacky.Wifi
open Ashacky.Support Ashacky.Control

/-! ### The follower -/

/-- What `snapshot` returns. -/
structure LinkSnapshot where
  sequence : UInt32
  flags : UInt8
  address : Address
  target : Data

namespace LinkSnapshot

def connected (l : LinkSnapshot) : Bool := l.flags &&& 1 ≠ 0
def isPrivate (l : LinkSnapshot) : Bool := l.flags &&& 2 ≠ 0
def pinned (l : LinkSnapshot) : Bool := l.flags &&& 4 ≠ 0
def busy (l : LinkSnapshot) : Bool := l.flags &&& 8 ≠ 0

end LinkSnapshot

/-- What is reported to the kernel. -/
inductive LinkUpdate where
  | lost
  | roamed (record : BSS)
deriving DecidableEq

/-- What an update meets: its arguments, the clock, and what comes of a report. -/
structure Poll where
  link : LinkSnapshot
  state : Object
  host : Host
  clock : ℚ
  sends : LinkUpdate → Except Raised Unit

/-- What an update reports, and how it ends. -/
structure Update where
  report : Option LinkUpdate
  result : Except Raised Unit

/-- `LinkFollower`. -/
structure Follower where
  missing : Option (UInt32 × ℚ)

section Follow

variable (P : Python)

/-- The scan for the access point of a roam.  There is none if the host has left it since. -/
def rescan (host : Host) (link : LinkSnapshot) (current : Data × Address) : Errand (Option BSS) := do
  let records ← scanRecords P host
  let selected ← fromExcept (actualBss records link.target current.2 link.isPrivate)
  let state ← host.rpc .wifiStatus
  let again ← fromExcept (identity P state)
  if again ≠ some current then return none else return some selected

/-- `report`. -/
def Poll.report (u : Poll) (update : LinkUpdate) : Update := ⟨some update, u.sends update⟩

/-- `update`. -/
def Follower.update (f : Follower) (u : Poll) : Update × Follower :=
  if !u.link.connected ∨ u.link.busy then (⟨none, .ok ()⟩, ⟨none⟩)
  else
    match identity P u.state with
    | .error e => (⟨none, .error e⟩, f)
    | .ok none =>
        -- Confirm a transient identity gap before reporting actual loss.
        match f.missing.filter fun m => m.1 = u.link.sequence with
        | none => (⟨none, .ok ()⟩, ⟨some (u.link.sequence, u.clock + 1)⟩)
        | some missing =>
            if u.clock < missing.2 then (⟨none, .ok ()⟩, f) else (u.report .lost, ⟨none⟩)
    | .ok (some current) =>
        if current.1 ≠ u.link.target ∨ (u.link.pinned ∧ current.2 ≠ u.link.address) then
          (u.report .lost, ⟨none⟩)
        else if current.2 = u.link.address then (⟨none, .ok ()⟩, ⟨none⟩)
        else
          match (rescan P u.host u.link current).run ⟨[], []⟩ with
          | .error e _ => (⟨none, .error e⟩, ⟨none⟩)
          | .ok none _ => (⟨none, .ok ()⟩, ⟨none⟩)
          | .ok (some selected) _ => (u.report (.roamed selected), ⟨none⟩)

def Follower.Step (f : Follower) (u : Poll) (o : Update) (f' : Follower) : Prop :=
  f.update P u = (o, f')

end Follow

/-! ### What a report rests on -/

section Reports

variable (P : Python)

/-- The host reports no identity. -/
def Absent (u : Poll) : Prop := identity P u.state = .ok none

/-- The host reports an identity. -/
def Present (u : Poll) : Prop := ∃ current, identity P u.state = .ok (some current)

/-- The link is up, and no request is pending. -/
def Follows (u : Poll) : Prop := u.link.connected = true ∧ u.link.busy = false

/-- The host is on another network, or on another access point than the pinned one. -/
def Contradicted (u : Poll) : Prop :=
  ∃ current, identity P u.state = .ok (some current) ∧
    (current.1 ≠ u.link.target ∨ (u.link.pinned = true ∧ current.2 ≠ u.link.address))

/-- The grounds of a roam to `record`.  `exactly` says which of the scanned records it is the only
one of. -/
structure Grounds (exactly : List BSS → Data → Address → Bool → List BSS) (u : Poll) (record : BSS) :
    Prop where
  follows : Follows u
  unpinned : u.link.pinned = false
  confirmed : ∃ current records s state,
    identity P u.state = .ok (some current) ∧ current.1 = u.link.target ∧
    (scanRecords P u.host).run ⟨[], []⟩ = .ok records s ∧
    exactly records u.link.target current.2 u.link.isPrivate = [record] ∧
    u.host s.asked .wifiStatus = .ok state ∧ identity P state = .ok (some current)

/-- Two updates of the connection found no identity, a second or more apart, and none between them
broke the gap. -/
def Lapsed (breaks : Poll → Prop) (t : List (Poll × Update)) (u : Poll) : Prop :=
  ∃ a u₁ o₁ b, t = a ++ (u₁, o₁) :: b ∧ u₁.link.sequence = u.link.sequence ∧ Absent P u₁ ∧ Absent P u ∧
    u₁.clock + 1 ≤ u.clock ∧ ∀ x ∈ b, ¬ breaks x.1

/-- The update ends a gap of the connection: it saw an identity, a link that is down or busy, or no
identity of another connection. -/
def Breaks (sequence : UInt32) (u : Poll) : Prop :=
  Present P u ∨ ¬ Follows u ∨ (Absent P u ∧ u.link.sequence ≠ sequence)

/-- The host does not say that the location is authorized. -/
def Unauthorized (state : Object) : Prop := state.lookup "locationAuthorized" ≠ some (.bool true)

end Reports

section Updates
variable {P : Python} {f f' : Follower} {u : Poll} {o : Update}

theorem identity_unauthorized {state : Object} (h : Unauthorized state) :
    identity P state = .error (.runtimeError "Host Wi-Fi identity unavailable") := by
  rw [identity]
  exact if_pos h

/-- What an update does. -/
inductive Judged (P : Python) (f : Follower) (u : Poll) : Update → Follower → Prop where
  | idle (h : ¬ Follows u) : Judged P f u ⟨none, .ok ()⟩ ⟨none⟩
  | raised (e : Raised) (hu : Follows u) (h : identity P u.state = .error e) : Judged P f u ⟨none, .error e⟩ f
  | noticed (hu : Follows u) (h : Absent P u) :
      Judged P f u ⟨none, .ok ()⟩ ⟨some (u.link.sequence, u.clock + 1)⟩
  | waiting (deadline : ℚ) (hu : Follows u) (h : Absent P u)
      (hf : f.missing = some (u.link.sequence, deadline)) :
      Judged P f u ⟨none, .ok ()⟩ f
  | lapsed (deadline : ℚ) (hu : Follows u) (h : Absent P u)
      (hf : f.missing = some (u.link.sequence, deadline)) (hdue : deadline ≤ u.clock) : Judged P f u (u.report .lost) ⟨none⟩
  | contradicted (hu : Follows u) (h : Contradicted P u) : Judged P f u (u.report .lost) ⟨none⟩
  | silent (r : Except Raised Unit) (h : Present P u) : Judged P f u ⟨none, r⟩ ⟨none⟩
  | roamed (record : BSS) (h : Grounds P matching u record) :
      Judged P f u (u.report (.roamed record)) ⟨none⟩

/-- The record of a roam is the only one that fits, and the host is still there. -/
theorem rescan_wp {host : Host} {link : LinkSnapshot} {current : Data × Address} (s : Doings) :
    wp (rescan P host link current)
      (fun selected _ => ∀ record, selected = some record → ∃ records s₁ state,
        (scanRecords P host).run s = .ok records s₁ ∧
        matching records link.target current.2 link.isPrivate = [record] ∧
        host s₁.asked .wifiStatus = .ok state ∧ identity P state = .ok (some current))
      (fun _ _ => True) s := by
  rw [rescan, wp_bind]
  refine wp_intro (fun records s₁ hscan => ?_) fun _ _ _ => trivial
  rw [wp_bind]
  refine wp_fromExcept (fun selected hselected => ?_) fun _ _ => trivial
  rw [wp_bind]
  refine wp_rpc (fun state hstate => ?_) fun _ _ => trivial
  rw [wp_bind]
  refine wp_fromExcept (fun again hagain => wp_ite (fun _ => nofun) fun hsame => ?_) fun _ _ => trivial
  rintro record ⟨⟩
  exact ⟨records, s₁, state, hscan, actualBss_eq_ok hselected, hstate, not_not.mp hsame ▸ hagain⟩

theorem update_spec (h : f.Step P u o f') : Judged P f u o f' := by
  rw [Follower.Step, Follower.update] at h
  split at h
  · next hidle =>
      cases h
      refine .idle fun hu => ?_
      simp [hu.1, hu.2] at hidle
  · next hu =>
      have hfollows : Follows u := by simpa [Follows] using hu
      split at h
      · next e he =>
          cases h
          exact .raised e hfollows he
      · next habsent =>
          split at h
          · cases h
            exact .noticed hfollows habsent
          · next missing hmissing =>
              obtain ⟨hf, hsequence⟩ := Option.filter_eq_some_iff.mp hmissing
              have hf' : f.missing = some (u.link.sequence, missing.2) := by
                rw [hf, ← of_decide_eq_true hsequence]
              split at h
              · cases h
                exact .waiting missing.2 hfollows habsent hf'
              · next hdue =>
                  cases h
                  exact .lapsed missing.2 hfollows habsent hf' (not_lt.mp hdue)
      · next current hcurrent =>
          split at h
          · next hother =>
              cases h
              exact .contradicted hfollows ⟨current, hcurrent, by simpa using hother⟩
          · next hagrees =>
              split at h
              · cases h
                exact .silent _ ⟨current, hcurrent⟩
              · next hmoved =>
                  split at h
                  · cases h
                    exact .silent _ ⟨current, hcurrent⟩
                  · cases h
                    exact .silent _ ⟨current, hcurrent⟩
                  · next selected s hrun =>
                      cases h
                      simp only [not_or, not_not, not_and] at hagrees
                      obtain ⟨records, s₁, state, hfound⟩ := (rescan_wp _).ok hrun selected rfl
                      -- A pinned link that agrees has its own address, and would be kept.
                      have hunpinned : u.link.pinned = false := by
                        by_contra hpinned
                        exact hmoved (hagrees.2 (by simpa using hpinned))
                      exact .roamed selected ⟨hfollows, hunpinned, current, records, s₁, state,
                        hcurrent, hagrees.1, hfound⟩

end Updates

/-! ### Runs -/

section Runs
variable {P : Python} {f f' : Follower} {u : Poll} {o : Update} {t : List (Poll × Update)}

/-- A gap that is being timed began at an update of its connection, and none since has broken it. -/
def Gap (P : Python) (f : Follower) (t : List (Poll × Update)) : Prop :=
  ∀ sequence deadline, f.missing = some (sequence, deadline) → ∃ a u o b, t = a ++ (u, o) :: b ∧
    u.link.sequence = sequence ∧ Absent P u ∧ u.clock + 1 = deadline ∧ ∀ x ∈ b, ¬ Breaks P sequence x.1

theorem Gap.ended (t : List (Poll × Update)) : Gap P ⟨none⟩ t := nofun

/-- A gap goes on over an update that does not break it. -/
theorem Gap.later (hgap : Gap P f t)
    (h : ∀ sequence deadline, f.missing = some (sequence, deadline) → ¬ Breaks P sequence u) :
    Gap P f (t ++ [(u, o)]) := by
  intro sequence deadline hf
  obtain ⟨a, u₁, o₁, b, rfl, hsequence, habsent, hclock, hb⟩ := hgap sequence deadline hf
  refine ⟨a, u₁, o₁, b ++ [(u, o)], by simp, hsequence, habsent, hclock, fun x hx => ?_⟩
  rcases List.mem_append.mp hx with hx | hx
  · exact hb x hx
  · obtain rfl := List.mem_singleton.mp hx
    exact h sequence deadline hf

theorem not_breaks_of_absent {sequence : UInt32} (hu : Follows u) (habsent : Absent P u)
    (hsame : u.link.sequence = sequence) : ¬ Breaks P sequence u := by
  rintro (⟨current, hcurrent⟩ | hidle | ⟨-, hother⟩)
  · rw [Absent] at habsent
    rw [habsent] at hcurrent
    cases hcurrent
  · exact hidle hu
  · exact hother hsame

theorem not_breaks_of_raised {sequence : UInt32} {e : Raised} (hu : Follows u)
    (he : identity P u.state = .error e) : ¬ Breaks P sequence u := by
  rintro (⟨current, hcurrent⟩ | hidle | ⟨habsent, -⟩)
  · rw [he] at hcurrent
    cases hcurrent
  · exact hidle hu
  · rw [Absent, he] at habsent
    cases habsent

/-- **One update** keeps what is known of the gap. -/
theorem Gap.step (hgap : Gap P f t) (h : f.Step P u o f') : Gap P f' (t ++ [(u, o)]) := by
  cases update_spec h with
  | idle | lapsed | contradicted | silent | roamed => exact .ended _
  | raised e hu he => exact hgap.later fun sequence _ _ => not_breaks_of_raised hu he
  | noticed hu habsent =>
      rintro sequence deadline ⟨⟩
      exact ⟨t, u, _, [], rfl, rfl, habsent, rfl, nofun⟩
  | waiting deadline hu habsent hf =>
      refine hgap.later fun sequence deadline' hf' => ?_
      obtain ⟨rfl, -⟩ := Prod.mk.inj (Option.some.inj (hf.symm.trans hf'))
      exact not_breaks_of_absent hu habsent rfl

theorem Run.gap (h : Steps (Follower.Step P) ⟨none⟩ t f) : Gap P f t :=
  Steps.invariant_trace (I := Gap P) (fun hI hstep => hI.step hstep) h (.ended [])

end Runs

/-- **Only confirmed facts are reported.**  In every run of updates: a roam has its grounds; a loss is
one that the host contradicts, or one that was confirmed a second later, over a gap that no update has
broken; and a state without authorization causes no report. -/
theorem follower_reports (P : Python) {t : List (Poll × Update)} {f : Follower}
    (h : Steps (Follower.Step P) ⟨none⟩ t f) {a b : List (Poll × Update)} {u : Poll} {o : Update}
    (ht : t = a ++ (u, o) :: b) :
    (∀ record, o.report = some (.roamed record) → Grounds P matching u record) ∧
      (o.report = some .lost → Follows u ∧
        (Contradicted P u ∨ Lapsed P (Breaks P u.link.sequence) a u)) ∧
      (Unauthorized u.state → o.report = none) := by
  subst ht
  obtain ⟨f₁, f₂, hbefore, hstep, -⟩ := h.split_at
  refine ⟨fun record hreport => ?_, fun hreport => ?_, fun hstate => ?_⟩
  · cases update_spec hstep with
    | roamed record' hgrounds =>
        cases hreport
        exact hgrounds
    | idle | raised | noticed | waiting | lapsed | contradicted | silent => cases hreport
  · cases update_spec hstep with
    | contradicted hu hother => exact ⟨hu, .inl hother⟩
    | lapsed deadline hu habsent hf hdue =>
        obtain ⟨a₁, u₁, o₁, a₂, rfl, hsequence, habsent₁, hclock, hgap⟩ :=
          Run.gap hbefore _ _ hf
        exact ⟨hu, .inr ⟨a₁, u₁, o₁, a₂, rfl, hsequence, habsent₁, habsent, hclock ▸ hdue, hgap⟩⟩
    | idle | raised | noticed | waiting | silent | roamed => cases hreport
  · have hidentity := identity_unauthorized (P := P) hstate
    cases update_spec hstep with
    | idle | raised | noticed | waiting | silent => rfl
    | lapsed _ _ habsent =>
        rw [Absent, hidentity] at habsent
        cases habsent
    | contradicted _ hother =>
        obtain ⟨current, hcurrent, -⟩ := hother
        rw [hidentity] at hcurrent
        cases hcurrent
    | roamed record hgrounds =>
        obtain ⟨current, -, -, -, hcurrent, -⟩ := hgrounds.confirmed
        rw [hidentity] at hcurrent
        cases hcurrent

/-! ### Facts that a report does not rest on -/

/-- The records of an access point that are compatible, whatever their network. -/
def sameBssid (records : List BSS) (_target : Data) (address : Address) (isPrivate : Bool) : List BSS :=
  records.filter fun r => r.bssid = address ∧ compatible r isPrivate

/-- As `Breaks`, or any other connection. -/
def BreaksAny (P : Python) (sequence : UInt32) (u : Poll) : Prop :=
  Present P u ∨ ¬ Follows u ∨ u.link.sequence ≠ sequence

/-- A host that is associated with the second access point. -/
def secondState : Object :=
  [("ok", .bool true), ("locationAuthorized", .bool true), ("networkIdentityAvailable", .bool true),
    ("ssidBase64", .str "QVA="), ("bssid", .str "02:00:00:00:00:02")]

/-- An entry for the second access point, with this network. -/
def secondEntry (ssid ies : String) : Json :=
  .obj [("networkID", .str "00000000-0000-4000-8000-000000000001"), ("ssidBase64", .str ssid),
    ("bssid", .str "02:00:00:00:00:02"), ("signalDBm", .int (-60)), ("channelBand", .int 1),
    ("channel", .int 1), ("informationElementsBase64", .str ies), ("open", .bool true)]

/-- A host that finds two networks there. -/
def twoNetworks : Host := fun _ request =>
  match request with
  | .scan _ => .ok [("ok", .bool true), ("scanID", .str "00000000-0000-4000-8000-000000000002"),
      ("total", .int 2), ("networks", .arr [secondEntry "QVA=" "AAJBUA==", secondEntry "WFk=" "AAJYWQ=="])]
  | _ => .ok secondState

/-- The link is open and up, at the first access point. -/
def openLink (sequence : UInt32) : LinkSnapshot := ⟨sequence, 1, firstBssid, [65, 80]⟩

def roamPoll : Poll := ⟨openLink 8, secondState, twoNetworks, 0, fun _ => .ok ()⟩

/-- The host has no identity, or does not say that the location is authorized. -/
def gapPoll (sequence : UInt32) (authorized : Bool) (clock : ℚ) : Poll :=
  ⟨openLink sequence, [("ok", .bool true), ("locationAuthorized", .bool authorized)], twoNetworks, clock,
    fun _ => .ok ()⟩

/-- The run of the updates, from the start. -/
def followed (P : Python) (f : Follower) : List Poll → List (Poll × Update)
  | [] => []
  | u :: rest => (u, (f.update P u).1) :: followed P (f.update P u).2 rest

theorem steps_followed (P : Python) (f : Follower) (polls : List Poll) :
    ∃ f', Steps (Follower.Step P) f (followed P f polls) f' := by
  induction polls generalizing f with
  | nil => exact ⟨f, .refl f⟩
  | cons u rest ih =>
      obtain ⟨f', hrest⟩ := ih (f.update P u).2
      exact ⟨f', .more rfl hrest⟩

/-- The two networks have an access point of one address, and both are compatible. -/
theorem sameBssid_twoNetworks {records : List BSS} {s : Doings}
    (h : (scanRecords plainPython twoNetworks).run ⟨[], []⟩ = .ok records s) :
    (sameBssid records [65, 80] secondBssid false).length = 2 := by
  have hfound : (match (scanRecords plainPython twoNetworks).run ⟨[], []⟩ with
      | .ok records _ => (sameBssid records [65, 80] secondBssid false).length
      | .error _ _ => 0) = 2 := by decide +kernel
  rw [h] at hfound
  exact hfound

/-- **A roam may be reported where another network shares the address**, and a loss across a gap in
which another connection was looked at without authorization. -/
theorem follower_reports_less :
    (¬ ∀ (P : Python) (t : List (Poll × Update)) (f : Follower),
      Steps (Follower.Step P) ⟨none⟩ t f → ∀ a u o b, t = a ++ (u, o) :: b →
        ∀ record, o.report = some (LinkUpdate.roamed record) → Grounds P sameBssid u record) ∧
    ¬ ∀ (P : Python) (t : List (Poll × Update)) (f : Follower),
      Steps (Follower.Step P) ⟨none⟩ t f → ∀ a u o b, t = a ++ (u, o) :: b →
        o.report = some .lost → Contradicted P u ∨ Lapsed P (BreaksAny P u.link.sequence) a u := by
  constructor
  · intro hall
    obtain ⟨f, hrun⟩ := steps_followed plainPython ⟨none⟩ [roamPoll]
    have hreport : (Follower.update plainPython ⟨none⟩ roamPoll).1.report =
        some (.roamed ⟨"00000000-0000-4000-8000-000000000001", [65, 80], secondBssid, 2412, -6000,
          [0, 2, 65, 80], true⟩) := by decide +kernel
    obtain ⟨-, -, current, records, s, state, hcurrent, -, hscan, hone, -⟩ :=
      hall _ _ _ hrun [] _ _ [] rfl _ hreport
    have hidentity : identity plainPython roamPoll.state = .ok (some ([65, 80], secondBssid)) := by
      decide +kernel
    rw [hidentity] at hcurrent
    obtain rfl := Option.some.inj (Except.ok.inj hcurrent)
    have htwo := sameBssid_twoNetworks hscan
    rw [show sameBssid records [65, 80] secondBssid false = [_] from hone] at htwo
    cases htwo
  · intro hall
    obtain ⟨f, hrun⟩ := steps_followed plainPython ⟨none⟩
      [gapPoll 8 true 0, gapPoll 9 false 1, gapPoll 8 true 2]
    have habsent : identity plainPython (gapPoll 8 true 2).state = .ok none := by decide +kernel
    rcases hall _ _ _ hrun [_, _] _ _ [] rfl (by decide +kernel) with
      ⟨current, hcurrent, -⟩ | ⟨a, u, o, b, ht, hsequence, -, -, hclock, hb⟩
    · rw [habsent] at hcurrent
      cases hcurrent
    · match a, ht with
      | [], ht =>
          obtain ⟨hfirst, rfl⟩ := List.cons.inj ht
          exact hb _ (List.mem_singleton_self _) (.inr (.inr (by decide)))
      | [x], ht =>
          obtain ⟨hsecond, -⟩ := List.cons.inj (List.cons.inj ht).2
          obtain rfl : gapPoll 9 false 1 = u := congrArg Prod.fst hsecond
          exact absurd hsequence (by decide)
      | x :: y :: rest, ht =>
          obtain ⟨-, htail⟩ := List.cons.inj ht
          obtain ⟨-, htail⟩ := List.cons.inj htail
          exact absurd htail (by simp)

/-- A gap of two seconds is reported. -/
theorem follower_reports_gap :
    Follows (gapPoll 8 true 2) ∧ (Contradicted plainPython (gapPoll 8 true 2) ∨
      Lapsed plainPython (Breaks plainPython 8)
        [(gapPoll 8 true 0, (Follower.update plainPython ⟨none⟩ (gapPoll 8 true 0)).1)]
        (gapPoll 8 true 2)) := by
  obtain ⟨f, hrun⟩ := steps_followed plainPython ⟨none⟩ [gapPoll 8 true 0, gapPoll 8 true 2]
  exact (follower_reports plainPython hrun (a := [_]) (b := []) rfl).2.1 (by decide +kernel)

end Ashacky.Wifi
