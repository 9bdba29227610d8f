import Ashacky.Wifi.Generations

/-!
# Wi-Fi — Association

What the driver's association is, over whole runs.  `story` reads a run's trace: the connect
request that is still to be answered, the one the current association was made for, and the last
sample that was accepted.  `Associated` ties the driver's fields to it.

* `Associated.step`: one step keeps it; the pin and the security contract survive a roam.
* `association_invariant`: a link stands for the request that established it, and its signal is a
  sample of the address it stands at.
* `anonymous_iff`: no identity is left on a link that is down, exactly in the runs that do not
  stop the device while the link stands and nothing is pending.
-/

namespace Ashacky.Wifi
open Ashacky.Support

/-! ### What a trace says -/

/-- The requests and samples of a run so far. -/
structure Story where
  /-- The accepted connect that is not completed. -/
  asked : Option ConnectParams
  /-- The connect whose success made the association that is not lost. -/
  established : Option ConnectParams
  /-- The address and the signal of the last accepted sample. -/
  sample : Option (Address × Int8)

namespace Story

/-- A call to the kernel. -/
def call (s : Story) : Call → Story
  | .connectResult _ status =>
      { s with asked := none, established := if status = statusSuccess then s.asked else none }
  | .disconnected _ _ => { s with established := none }
  | _ => s

/-- A step: its calls, and then what it accepted. -/
def step (s : Story) : Event × Output → Story
  | (.connectNetwork sme _, ⟨.ok _, calls⟩) => { calls.foldl call s with asked := some sme }
  | (.control _ _ _ _ (.signal sample), ⟨.ok _, calls⟩) =>
      { calls.foldl call s with sample := some (sample.bssid, sample.signal) }
  | (_, ⟨_, calls⟩) => calls.foldl call s

end Story

/-- The story of a trace. -/
def story (t : Trace) : Story := t.foldl Story.step ⟨none, none, none⟩

/-- One more step goes on with the story. -/
@[simp] theorem story_snoc (t : Trace) (s : Event × Output) : story (t ++ [s]) = (story t).step s := by
  simp [story]

section Story
variable {s : Story} {e : Event} {calls : List Call}

/-- Calls that complete nothing are no part of the story. -/
theorem Story.calls_quiet (h : ∀ c ∈ calls, c.isCompletion = false) : calls.foldl Story.call s = s := by
  induction calls with
  | nil => rfl
  | cons c calls ih =>
      have hc : s.call c = s := by
        have hquiet := h c (by simp)
        cases c <;> first | rfl | cases hquiet
      rw [List.foldl_cons, hc]
      exact ih fun c' h' => h c' (by simp [h'])

/-- The end of a scan is no part of the story. -/
theorem Story.calls_scanCalls (p : Priv) (aborted : Bool) :
    (p.scanCalls aborted).foldl Story.call s = s := by
  cases h : p.scan <;> simp [Priv.scanCalls, h, Story.call]

/-- A step that begins no request and submits no sample is its calls. -/
theorem Story.step_of_not_request (he : e.isRequest = false) (o : Output) :
    s.step (e, o) = o.calls.foldl Story.call s := by
  unfold Story.step
  split <;> rename_i h
  · cases h
    cases he
  · cases h
    cases he
  · cases h
    rfl

/-- A refused call is no part of it either. -/
theorem Story.step_error (e : Event) (x : Errno) : s.step (e, ⟨.error x, []⟩) = s := by
  unfold Story.step
  split <;> rename_i h
  · cases h
  · cases h
  · cases h
    rfl

end Story

/-! ### The association -/

/-- The pending request is this connect. -/
structure Asks (c : Connection) (sme : ConnectParams) : Prop where
  accepted : Priv.checkParams sme = none
  filled : c = Priv.fillConnection { Connection.zero with operation := .connect, sequence := c.sequence } sme

/-- The association is one for this connect. -/
structure Serves (p : Priv) (sme : ConnectParams) : Prop where
  ssid : ∃ ssid, sme.ssid = some ssid ∧ 1 ≤ ssid.length ∧ ssid.length ≤ 32 ∧
    p.ssidLength.toNat = ssid.length ∧ p.ssid = .copy ssid
  privacy : p.privacy = sme.privacy
  pinned : p.pinned = !(sme.bssid.getD .zero).isZero
  pin : p.pinned → sme.bssid = some p.associatedBssid
  valid : p.associatedBssid.isValid

/-- The driver's state against the story of its run. -/
structure Associated (s : Story) (p : Priv) : Prop where
  pending : p.connection.operation = .connect → ∃ sme, s.asked = some sme ∧ Asks p.connection sme
  exclusive : p.connected → p.connection.operation ≠ .connect
  served : p.connected → ∃ sme, s.established = some sme ∧ Serves p sme
  sampled : p.signalValid → p.connected ∧ s.sample = some (p.associatedBssid, p.signal)

/-- What the checks on a connect leave: a name of 1 to 32 bytes, and a key exactly for a private
network. -/
theorem checkParams_eq_none {sme : ConnectParams} (h : Priv.checkParams sme = none) :
    (∃ ssid, sme.ssid = some ssid ∧ 1 ≤ ssid.length ∧ ssid.length ≤ 32) ∧
      sme.privacy = sme.psk.isSome := by
  unfold Priv.checkParams at h
  split at h
  · cases h
  rename_i hssid
  split at h
  · cases h
  split at h
  · cases h
  split at h
  · cases h
  rename_i hopen
  split at h
  · cases h
  rename_i hkey
  constructor
  · cases hs : sme.ssid with
    | none => simp [hs] at hssid
    | some ssid =>
        simp only [hs, Option.all_some, decide_eq_true_eq, not_or] at hssid
        exact ⟨ssid, rfl, by omega, by omega⟩
  · cases hp : sme.privacy with
    | false => simpa [hp] using hopen
    | true =>
        simp only [hp, true_and, not_or, Option.isNone_iff_eq_none] at hkey
        exact (Option.isSome_iff_ne_none.mpr hkey.1).symm

/-- A connect that succeeds at an address it may have makes an association that serves it. -/
theorem Asks.serves {p : Priv} {sme : ConnectParams} {bssid : Address} (h : Asks p.connection sme)
    (hvalid : bssid.isValid) (hpin : p.connection.bssid.isZero ∨ bssid = p.connection.bssid) :
    Serves (p.established bssid) sme := by
  obtain ⟨hssid, hkey⟩ := checkParams_eq_none h.accepted
  obtain ⟨ssid, hs, hlow, hhigh⟩ := hssid
  have hbssid : p.connection.bssid = sme.bssid.getD .zero := by rw [h.filled]; rfl
  have hlength : p.connection.ssidLength = UInt8.ofNat ssid.length := by
    rw [h.filled, Priv.fillConnection, hs]
    rfl
  have hcopy : p.connection.ssid = .copy ssid := by
    rw [h.filled, Priv.fillConnection, hs]
    rfl
  have hpsk : p.connection.pskLength = if sme.psk.isSome then 32 else 0 := by
    rw [h.filled]
    rfl
  refine ⟨⟨ssid, hs, hlow, hhigh, ?_, hcopy⟩, ?_, ?_, fun hp => ?_, hvalid⟩
  · show p.connection.ssidLength.toNat = ssid.length
    rw [hlength, UInt8.toNat_ofNat', Nat.mod_eq_of_lt (by omega)]
  · show decide (p.connection.pskLength ≠ 0) = sme.privacy
    rw [hpsk, hkey]
    cases sme.psk.isSome <;> rfl
  · show (!p.connection.bssid.isZero) = _
    rw [hbssid]
  · have hzero : p.connection.bssid.isZero = false := by
      simpa [Priv.established] using hp
    have heq : bssid = p.connection.bssid := by simpa [hzero] using hpin
    show sme.bssid = some bssid
    cases hb : sme.bssid with
    | none =>
        rw [hb] at hbssid
        rw [hbssid] at hzero
        cases hzero
    | some b =>
        rw [hb] at hbssid
        rw [heq, hbssid]
        rfl

/-- A valid address is not zero. -/
theorem Address.not_isZero_of_isValid {a : Address} (h : a.isValid) : a.isZero = false := by
  rw [Address.isValid, Bool.and_eq_true] at h
  simpa using h.2

/-- Nothing is associated, and no sample is stored. -/
theorem Associated.of_down {s : Story} {p : Priv} (hop : p.connection.operation ≠ .connect)
    (hconn : p.connected = false) (hsignal : p.signalValid = false) : Associated s p where
  pending := fun h => absurd h hop
  exclusive := fun h => absurd h (by simp [hconn])
  served := fun h => absurd h (by simp [hconn])
  sampled := fun h => absurd h (by simp [hsignal])

/-- At the start there is no link and no story. -/
theorem Associated.init (lower : Option Lower) : Associated (story []) (.init lower) :=
  .of_down nofun rfl rfl

/-- What the association is: name, security, pin and address. -/
def Priv.identity (p : Priv) : Block × UInt8 × Bool × Bool × Address :=
  (p.ssid, p.ssidLength, p.privacy, p.pinned, p.associatedBssid)

/-- Which request a state serves depends on its identity alone. -/
theorem Serves.congr {p p' : Priv} {sme : ConnectParams} (h : Serves p sme)
    (hid : p'.identity = p.identity) : Serves p' sme := by
  simp only [Priv.identity, Prod.mk.injEq] at hid
  obtain ⟨h₁, h₂, h₃, h₄, h₅⟩ := hid
  exact ⟨h₁ ▸ h₂ ▸ h.ssid, h₃ ▸ h.privacy, h₄ ▸ h.pinned, h₄ ▸ h₅ ▸ h.pin, h₅ ▸ h.valid⟩

/-- Fields that are no part of the association may change. -/
theorem Associated.congr {s : Story} {p p' : Priv} (h : Associated s p)
    (hconnection : p'.connection = p.connection) (hconn : p'.connected = p.connected)
    (hid : p'.identity = p.identity) (hsignal : p'.signal = p.signal)
    (hvalid : p'.signalValid = p.signalValid) : Associated s p' where
  pending := hconnection ▸ h.pending
  exclusive := hconnection ▸ hconn ▸ h.exclusive
  served := fun hc => by
    obtain ⟨sme, hsme, hserves⟩ := h.served (hconn ▸ hc)
    exact ⟨sme, hsme, hserves.congr hid⟩
  sampled := fun hv => by
    have hbssid : p'.associatedBssid = p.associatedBssid := congrArg (·.2.2.2.2) hid
    rw [hconn, hbssid, hsignal]
    exact h.sampled (hvalid ▸ hv)

/-- Each transition keeps the state and the story in agreement. -/
theorem Associated.step {hz : UInt64} {s : Story} {p p' : Priv} {e : Event} {o : Output}
    (h : Associated s p) (ht : Transition hz p e o p') : Associated (s.step (e, o)) p' := by
  cases ht with
  | failed =>
      rw [Story.step_error]
      exact h
  | quiet readers lower running carrier he hcalls =>
      rw [Story.step_of_not_request he, Story.calls_quiet hcalls]
      exact h.congr rfl rfl rfl rfl rfl
  | scanStarted => exact h.congr rfl rfl rfl rfl rfl
  | scanFinished he =>
      rw [Story.step_of_not_request he, Story.calls_scanCalls]
      exact h.congr rfl rfl rfl rfl rfl
  | connectStarted hscan hop hconn hsme =>
      refine ⟨fun _ => ⟨_, rfl, hsme, rfl⟩, fun hc => ?_, fun hc => ?_, fun hv => ?_⟩
      · exact absurd hc (by simp [hconn])
      · exact absurd hc (by simp [hconn])
      · exact absurd (h.sampled hv).1 (by simp [hconn])
  | disconnectStarted hop hq =>
      -- A pending connect is failed first; otherwise the association stands until it is left.
      subst hq
      cases hop' : p.connection.operation with
      | none =>
          have hcalls : p.endCalls statusUnspecifiedFailure none = [] := by
            simp [Priv.endCalls, hop']
          rw [hcalls, if_neg (by simp)]
          refine ⟨by rintro ⟨⟩, fun _ => by rintro ⟨⟩, fun hc => ?_, h.sampled⟩
          obtain ⟨sme, hsme, hserves⟩ := h.served hc
          exact ⟨sme, hsme, hserves.congr rfl⟩
      | connect => exact .of_down (by rintro ⟨⟩) rfl rfl
      | disconnect => exact absurd hop' hop
  | established hop hsequence hstatus hvalid hpin =>
      obtain ⟨sme, hasked, hasks⟩ := h.pending hop
      refine ⟨by rintro ⟨⟩, by rintro - ⟨⟩, fun _ => ⟨sme, ?_, hasks.serves hvalid hpin⟩, by rintro ⟨⟩⟩
      simpa [Story.step, Story.call] using hasked
  | ended => exact .of_down (by rintro ⟨⟩) rfl rfl
  | linkDown hconn hop => exact .of_down (by simp [Priv.dropLink, hop]) rfl rfl
  | roamed hconn hop hstate hsequence hvalid hpin hsecurity =>
      obtain ⟨sme, hsme, hserves⟩ := h.served hconn
      have hzero := Address.not_isZero_of_isValid hserves.valid
      refine ⟨fun hc => absurd hc (by simp [hop]), h.exclusive, fun _ => ⟨sme, hsme, ?_⟩, by rintro ⟨⟩⟩
      refine ⟨hserves.ssid, hserves.privacy, hserves.pinned, fun hp => ?_, hvalid⟩
      have hsame := hpin hp
      simp only [hzero, Bool.false_eq_true, false_or] at hsame
      rw [← hsame]
      exact hserves.pin hp
  | sampled hconn hbssid =>
      refine ⟨h.pending, h.exclusive, fun hc => ?_, fun _ => ⟨hconn, ?_⟩⟩
      · obtain ⟨sme, hsme, hserves⟩ := h.served hc
        exact ⟨sme, hsme, hserves.congr rfl⟩
      · simp [Story.step, hbssid]
  | stopped hq =>
      rcases hq with ⟨-, rfl, -⟩ | ⟨hop, rfl, -⟩
      · exact .of_down (by rintro ⟨⟩) rfl rfl
      · exact .of_down (by simp [hop]) rfl rfl

/-- State and story agree in every run. -/
theorem Run.associated {hz : UInt64} {lower : Option Lower} {t : Trace} {p : Priv}
    (h : Run hz (.init lower) t p) : Associated (story t) p :=
  Steps.invariant_trace (I := fun p t => Associated (story t) p)
    (fun ha hs => by
      rw [story_snoc]
      exact ha.step (transition_of_step hs)) h (.init lower)

/-- The step moves the association to another BSS on a roam report whose record passed
`compatible_security`. -/
def Moved (p p' : Priv) (e : Event) : Prop :=
  ∃ file jiffies input informed,
    e = .control file true true jiffies (.reportLink input informed) ∧ input.report.state = 1 ∧
      p'.associatedBssid = input.report.bssid ∧
      compatibleSecurity input.ies p.privacy input.report.capability

/-- A step from an association to an association keeps it but for its address, and the address
changes only by a roam. -/
theorem Transition.keeps {hz : UInt64} {p p' : Priv} {e : Event} {o : Output}
    (h : Transition hz p e o p') (hx : p.connected → p.connection.operation ≠ .connect)
    (hconn : p.connected) (hconn' : p'.connected) :
    p'.ssid = p.ssid ∧ p'.ssidLength = p.ssidLength ∧ p'.privacy = p.privacy ∧
      p'.pinned = p.pinned ∧ (p'.associatedBssid ≠ p.associatedBssid → Moved p p' e) := by
  cases h with
  | failed | quiet | scanStarted | scanFinished | connectStarted | sampled =>
      exact ⟨rfl, rfl, rfl, rfl, fun hne => absurd rfl hne⟩
  | disconnectStarted hop hq =>
      subst hq
      rw [if_neg (hx hconn)]
      exact ⟨rfl, rfl, rfl, rfl, fun hne => absurd rfl hne⟩
  | established hop => exact absurd hop (hx hconn)
  | ended => cases hconn'
  | linkDown => cases hconn'
  | roamed _ _ hstate _ _ _ hsecurity =>
      exact ⟨rfl, rfl, rfl, rfl, fun _ => ⟨_, _, _, _, rfl, hstate, rfl, hsecurity⟩⟩
  | stopped hq =>
      rcases hq with ⟨-, rfl, -⟩ | ⟨-, rfl, -⟩ <;> cases hconn'

/-- **The association.**  In every state of every run, a link that stands is not being connected,
has a name of 1 to 32 bytes and a valid unicast address, and its name and its security are those
of the connect that established it; a pinned one stands at the address that connect pinned.  A
step keeps name, security and pin, and moves the link only on a roam report whose record passed
`compatible_security` for that security.  A stored signal is the last sample, and was submitted
for the address the link stands at. -/
theorem association_invariant (hz : UInt64) (lower : Option Lower) (t : Trace) (p : Priv)
    (h : Run hz (.init lower) t p) :
    (p.connected →
      p.connection.operation ≠ .connect ∧
      1 ≤ p.ssidLength.toNat ∧ p.ssidLength.toNat ≤ 32 ∧
      p.associatedBssid.isValid ∧
      ∃ sme ssid, (story t).established = some sme ∧
        sme.ssid = some ssid ∧ p.ssidLength.toNat = ssid.length ∧ p.ssid = .copy ssid ∧
        p.privacy = sme.privacy ∧
        p.pinned = !(sme.bssid.getD .zero).isZero ∧
        (p.pinned → sme.bssid = some p.associatedBssid)) ∧
    (∀ e, p.connected → (p.step hz e).2.connected →
      (p.step hz e).2.ssid = p.ssid ∧ (p.step hz e).2.ssidLength = p.ssidLength ∧
      (p.step hz e).2.privacy = p.privacy ∧ (p.step hz e).2.pinned = p.pinned ∧
      ((p.step hz e).2.associatedBssid ≠ p.associatedBssid → Moved p (p.step hz e).2 e)) ∧
    (p.signalValid →
      p.connected ∧ (story t).sample = some (p.associatedBssid, p.signal)) := by
  have ha := Run.associated h
  refine ⟨fun hconn => ?_, fun e => (step_transition hz p e).keeps ha.exclusive, ha.sampled⟩
  obtain ⟨sme, hsme, hserves⟩ := ha.served hconn
  obtain ⟨ssid, hssid, hlow, hhigh, hlength, hcopy⟩ := hserves.ssid
  refine ⟨ha.exclusive hconn, by omega, by omega, hserves.valid, sme, ssid, hsme, hssid, hlength,
    hcopy, hserves.privacy, hserves.pinned, hserves.pin⟩

/-- A connect to an open network of a given name. -/
def openNetwork (ssid : Data) (bssid : Option Address) : ConnectParams where
  ssid := some ssid
  bssid := bssid
  privacy := false
  mfpRequired := false
  keyLen := 0
  saePwd := false
  psk := none
  wpaVersions := 0
  cipherGroup := 0
  ciphersPairwise := []
  akmSuites := []

/-- A pinned connect that succeeds, and a sample. -/
def pinnedLink : List Event :=
  [.openDevice, .connectNetwork (openNetwork [65, 80] (some firstBssid)) 0,
    .control 0 true true 0 (.connectionResult ⟨1, 0, firstBssid⟩),
    .control 0 true true 5 (.signal ⟨firstBssid, -40, 0⟩)]

/-- The sample's pinned link stands, and its signal was sampled at that address. -/
theorem association_invariant_pinned :
    ((Priv.init none).run 250 pinnedLink).2.connected ∧
    ((Priv.init none).run 250 pinnedLink).2.ssidLength.toNat ≤ 32 ∧
    (story ((Priv.init none).run 250 pinnedLink).1).sample =
      some (firstBssid, ((Priv.init none).run 250 pinnedLink).2.signal) := by
  have h := association_invariant 250 none _ _ (Priv.run_steps 250 (.init none) pinnedLink)
  exact ⟨by decide, (h.1 (by decide)).2.2.1, (h.2.2 (by decide)).2⟩

/-! ### A link that is down -/

/-- Nothing of an association is left. -/
structure Anonymous (p : Priv) : Prop where
  ssidLength : p.ssidLength = 0
  ssid : p.ssid = .zero
  privacy : p.privacy = false
  pinned : p.pinned = false
  bssid : p.associatedBssid = .zero
  signal : p.signalValid = false

/-- Nothing of an association is in a snapshot: no name, no address, and neither the flag of a
private network nor that of a pin. -/
structure AnonymousLink (l : Link) : Prop where
  ssidLength : l.ssidLength = 0
  ssid : l.ssid = .zero
  bssid : l.bssid = .zero
  flags : l.flags &&& 6 = 0

/-- No identity survives: neither in the state nor in a snapshot without the flag of a
connection. -/
def NoIdentity (p : Priv) : Prop :=
  (p.connected = false → Anonymous p) ∧ (p.link.flags &&& 1 = 0 → AnonymousLink p.link)

/-- The first flag tells whether there is a link. -/
theorem linkFlags_connected (connected privacy pinned busy : Bool) :
    Priv.linkFlags connected privacy pinned busy &&& 1 = 0 ↔ connected = false := by
  revert connected privacy pinned busy
  decide

/-- Without privacy and without a pin, their flags are clear. -/
theorem linkFlags_identity (connected busy : Bool) :
    Priv.linkFlags connected false false busy &&& 6 = 0 := by
  revert connected busy
  decide

/-- A snapshot has what the state has. -/
theorem noIdentity_iff {p : Priv} : NoIdentity p ↔ (p.connected = false → Anonymous p) := by
  refine ⟨fun h => h.1, fun h => ⟨h, fun hflags => ?_⟩⟩
  have hanon := h ((linkFlags_connected _ _ _ _).mp hflags)
  refine ⟨hanon.ssidLength, hanon.ssid, hanon.bssid, ?_⟩
  show Priv.linkFlags _ p.privacy p.pinned _ &&& 6 = 0
  rw [hanon.privacy, hanon.pinned]
  exact linkFlags_identity _ _

/-- The state `stop_device` may find: a request is pending, or no link stands. -/
def Stoppable (p : Priv) : Prop := p.connected = false ∨ p.connection.operation ≠ .none

/-- Whether anything of an association is left is a matter of the identity and the signal. -/
theorem Anonymous.congr {p p' : Priv} (h : Anonymous p) (hid : p'.identity = p.identity)
    (hsignal : p'.signalValid = p.signalValid) : Anonymous p' := by
  simp only [Priv.identity, Prod.mk.injEq] at hid
  obtain ⟨h₁, h₂, h₃, h₄, h₅⟩ := hid
  exact ⟨h₂ ▸ h.ssidLength, h₁ ▸ h.ssid, h₃ ▸ h.privacy, h₄ ▸ h.pinned, h₅ ▸ h.bssid,
    hsignal ▸ h.signal⟩

/-- A step leaves no identity on a link that is down, unless it stops the device under one that
stands. -/
theorem Transition.anonymous {hz : UInt64} {p p' : Priv} {e : Event} {o : Output}
    (ht : Transition hz p e o p') (h : p.connected = false → Anonymous p)
    (hstop : e = .stopDevice → Stoppable p) : p'.connected = false → Anonymous p' := by
  cases ht with
  | failed => exact h
  | quiet | scanStarted | scanFinished | connectStarted =>
      exact fun hc => (h hc).congr rfl rfl
  | disconnectStarted hop hq =>
      subst hq
      split
      · exact fun _ => ⟨rfl, rfl, rfl, rfl, rfl, rfl⟩
      · exact fun hc => (h hc).congr rfl rfl
  | established => exact nofun
  | ended => exact fun _ => ⟨rfl, rfl, rfl, rfl, rfl, rfl⟩
  | linkDown => exact fun _ => ⟨rfl, rfl, rfl, rfl, rfl, rfl⟩
  | roamed hconn => exact fun hc => absurd hconn (by simpa using hc)
  | sampled hconn => exact fun hc => absurd hconn (by simpa using hc)
  | stopped hq =>
      rcases hq with ⟨-, rfl, -⟩ | ⟨hop, rfl, -⟩
      · exact fun _ => ⟨rfl, rfl, rfl, rfl, rfl, rfl⟩
      · have hdown : p.connected = false := (hstop rfl).resolve_right (by simp [hop])
        have hanon := h hdown
        exact fun _ => ⟨hanon.ssidLength, hanon.ssid, hanon.privacy, hanon.pinned, hanon.bssid, rfl⟩

/-- A stop with nothing pending ends the link and leaves its name. -/
theorem stopDevice_keeps_name {p : Priv} (hop : p.connection.operation = .none) :
    p.stopDevice.2.connected = false ∧ p.stopDevice.2.ssidLength = p.ssidLength := by
  unfold Priv.stopDevice
  dsimp only
  rw [Priv.finishScan_eq]
  dsimp only
  set q : Priv := { p with running := false, scan := none } with hq
  rw [Priv.finishConnection_none (p := q) hop]
  cases hconn : p.connected <;> simp [hq, hconn]

/-- The events and the states before them determine a run. -/
theorem Run.functional {hz : UInt64} {p a b : Priv} {t : Trace} (h : Run hz p t a)
    (h' : Run hz p t b) : a = b := by
  induction h with
  | refl =>
      cases h'
      rfl
  | more hs _ ih =>
      cases h' with
      | more hs' r =>
          cases hs.symm.trans hs'
          exact ih r

section Runs
variable {hz : UInt64} {lower : Option Lower} {t : Trace} {p : Priv}

/-- Every stop of the run finds the device stoppable. -/
def StopsSafely (hz : UInt64) (lower : Option Lower) (t : Trace) : Prop :=
  ∀ t₁ o t₂ q, t = t₁ ++ (.stopDevice, o) :: t₂ → Run hz (.init lower) t₁ q → Stoppable q

theorem StopsSafely.of_append {u : Trace} (h : StopsSafely hz lower (t ++ u)) :
    StopsSafely hz lower t := by
  rintro t₁ o t₂ q rfl hq
  exact h t₁ o (t₂ ++ u) q (by simp) hq

/-- When every stop was safe, nothing of an association is left without a link. -/
theorem Run.anonymous (h : Run hz (.init lower) t p) (hstops : StopsSafely hz lower t) :
    p.connected = false → Anonymous p := by
  -- The invariant carries the run along: the condition is about the states before the stops.
  have hinv : Run hz (.init lower) t p ∧
      (StopsSafely hz lower t → p.connected = false → Anonymous p) := by
    refine Steps.invariant_trace (I := fun p t => Run hz (.init lower) t p ∧
      (StopsSafely hz lower t → p.connected = false → Anonymous p)) ?_ h
      ⟨.refl _, fun _ _ => ⟨rfl, rfl, rfl, rfl, rfl, rfl⟩⟩
    intro p t e o p' hI hs
    refine ⟨hI.1.append (.one hs), fun hsafe => ?_⟩
    refine (transition_of_step hs).anonymous (hI.2 hsafe.of_append) fun he => ?_
    subst he
    exact hsafe t o [] p rfl hI.1
  exact hinv.2 hstops

/-- **A link that is down.**  No identity is left on a link that is down in any state of a run,
exactly when the run stops the device only while a request is pending or no link stands. -/
theorem anonymous_iff (hz : UInt64) (lower : Option Lower) (t : Trace) (p : Priv)
    (h : Run hz (.init lower) t p) :
    (∀ t₁ t₂ q, t = t₁ ++ t₂ → Run hz (.init lower) t₁ q → NoIdentity q) ↔
      StopsSafely hz lower t := by
  constructor
  · rintro hall t₁ o t₂ q rfl hq
    obtain ⟨m, m', hm, hs, -⟩ := Steps.split_at h
    cases Run.functional hm hq
    by_contra hbad
    simp only [Stoppable, not_or, Bool.not_eq_false, not_not] at hbad
    have hm' : m' = q.stopDevice.2 := (congrArg Prod.snd hs).symm
    obtain ⟨hdown, hname⟩ := stopDevice_keeps_name hbad.2
    have hrun : Run hz (.init lower) (t₁ ++ [(.stopDevice, o)]) m' := hm.append (.one hs)
    have hanon := (hall (t₁ ++ [(.stopDevice, o)]) t₂ m' (by simp) hrun).1 (hm' ▸ hdown)
    obtain ⟨sme, -, hserves⟩ := (Run.associated hm).served hbad.1
    obtain ⟨ssid, -, hlow, -, hlength, -⟩ := hserves.ssid
    have hzero : q.ssidLength = 0 := by rw [← hname, ← hm', hanon.ssidLength]
    rw [hzero] at hlength
    have h0 : (0 : UInt8).toNat = 0 := rfl
    omega
  · rintro hstops t₁ t₂ q rfl hq
    exact noIdentity_iff.mpr (Run.anonymous hq hstops.of_append)

end Runs

/-- A link that stands, and a stop. -/
def stoppedLink : List Event :=
  [.openDevice, .connectNetwork (openNetwork [65, 80] none) 0,
    .control 0 true true 0 (.connectionResult ⟨1, 0, firstBssid⟩), .stopDevice]

/-- After the stop the link is down, and its name is still there. -/
theorem stopped_link_keeps_identity :
    ∃ t p, Run 250 (.init none) t p ∧ p.connected = false ∧ p.ssidLength = 2 ∧
      ¬NoIdentity p := by
  refine ⟨_, _, Priv.run_steps 250 (.init none) stoppedLink, by decide, by decide, fun h => ?_⟩
  exact absurd (h.1 (by decide)).ssidLength (by decide)

/-- The first stop of a run is its last step. -/
theorem StopsSafely.of_last {hz : UInt64} {lower : Option Lower} {t : Trace} {o : Output} {p : Priv}
    (hp : Run hz (.init lower) t p) (hsafe : Stoppable p)
    (hnone : t.all fun x => match x.1 with | .stopDevice => false | _ => true) :
    StopsSafely hz lower (t ++ [(.stopDevice, o)]) := by
  intro t₁ o' t₂ q ht hq
  obtain ⟨w, rfl, -⟩ | ⟨w, hw, rfl⟩ := append_eq_append_cons ht
  · simp at hnone
  · obtain rfl : w = [] := by
      cases w with
      | nil => rfl
      | cons x w => simp at hw
    rw [List.append_nil] at hq
    rwa [Run.functional hq hp]

/-- The report that the link is down. -/
def linkDownReport : LinkInput := ⟨0, ⟨1, 0, 0, 0, 0, 0, 0, 0, .zero, .zero⟩, [], rfl⟩

/-- A link that stands, and goes down. -/
def droppedLink : List Event :=
  [.openDevice, .connectNetwork (openNetwork [65, 80] none) 0,
    .control 0 true true 0 (.connectionResult ⟨1, 0, firstBssid⟩),
    .control 0 true true 5 (.reportLink linkDownReport true)]

/-- A link with a name stands and goes down, and the device is stopped after it: no identity is
left. -/
theorem anonymous_iff_dropped :
    ((Priv.init none).run 250 (droppedLink.take 3)).2.connected = true ∧
    ((Priv.init none).run 250 (droppedLink.take 3)).2.ssidLength = 2 ∧
    ((Priv.init none).run 250 droppedLink).2.connected = false ∧
    NoIdentity (((Priv.init none).run 250 droppedLink).2.step 250 .stopDevice).2 := by
  have hdropped := Priv.run_steps 250 (.init none) droppedLink
  have hdown : ((Priv.init none).run 250 droppedLink).2.connected = false := by decide
  have hstop : Priv.step 250 ((Priv.init none).run 250 droppedLink).2 .stopDevice = (_, _) := rfl
  have hrun := hdropped.append (.one hstop)
  refine ⟨by decide, by decide, hdown, ?_⟩
  exact (anonymous_iff 250 none _ _ hrun).mpr (.of_last hdropped (.inl hdown) (by decide)) _ [] _
    (List.append_nil _).symm hrun

end Ashacky.Wifi
