import Mathlib.Algebra.Order.Field.Rat
import Ashacky.Support.Feed
import Ashacky.Support.Machine

/-!
# Audio — default devices

`guest/devices/audio_pipewire.py`: the default sink and source of PipeWire and the host's default
devices are kept the same.  `AudioBridge.reconcile` looks at each direction with the host's devices
and the reported default; it selects on the host what the user has made the default, and makes the
host's choice the default.

Here is what it does for one direction.  `set_default` runs a command that may fail, or time out, also
after it has set the default.  `still` is not in the source: it is the default that was reported when
the bridge last called `set_default`, as long as nothing else has been reported since.

* `default_reverted`: once the deadline is over, the default from before the bridge's own one is
  taken for the user's.
* `observant_step`: where that does not happen, and no own default is outstanding that the call
  gives up, what is reported of the bridge's own is known to it.
* `selects_from_user`: in every run of such calls, the host is told only of defaults that were
  reported anew and that the bridge did not set.
-/

namespace Ashacky.Audio.Defaults
open Ashacky.Support

inductive Direction where
  | output
  | input
  deriving DecidableEq

/-- A host device: which directions it has, and of which it is the default. -/
structure Device where
  uid : String
  output : Bool
  input : Bool
  defaultOutput : Bool
  defaultInput : Bool
  deriving DecidableEq

def Device.has (d : Device) : Direction → Bool
  | .output => d.output
  | .input => d.input

def Device.isDefault (d : Device) : Direction → Bool
  | .output => d.defaultOutput
  | .input => d.defaultInput

/-- `(before, wanted, deadline)`. -/
structure Pending where
  before : Option String
  wanted : String
  deadline : ℚ
  deriving DecidableEq

/-- What the bridge remembers of a direction: `self.observed` and `self.pending_defaults`. -/
structure Memory where
  observed : Option (Option String)
  pending : Option Pending
  deriving DecidableEq

/-- What `set_default` does: it raises, and the default may be set by then; it finds no such node; or
the default is set. -/
inductive SetDefault where
  | raises
  | late
  | missing
  | done
  deriving DecidableEq

/-- What a call leaves: the memory, whether it called `set_default`, the default it has set, and the
device it has selected. -/
structure Outcome where
  memory : Memory
  called : Bool
  set : Option String
  select : Option String
  deriving DecidableEq

section Reconcile
variable (nodeName : String → Direction → String) (direction : Direction)

/-- `records`: the devices by the name of their node, the last one first. -/
def records (devices : List Device) : List (String × Device × Direction) :=
  (devices.flatMap fun d => [Direction.output, .input].filterMap fun dir =>
    if d.has dir then some (nodeName d.uid dir, d, dir) else none).reverse

/-- The device of the direction that the default names. -/
def chosen (devices : List Device) (selected : Option String) : Option Device :=
  selected.bind fun name =>
    ((records nodeName devices).lookup name).bind fun r => if r.2 = direction then some r.1 else none

/-- The name of the host's active device. -/
def activeName (devices : List Device) : Option String :=
  (devices.find? (·.isDefault direction)).map fun d => nodeName d.uid direction

/-- A default that the bridge has set is waited for. -/
def InTime (m : Memory) (selected : Option String) (now : ℚ) : Bool :=
  m.pending.any fun p => selected = p.before && now < p.deadline

/-- The device that the host is asked to select. -/
def asks (m : Memory) (devices : List Device) (selected : Option String) : Option Device :=
  match m.observed with
  | some observed => if selected ≠ observed then chosen nodeName direction devices selected else none
  | none => none

/-- The rest of the loop, after the request. -/
def adopt (m : Memory) (devices : List Device) (selected : Option String) (now : ℚ)
    (set : SetDefault) (select : Option String) : Outcome :=
  match activeName nodeName direction devices with
  | some wanted =>
      if selected ≠ some wanted then
        match set with
        | .raises => ⟨m, true, none, select⟩
        | .late => ⟨m, true, some wanted, select⟩
        | .missing => ⟨{ m with observed := some selected }, true, none, select⟩
        | .done => ⟨⟨some (some wanted), some ⟨selected, wanted, now + 2⟩⟩, true, some wanted, select⟩
      else ⟨{ m with observed := some selected }, false, none, select⟩
  | none => ⟨{ m with observed := some selected }, false, none, select⟩

/-- `reconcile` for one direction: `answer` is the host's devices after a request, or `none` when it
raises, and the times are those of the two looks at the clock. -/
def reconcile (m : Memory) (devices : List Device) (selected : Option String) (now after : ℚ)
    (answer : Option (List Device)) (set : SetDefault) : Outcome :=
  if InTime m selected now then ⟨m, false, none, none⟩
  else
    let m := { m with pending := none }
    match asks nodeName direction m devices selected with
    | some device =>
        match answer with
        | some devices => adopt nodeName direction m devices selected after set (some device.uid)
        | none => ⟨m, false, none, some device.uid⟩
    | none => adopt nodeName direction m devices selected after set none

end Reconcile

/-! ### The machine -/

structure System where
  memory : Memory
  metadata : Feed (Option String)
  still : Option (Option String)

def System.initial (default : Option String) : System := ⟨⟨none, none⟩, .initial default, none⟩

/-- What happens: the user sets the default, or `reconcile` is called with a report of it. -/
inductive Event where
  | user (default : Option String)
  | reconcile (report : Nat) (devices : List Device) (now after : ℚ)
      (answer : Option (List Device)) (set : SetDefault)

section Machine
variable (nodeName : String → Direction → String) (direction : Direction)

/-- A step, with the device that the host is asked to select. -/
def step (s : System) : Event → Option (Option String × System)
  | .user default => some (none, { s with metadata := s.metadata.set .other default })
  | .reconcile k devices now after answer set =>
      match s.metadata.entries[k]? with
      | some e =>
          if s.metadata.reported ≤ k then
            let o := reconcile nodeName direction s.memory devices e.value now after answer set
            some (o.select,
              { memory := o.memory
                metadata := (s.metadata.see k).setOwn (o.set.toList.map some)
                still := if o.called ∨ s.still = some e.value then some e.value else none })
          else none
      | none => none

abbrev Trace := List (Event × Option String)

/-- A run. -/
abbrev Run : System → Trace → System → Prop :=
  Steps fun s e o s' => step nodeName direction s e = some (o, s')

/-- The host's devices once it has answered the request, if there is one. -/
def told (m : Memory) (devices : List Device) (selected : Option String)
    (answer : Option (List Device)) : List Device :=
  match asks nodeName direction m devices selected with
  | some _ => answer.getD []
  | none => devices

/-- A call that does not wait raises: the request does, or `set_default`. -/
def raising (m : Memory) (devices : List Device) (selected : Option String)
    (answer : Option (List Device)) (set : SetDefault) : Bool :=
  (asks nodeName direction m devices selected).isSome && answer.isNone ||
    (set = .raises || set = .late) &&
      (activeName nodeName direction (told nodeName direction m devices selected answer)).any
        (selected ≠ some ·)

/-- An own default that is still to be reported stays known: it is reported at this call, which gets
to `set_default`; it is set once more; or it is the observed one, which the call keeps. -/
def StaysKnown (m : Memory) (devices : List Device) (selected : Option String)
    (answer : Option (List Device)) (set : SetDefault) (w : Option String) : Prop :=
  w = selected ∧ (asks nodeName direction m devices selected = none ∨ answer.isSome) ∨
    w.isSome ∧ w = activeName nodeName direction (told nodeName direction m devices selected answer) ∧
      set = .done ∨
    m.observed.all (· = w) ∧ raising nodeName direction m devices selected answer set

/-- If `set_default` raises after the default is set, that is the observed one, or none is observed. -/
def LateKnown (m : Memory) (devices : List Device) (selected : Option String)
    (answer : Option (List Device)) (set : SetDefault) : Prop :=
  set = .late →
    ∀ name ∈ activeName nodeName direction (told nodeName direction m devices selected answer),
      selected = some name ∨ m.observed.all (· = some name)

/-- The call does not find the default from before an own one among the host's devices after the
time for it is over, and gives up no own default that is still to be reported. -/
def Observant (s : System) : Event → Prop
  | .reconcile k devices now _ answer set =>
      ∀ e, s.metadata.entries[k]? = some e →
        (s.still = some e.value → InTime s.memory e.value now ∨
          chosen nodeName direction devices e.value = none ∨ s.memory.observed.all (· = e.value)) ∧
        (InTime s.memory e.value now ∨
          (s.metadata.see k).Outstanding
            (StaysKnown nodeName direction s.memory devices e.value answer set) ∧
          LateKnown nodeName direction s.memory devices e.value answer set)
  | .user _ => True

instance (m : Memory) (devices : List Device) (selected : Option String)
    (answer : Option (List Device)) (set : SetDefault) :
    DecidablePred (StaysKnown nodeName direction m devices selected answer set) := fun w =>
  inferInstanceAs (Decidable (w = selected ∧ _ ∨ _))

instance (m : Memory) (devices : List Device) (selected : Option String)
    (answer : Option (List Device)) (set : SetDefault) :
    Decidable (LateKnown nodeName direction m devices selected answer set) :=
  inferInstanceAs (Decidable (set = .late → ∀ name ∈ _, _))

instance (s : System) : (e : Event) → Decidable (Observant nodeName direction s e)
  | .reconcile k devices now _ answer set =>
      decidable_of_iff (∀ e ∈ s.metadata.entries[k]?,
        (s.still = some e.value → InTime s.memory e.value now ∨
          chosen nodeName direction devices e.value = none ∨ s.memory.observed.all (· = e.value)) ∧
        (InTime s.memory e.value now ∨
          (s.metadata.see k).Outstanding
            (StaysKnown nodeName direction s.memory devices e.value answer set) ∧
          LateKnown nodeName direction s.memory devices e.value answer set)) Iff.rfl
  | .user _ => .isTrue trivial

/-- A run of observant steps. -/
abbrev ObservantRun : System → Trace → System → Prop :=
  Steps fun s e o s' => step nodeName direction s e = some (o, s') ∧
    Observant nodeName direction s e

end Machine

/-! ### A call -/

section Call
variable {nodeName : String → Direction → String} {direction : Direction} {m : Memory}
  {devices : List Device} {selected : Option String} {now after : ℚ}
  {answer : Option (List Device)} {set : SetDefault}

/-- What a call can do. -/
inductive Result (nodeName : String → Direction → String) (direction : Direction) (m : Memory)
    (devices : List Device) (selected : Option String) (now : ℚ)
    (answer : Option (List Device)) (set : SetDefault) (o : Outcome) : Prop where
  /-- It waits for its own default. -/
  | waits (hin : InTime m selected now) (h : o = ⟨m, false, none, none⟩)
  /-- The request raises. -/
  | unanswered (hin : InTime m selected now = false) (hm : o.memory = { m with pending := none })
      (hcalled : o.called = false) (hset : o.set = none)
      (hasks : asks nodeName direction m devices selected ≠ none) (hanswer : answer = none)
  /-- `set_default` raises. -/
  | raises (hin : InTime m selected now = false) (hm : o.memory = { m with pending := none })
      (hcalled : o.called = true) (name : String)
      (hactive : activeName nodeName direction (told nodeName direction m devices selected answer) =
        some name)
      (hne : selected ≠ some name)
      (hwhy : set = .raises ∧ o.set = none ∨ set = .late ∧ o.set = some name)
  /-- The default is as the host has it, or cannot be set. -/
  | agrees (hin : InTime m selected now = false) (hm : o.memory = ⟨some selected, none⟩)
      (hset : o.set = none)
      (hasked : asks nodeName direction m devices selected = none ∨ answer.isSome)
      (hwhy : set = .missing ∨ ∀ name, activeName nodeName direction
        (told nodeName direction m devices selected answer) = some name → selected = some name)
  /-- The host's device is made the default. -/
  | sets (hin : InTime m selected now = false) (wanted : String) (deadline : ℚ)
      (hm : o.memory = ⟨some (some wanted), some ⟨selected, wanted, deadline⟩⟩)
      (hcalled : o.called = true) (hset : o.set = some wanted) (hdone : set = .done)
      (hasked : asks nodeName direction m devices selected = none ∨ answer.isSome)
      (hactive : activeName nodeName direction (told nodeName direction m devices selected answer) =
        some wanted)

theorem inTime_before (h : InTime m selected now) :
    ∃ p, m.pending = some p ∧ selected = p.before := by
  unfold InTime at h
  cases hp : m.pending with
  | none =>
      rw [hp] at h
      cases h
  | some p =>
      rw [hp, Option.any_some, Bool.and_eq_true, decide_eq_true_eq] at h
      exact ⟨p, rfl, h.1⟩

theorem adopt_select (m : Memory) (devices : List Device) (selected : Option String) (now : ℚ)
    (set : SetDefault) (select : Option String) :
    (adopt nodeName direction m devices selected now set select).select = select := by
  unfold adopt
  split
  · split
    · split <;> rfl
    · rfl
  · rfl

/-- The end of a call, with the devices it has at that point. -/
theorem adopt_result {devices' : List Device} (hin : InTime m selected now = false)
    (hasked : asks nodeName direction m devices selected = none ∨ answer.isSome)
    (htold : told nodeName direction m devices selected answer = devices') (select : Option String) :
    Result nodeName direction m devices selected now answer set
      (adopt nodeName direction { m with pending := none } devices' selected after set select) := by
  subst htold
  unfold adopt
  split
  · rename_i wanted hactive
    split
    · rename_i hne
      split
      · exact .raises hin rfl rfl wanted hactive hne (.inl ⟨rfl, rfl⟩)
      · exact .raises hin rfl rfl wanted hactive hne (.inr ⟨rfl, rfl⟩)
      · exact .agrees hin rfl rfl hasked (.inl rfl)
      · exact .sets hin wanted (after + 2) rfl rfl rfl rfl hasked hactive
    · rename_i heq
      refine .agrees hin rfl rfl hasked (.inr fun name hname => ?_)
      rw [hactive] at hname
      rw [not_not] at heq
      rw [heq, hname]
  · rename_i hactive
    refine .agrees hin rfl rfl hasked (.inr fun name hname => ?_)
    rw [hactive] at hname
    cases hname

/-- A call that gets an answer raises only in `set_default`, for a device that is not the default. -/
theorem raising_cases (hasked : asks nodeName direction m devices selected = none ∨ answer.isSome)
    (h : raising nodeName direction m devices selected answer set) :
    (set = .raises ∨ set = .late) ∧ ∃ name, activeName nodeName direction
      (told nodeName direction m devices selected answer) = some name ∧ selected ≠ some name := by
  rw [raising, Bool.or_eq_true, Bool.and_eq_true, Bool.and_eq_true] at h
  rcases h with ⟨hask, hanswer⟩ | ⟨hset, hactive⟩
  · rcases hasked with hnone | hsome
    · rw [hnone] at hask
      cases hask
    · rw [Option.isNone_iff_eq_none.mp hanswer] at hsome
      cases hsome
  · obtain ⟨name, hname, hne⟩ := (Option.any_eq_true ..).mp hactive
    exact ⟨by simpa using hset, name, hname, by simpa using hne⟩

/-- **A call of `reconcile`.**  It does one of the five things, and asks the host only when it does
not wait. -/
theorem reconcile_spec :
    Result nodeName direction m devices selected now answer set
      (reconcile nodeName direction m devices selected now after answer set) ∧
    ∀ uid, (reconcile nodeName direction m devices selected now after answer set).select = some uid →
      InTime m selected now = false ∧ asks nodeName direction m devices selected ≠ none := by
  unfold reconcile
  split
  · rename_i hin
    exact ⟨.waits hin rfl, nofun⟩
  rename_i hin
  rw [Bool.not_eq_true] at hin
  have hasks : asks nodeName direction { m with pending := none } devices selected =
      asks nodeName direction m devices selected := rfl
  dsimp only
  rw [hasks]
  split
  · rename_i device hdevice
    have hne : asks nodeName direction m devices selected ≠ none := by
      rw [hdevice]
      exact nofun
    split
    · rename_i devices'
      have htold : told nodeName direction m devices selected (some devices') = devices' := by
        rw [told, hdevice, Option.getD_some]
      exact ⟨adopt_result hin (.inr rfl) htold _, fun _ _ => ⟨hin, hne⟩⟩
    · exact ⟨.unanswered hin rfl rfl rfl hne rfl, fun _ _ => ⟨hin, hne⟩⟩
  · rename_i hdevice
    have htold : told nodeName direction m devices selected answer = devices := by
      rw [told, hdevice]
    refine ⟨adopt_result hin (.inl hdevice) htold _, fun uid h => ?_⟩
    rw [adopt_select] at h
    cases h

end Call

/-! ### Runs -/

/-- What the bridge knows of the reports. -/
structure Informed (s : System) : Prop where
  pending : ∀ p, s.memory.pending = some p → s.still = some p.before
  reported : ∀ v, s.memory.observed = some v → ∃ e, s.metadata.entries[s.metadata.reported]? = some e ∧
    (e.value = v ∨ s.still = some e.value ∨ e.setter.isOwn = false)
  outstanding : ∀ v, s.memory.observed = some v →
    s.metadata.Outstanding fun w => w = v ∨ s.still = some w

section Runs
variable {nodeName : String → Direction → String} {direction : Direction} {s s' : System}
  {e : Event} {o : Option String}

theorem informed_initial (default : Option String) : Informed (.initial default) :=
  ⟨nofun, nofun, nofun⟩

/-- What is reported of the bridge's own is observed, or still the old default. -/
theorem Informed.own (I : Informed s) {k : Nat} {entry : Entry (Option String)}
    (hk : s.metadata.reported ≤ k) (he : s.metadata.entries[k]? = some entry)
    (hown : entry.setter.isOwn) {v : Option String} (hv : s.memory.observed = some v) :
    entry.value = v ∨ s.still = some entry.value := by
  rcases Nat.eq_or_lt_of_le hk with heq | hlt
  · subst heq
    obtain ⟨entry', he', hcases⟩ := I.reported v hv
    obtain rfl := Option.some.inj (he.symm.trans he')
    rcases hcases with h | h | h
    · exact .inl h
    · exact .inr h
    · rw [hown] at h
      cases h
  · exact I.outstanding v hv k entry hlt he hown

/-- What the call reports is the user's, or it is observed, or still the old default. -/
theorem Informed.entry (I : Informed s) {k : Nat} {entry : Entry (Option String)}
    (hk : s.metadata.reported ≤ k) (he : s.metadata.entries[k]? = some entry) {v : Option String}
    (hv : s.memory.observed = some v) :
    entry.value = v ∨ s.still = some entry.value ∨ entry.setter.isOwn = false := by
  cases hown : entry.setter.isOwn with
  | false => exact .inr (.inr rfl)
  | true => exact (I.own hk he hown hv).imp_right .inl

/-- **A call keeps the bridge informed.** -/
theorem informed_reconcile (I : Informed s) {k : Nat} {devices : List Device} {now : ℚ}
    {answer : Option (List Device)} {set : SetDefault} {entry : Entry (Option String)}
    (hk : s.metadata.reported ≤ k) (he : s.metadata.entries[k]? = some entry)
    (hobservant : InTime s.memory entry.value now ∨
      (s.metadata.see k).Outstanding
        (StaysKnown nodeName direction s.memory devices entry.value answer set) ∧
      LateKnown nodeName direction s.memory devices entry.value answer set)
    {out : Outcome}
    (hres : Result nodeName direction s.memory devices entry.value now answer set out) :
    Informed
      { memory := out.memory
        metadata := (s.metadata.see k).setOwn (out.set.toList.map some)
        still := if out.called ∨ s.still = some entry.value then some entry.value else none } := by
  have hentry : ∀ vs, ((s.metadata.see k).setOwn vs).entries[k]? = some entry := fun vs =>
    (List.getElem?_append_left (List.getElem?_eq_some_iff.mp he).1).trans he
  have hobserved : ∀ {v w}, s.memory.observed = some v → s.memory.observed.all (· = w) → w = v := by
    intro v w hv hall
    rw [hv] at hall
    exact (of_decide_eq_true hall).symm
  cases hres with
  | waits hin hout =>
      subst hout
      -- Nothing is called while the record waits, and the default is still the one from before.
      obtain ⟨p, hp, hbefore⟩ := inTime_before hin
      have hstill : s.still = some entry.value := by
        rw [I.pending p hp, hbefore]
      rw [if_pos (.inr hstill), ← hstill]
      refine ⟨I.pending, fun v hv => ⟨entry, hentry _, .inr (.inl hstill)⟩, fun v hv => ?_⟩
      exact ((I.outstanding v hv).see hk).setOwn nofun
  | unanswered hin hm hcalled hset hasks hanswer =>
      obtain ⟨hknown, -⟩ := hobservant.resolve_left (by rw [hin]; exact nofun)
      rw [hset, hm, hcalled]
      refine ⟨nofun, fun v hv => ⟨entry, hentry _, ?_⟩, fun v hv => ?_⟩
      · exact (I.entry hk he hv).imp_right (Or.imp_left fun h => if_pos (.inr h))
      · refine (hknown.mono fun w hw => ?_).setOwn nofun
        rcases hw with ⟨-, hasked⟩ | ⟨hsome, hactive, -⟩ | ⟨hall, -⟩
        · rw [hanswer] at hasked
          exact hasked.elim (fun h => absurd h hasks) nofun
        · obtain ⟨device, hdevice⟩ := Option.ne_none_iff_exists'.mp hasks
          rw [told, hdevice, hanswer] at hactive
          rw [hactive] at hsome
          cases hsome
        · exact .inl (hobserved hv hall)
  | raises hin hm hcalled name hactive hne hwhy =>
      obtain ⟨hknown, hlate⟩ := hobservant.resolve_left (by rw [hin]; exact nofun)
      rw [hm, hcalled, if_pos (.inl rfl)]
      refine ⟨nofun, fun v hv => ⟨entry, hentry _, .inr (.inl rfl)⟩, fun v hv => ?_⟩
      refine (hknown.mono fun w hw => ?_).setOwn fun w hw => ?_
      · rcases hw with ⟨rfl, -⟩ | ⟨-, -, hdone⟩ | ⟨hall, -⟩
        · exact .inr rfl
        · rcases hwhy with ⟨h, -⟩ | ⟨h, -⟩ <;> cases hdone.symm.trans h
        · exact .inl (hobserved hv hall)
      · -- only a default that is set before it raises is new
        rcases hwhy with ⟨-, hset⟩ | ⟨hset, hnew⟩
        · rw [hset] at hw
          cases hw
        · rw [hnew] at hw
          obtain rfl : w = some name := by simpa using hw
          exact .inl (hobserved hv ((hlate hset name hactive).resolve_left hne))
  | agrees hin hm hset hasked hwhy =>
      obtain ⟨hknown, -⟩ := hobservant.resolve_left (by rw [hin]; exact nofun)
      rw [hset, hm]
      refine ⟨nofun, ?_, ?_⟩
      · rintro v ⟨⟩
        exact ⟨entry, hentry _, .inl rfl⟩
      · rintro v ⟨⟩
        refine (hknown.mono fun w hw => ?_).setOwn nofun
        rcases hw with ⟨hw, -⟩ | ⟨hsome, hw, hdone⟩ | ⟨-, hraising⟩
        · exact .inl hw
        · obtain ⟨name, rfl⟩ := Option.isSome_iff_exists.mp hsome
          rcases hwhy with hmissing | hsame
          · cases hdone.symm.trans hmissing
          · exact .inl (hsame name hw.symm).symm
        · obtain ⟨hset, name, hname, hne⟩ := raising_cases hasked hraising
          rcases hwhy with hmissing | hsame
          · rcases hset with h | h <;> cases hmissing.symm.trans h
          · exact absurd (hsame name hname) hne
  | sets hin wanted deadline hm hcalled hset hdone hasked hactive =>
      obtain ⟨hknown, -⟩ := hobservant.resolve_left (by rw [hin]; exact nofun)
      rw [hset, hm, if_pos (.inl hcalled)]
      refine ⟨?_, fun v hv => ⟨entry, hentry _, .inr (.inl rfl)⟩, ?_⟩
      · rintro p ⟨⟩
        rfl
      · rintro v ⟨⟩
        refine (hknown.mono fun w hw => ?_).setOwn fun w hw => .inl (by simpa using hw)
        rcases hw with ⟨hw, -⟩ | ⟨-, hw, -⟩ | ⟨-, hraising⟩
        · exact .inr (congrArg some hw.symm)
        · rw [hactive] at hw
          exact .inl hw
        · obtain ⟨hset, -⟩ := raising_cases hasked hraising
          rcases hset with h | h <;> cases hdone.symm.trans h

theorem observant_step (I : Informed s) (h : step nodeName direction s e = some (o, s'))
    (ho : Observant nodeName direction s e) : Informed s' := by
  cases e with
  | user default =>
      cases h
      refine ⟨I.pending, fun v hv => ?_, fun v hv => (I.outstanding v hv).other default⟩
      obtain ⟨entry, hentry, hcases⟩ := I.reported v hv
      exact ⟨entry, (List.getElem?_append_left (List.getElem?_eq_some_iff.mp hentry).1).trans hentry,
        hcases⟩
  | reconcile k devices now after answer set =>
      rw [step] at h
      split at h
      · rename_i entry he
        obtain ⟨hk, h⟩ := Option.ite_none_right_eq_some.mp h
        cases h
        exact informed_reconcile I hk he (ho entry he).2 reconcile_spec.1
      · cases h

end Runs

/-- **Selections come from the user.**  In every run of observant steps, the host is asked to select
a device only on a report other than the one at which the bridge last called `set_default`, and never
on a report of a default that the bridge has set. -/
theorem selects_from_user (nodeName : String → Direction → String) (direction : Direction)
    (default : Option String) {t : Trace} {s : System}
    (hrun : ObservantRun nodeName direction (.initial default) t s) {e : Event} {uid : String}
    {s' : System} (h : step nodeName direction s e = some (some uid, s'))
    (ho : Observant nodeName direction s e) :
    ∃ k devices now after answer set entry, e = .reconcile k devices now after answer set ∧
      s.metadata.entries[k]? = some entry ∧ s.still ≠ some entry.value ∧
      entry.setter.isOwn = false := by
  have I : Informed s := hrun.invariant (I := Informed) (fun I h => observant_step I h.1 h.2)
    (informed_initial default)
  cases e with
  | user default => cases h
  | reconcile k devices now after answer set =>
      rw [step] at h
      split at h
      · rename_i entry he
        obtain ⟨hk, h⟩ := Option.ite_none_right_eq_some.mp h
        obtain ⟨hin, hasks⟩ := reconcile_spec.2 uid (Prod.ext_iff.mp (Option.some.inj h)).1
        -- A default that is observed, or no device of the host, is not selected.
        have hobserved : ∃ v, s.memory.observed = some v ∧ entry.value ≠ v ∧
            chosen nodeName direction devices entry.value ≠ none := by
          unfold asks at hasks
          split at hasks
          · rename_i v hv
            split at hasks
            · rename_i hne
              exact ⟨v, hv, hne, hasks⟩
            · exact absurd rfl hasks
          · exact absurd rfl hasks
        obtain ⟨v, hv, hne, hchosen⟩ := hobserved
        have hstill : s.still ≠ some entry.value := by
          intro hstill
          rcases (ho entry he).1 hstill with h | h | h
          · rw [hin] at h
            cases h
          · exact hchosen h
          · rw [hv] at h
            exact hne (of_decide_eq_true h).symm
        refine ⟨k, devices, now, after, answer, set, entry, rfl, he, hstill, ?_⟩
        cases hown : entry.setter.isOwn with
        | false => rfl
        | true => exact ((I.own hk he hown hv).elim hne hstill).elim
      · cases h

/-- Two outputs, of which the host uses the first. -/
def sampleDevices : List Device := [⟨"a", true, false, true, false⟩, ⟨"b", true, false, false, false⟩]

def sampleName (uid : String) (_ : Direction) : String := uid

/-- The host's output is made the default, and once more when it is not reported in time; then it is
reported, and the user makes the second output the default. -/
def sampleEvents : List Event :=
  [.reconcile 0 sampleDevices 0 0 none .done, .reconcile 0 sampleDevices 1 1 none .done,
    .reconcile 0 sampleDevices 3 3 none .done, .reconcile 1 sampleDevices 4 4 none .missing,
    .reconcile 2 sampleDevices 5 5 none .missing, .user (some "b")]

theorem selects_from_user_sample :
    ∃ t s s' entry,
      ObservantRun sampleName .output (.initial none) t s ∧
      s.metadata.entries.map Entry.setter = [.initial, .own 0, .own 0, .other] ∧
      step sampleName .output s (.reconcile 3 sampleDevices 6 6 (some sampleDevices) .missing) =
        some (some "b", s') ∧
      s.metadata.entries[3]? = some entry ∧ s.still ≠ some entry.value ∧
      entry.setter.isOwn = false := by
  have hplay : ((play (fun s e => if Observant sampleName .output s e then
        step sampleName .output s e else none) (.initial none) sampleEvents).bind fun x =>
      (if Observant sampleName .output x.2
          (.reconcile 3 sampleDevices 6 6 (some sampleDevices) .missing) then
        step sampleName .output x.2 (.reconcile 3 sampleDevices 6 6 (some sampleDevices) .missing)
      else none).map fun y => (y.1, x.2.metadata.entries.map Entry.setter)) =
    some (some "b", [.initial, .own 0, .own 0, .other]) := by decide +kernel
  obtain ⟨⟨t, s⟩, hplayed, hplay⟩ := Option.bind_eq_some_iff.mp hplay
  obtain ⟨⟨select, s'⟩, hstep, hselect⟩ := Option.map_eq_some_iff.mp hplay
  obtain ⟨ho, hstep⟩ := Option.ite_none_right_eq_some.mp hstep
  obtain ⟨hselect, hsetters⟩ := Prod.ext_iff.mp hselect
  obtain rfl : select = some "b" := hselect
  have hrun := Steps.of_play_guarded hplayed
  obtain ⟨k, devices, now, after, answer, set, entry, he, hentry, hstill, hown⟩ :=
    selects_from_user sampleName .output none hrun hstep ho
  cases he
  exact ⟨t, s, s', entry, hrun, hsetters, hstep, hentry, hstill, hown⟩

/-- The bridge makes the host's output the default; three seconds later the old default is still
reported, and is selected on the host. -/
theorem default_reverted :
    ¬ ∀ (nodeName : String → Direction → String) (direction : Direction) (default : Option String)
      (t : Trace) (s : System) (e : Event) (uid : String) (s' : System),
      Run nodeName direction (.initial default) t s →
      step nodeName direction s e = some (some uid, s') →
      ∃ k devices now after answer set entry, e = .reconcile k devices now after answer set ∧
        s.metadata.entries[k]? = some entry ∧ s.still ≠ some entry.value ∧
        entry.setter.isOwn = false := by
  intro hall
  have hplay : ((play (step sampleName .output) (.initial (some "b"))
      [.reconcile 0 sampleDevices 0 0 none .done]).bind fun x =>
      (step sampleName .output x.2 (.reconcile 0 sampleDevices 3 3 none .done)).map fun y =>
        (y.1, x.2.still, x.2.metadata.entries[0]?.map Entry.value)) =
    some (some "b", some (some "b"), some (some "b")) := by decide +kernel
  obtain ⟨⟨t, s⟩, hplayed, hplay⟩ := Option.bind_eq_some_iff.mp hplay
  obtain ⟨⟨select, s'⟩, hstep, hselect⟩ := Option.map_eq_some_iff.mp hplay
  obtain ⟨hselect, hrest⟩ := Prod.ext_iff.mp hselect
  obtain ⟨hstill, hvalue⟩ := Prod.ext_iff.mp hrest
  obtain rfl : select = some "b" := hselect
  obtain ⟨k, devices, now, after, answer, set, entry, he, hentry, hne, -⟩ :=
    hall _ _ _ t s _ _ s' (Steps.of_play hplayed) hstep
  cases he
  rw [hentry] at hvalue
  exact hne (hstill.trans (congrArg some (Option.some.inj hvalue).symm))

end Ashacky.Audio.Defaults
