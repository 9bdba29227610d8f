import Ashacky.Audio.Volume

/-!
# Audio — echoes

Whether the host is asked only for what the user has set.

* `reconcile_spec`: what a call of `reconcile` can do.
* `own_write_echoed`: a host change overtakes a write that is not reported yet; its report is then
  taken for the user's.
* `settled_step`: where a call finds its own outstanding writes to be of the reported state, or of
  the state that it keeps, they stay known to the object.
* `requests_from_user`: in every run of such calls, the host is asked only for a state that the user
  has set, and not again for one that was reported when the node was written.
-/

namespace Ashacky.Audio
open Ashacky.Support OutputVolume

/-! ### A call -/

/-- A report of this state is not taken for the user's: it is the observed one, or the one before
the pending write. -/
def Known (v : OutputVolume) (actual : LevelState) : Prop :=
  v.observed = some actual ∨ ∃ p, v.pending = some p ∧ p.before = actual

instance (v : OutputVolume) (actual : LevelState) : Decidable (Known v actual) :=
  decidable_of_iff (v.observed = some actual ∨ v.pending.map Pending.before = some actual) <|
    or_congr_right Option.map_eq_some_iff

/-- What the object remembers under its key. -/
structure Kept (v : OutputVolume) : Prop where
  observed : ∃ host, v.host = some host ∧ v.observed = some (wanted host v.balance)
  pending : ∀ p, v.pending = some p → v.observed = some p.wanted

/-- What a call of `reconcile` can do under the key `key`. -/
inductive Result (key : Key) (profile : Option Profile) (actual : LevelState) (v : OutputVolume)
    (o : Outcome) : Prop where
  /-- The object falls back. -/
  | resets (h : o.volume.key = none)
  /-- It waits for its own write. -/
  | waits (h : o = ⟨v, [], none⟩) (hkey : v.key = some key) (hknown : Known v actual)
  /-- The node is as wanted, or written. -/
  | adopts (host : Profile) (hkey : o.volume.key = some key) (hhost : o.volume.host = some host)
      (hobserved : o.volume.observed = some (wanted host o.volume.balance))
      (hsame : v.key = some key → profile = v.host → Known v actual →
        o.volume.observed = v.observed)
      (hwrites : o.writes = [] ∧ actual = wanted host o.volume.balance ∧ o.volume.pending = none ∨
        ∃ deadline, o.volume.pending = some ⟨actual, wanted host o.volume.balance, deadline⟩ ∧
          ∀ w ∈ o.writes, w.shown = wanted host o.volume.balance)

section Call
variable {root : ℚ → ℚ} {key : Key} {profile : Option Profile} {props : Props} {now after : ℚ}
  {answer : Answer} {v : OutputVolume} {actual : LevelState} {host : Profile}

theorem fallback_key (v : OutputVolume) (props : Props) (request : Option Request) :
    (v.fallback props request).volume.key = none ∧
      (v.fallback props request).request = request := by
  unfold OutputVolume.fallback
  split <;> exact ⟨rfl, rfl⟩

/-- The end of a call. -/
theorem finish_result {v₀ : OutputVolume} (hkey : v.key = some key) (hpending : v.pending = none)
    (request : Option Request)
    (hsame : v₀.key = some key → profile = v₀.host → Known v₀ actual →
      some (wanted host v.balance) = v₀.observed) :
    Result key profile actual v₀ (v.finish host actual props now request) := by
  unfold OutputVolume.finish
  dsimp only
  split
  · refine .adopts host hkey rfl rfl hsame (.inr ⟨now + 2, rfl, fun w hw => ?_⟩)
    rw [List.mem_singleton.mp hw]
    rfl
  · rename_i hno
    rw [not_or, not_not] at hno
    exact .adopts host hkey rfl rfl hsame (.inl ⟨rfl, hno.1, hpending⟩)

theorem finish_request (v : OutputVolume) (host : Profile) (actual : LevelState) (props : Props)
    (now : ℚ) (request : Option Request) :
    (v.finish host actual props now request).request = request := by
  unfold OutputVolume.finish
  dsimp only
  split <;> rfl

/-- What the check of a pending write leaves. -/
theorem checkPending_cases (hkept : Kept v) (actual : LevelState) (host : Profile) (now : ℚ) :
    (∃ p, v.pending = some p ∧ p.before = actual ∧ v.checkPending actual host now = (.waits, v)) ∨
    (Known v actual ∧ v.checkPending actual host now = (.stale, { v with pending := none })) ∨
    ((v.observed = some actual ∨ ¬ Known v actual) ∧
      v.checkPending actual host now = (.none, { v with pending := none })) := by
  unfold OutputVolume.checkPending
  cases hp : v.pending with
  | none =>
      refine .inr (.inr ⟨?_, ?_⟩)
      · by_cases ho : v.observed = some actual
        · exact .inl ho
        · exact .inr fun h => h.elim ho fun ⟨p, hp', _⟩ => by cases hp.symm.trans hp'
      · dsimp only
        rw [← hp]
  | some p =>
      dsimp only
      split
      · rename_i hw
        exact .inr (.inr ⟨.inl (hw ▸ hkept.pending p hp), rfl⟩)
      split
      · rename_i hb
        split
        · exact .inl ⟨p, rfl, hb.symm, rfl⟩
        · exact .inr (.inl ⟨.inr ⟨p, hp, hb.symm⟩, rfl⟩)
      · rename_i hw hb
        refine .inr (.inr ⟨?_, rfl⟩)
        refine .inr fun h => ?_
        rcases h with ho | ⟨p', hp', hbefore⟩
        · rw [hkept.pending p hp] at ho
          exact hw (Option.some.inj ho).symm
        · obtain rfl := Option.some.inj (hp.symm.trans hp')
          exact hb hbefore.symm

/-- **A call of `reconcile`.**  It does one of the three things, and asks the host only for a state
that it does not know. -/
theorem reconcile_spec (hkept : v.key = some key → Kept v) :
    Result key profile props.shown v (v.reconcile root key profile props now after answer) ∧
    ((v.reconcile root key profile props now after answer).request ≠ none →
      v.key = some key ∧ ¬ Known v props.shown) := by
  unfold OutputVolume.reconcile
  split
  · rename_i host actual hlevels
    obtain rfl : props.shown = actual := by
      unfold levelState at hlevels
      exact Option.some.inj (Option.ite_none_right_eq_some.mp hlevels).2
    dsimp only
    split
    · by_cases hkey : v.key = some key
      · have hkept := hkept hkey
        obtain ⟨host₀, hhost₀, hobserved⟩ := hkept.observed
        have hsame : v.key = some key → some host = v.host → Known v props.shown →
            some (wanted host v.balance) = v.observed := by
          intro _ hhost _
          obtain rfl := Option.some.inj (hhost.trans hhost₀)
          exact hobserved.symm
        rw [if_neg (not_not.mpr hkey)]
        -- What is shown is from before the pending write, or known, or new.
        rcases checkPending_cases hkept props.shown host now with
          ⟨p, hp, hbefore, hcheck⟩ | ⟨hknown, hcheck⟩ | ⟨hunknown, hcheck⟩
        · rw [hcheck]
          exact ⟨.waits rfl hkey (.inr ⟨p, hp, hbefore⟩), absurd rfl⟩
        · rw [hcheck]
          dsimp only
          rw [if_neg (by simp)]
          refine ⟨finish_result (v := { v with pending := none }) hkey rfl none hsame, fun h => ?_⟩
          rw [finish_request] at h
          exact absurd rfl h
        · rw [hcheck]
          dsimp only
          split
          · rename_i hask
            have hnot : ¬ Known v props.shown := hunknown.resolve_left hask.2.2.2
            have hnever : v.key = some key → some host = v.host → Known v props.shown →
                ∀ w, some w = v.observed := fun _ _ h => absurd h hnot
            split
            · exact ⟨.resets (fallback_key ..).1, fun _ => ⟨hkey, hnot⟩⟩
            · exact ⟨.resets (fallback_key ..).1, fun _ => ⟨hkey, hnot⟩⟩
            · refine ⟨?_, fun _ => ⟨hkey, hnot⟩⟩
              exact finish_result (v := rebalance props.shown { v with pending := none }) hkey rfl _
                fun a b c => hnever a b c _
          · refine ⟨finish_result (v := { v with pending := none }) hkey rfl none hsame, fun h => ?_⟩
            rw [finish_request] at h
            exact absurd rfl h
      -- Another node: what it shows is adopted, and there is nothing to wait for.
      · rw [if_pos hkey]
        have hcheck : (adopt key props.shown).checkPending props.shown host now =
            (.none, adopt key props.shown) := rfl
        rw [hcheck]
        dsimp only
        rw [if_neg (by simp [hkey])]
        refine ⟨finish_result rfl rfl none fun h => absurd h hkey, fun h => ?_⟩
        rw [finish_request] at h
        exact absurd rfl h
    · refine ⟨.resets (fallback_key ..).1, fun h => ?_⟩
      rw [(fallback_key ..).2] at h
      exact absurd rfl h
  · refine ⟨.resets (fallback_key ..).1, fun h => ?_⟩
    rw [(fallback_key ..).2] at h
    exact absurd rfl h

end Call

/-! ### Runs -/

/-- The reported state is one that the user has set, and the node was not written while it was
reported. -/
def FromUser (s : System) (report : Nat) : Prop :=
  ∃ e, s.node.entries[report]? = some e ∧ e.setter = .other ∧
    ∀ e' ∈ s.node.entries, e'.setter ≠ .own report

/-- The call finds the host's volume as it was, and the report is of a state that it knows. -/
def Steady (key : Key) (s : System) (profile : Option Profile) (actual : LevelState) : Prop :=
  s.volume.key = some key ∧ profile = s.volume.host ∧ Known s.volume actual

/-- A call finds every own write that is still to be reported to be of the reported state, or of
the state that a steady call keeps. -/
def Settled (key : Key) (s : System) : Event → Prop
  | .reconcile k profile _ _ _ =>
      ∀ e, s.node.entries[k]? = some e → (s.node.see k).Outstanding fun w =>
        w.shown = e.value.shown ∨
          Steady key s profile e.value.shown ∧ s.volume.observed = some w.shown
  | .user _ | .failure _ _ => True

instance (key : Key) (s : System) : (e : Event) → Decidable (Settled key s e)
  | .reconcile k profile _ _ _ =>
      decidable_of_iff (∀ e ∈ s.node.entries[k]?, (s.node.see k).Outstanding fun w =>
        w.shown = e.value.shown ∨ (s.volume.key = some key ∧ profile = s.volume.host ∧
          Known s.volume e.value.shown) ∧ s.volume.observed = some w.shown) Iff.rfl
  | .user _ | .failure _ _ => .isTrue trivial

/-- A run of settled steps. -/
abbrev SettledRun (root : ℚ → ℚ) (key : Key) : System → Trace → System → Prop :=
  Steps fun s e o s' => step root key s e = some (o, s') ∧ Settled key s e

/-- What the object knows of the node. -/
structure Informed (key : Key) (s : System) : Prop where
  kept : s.volume.key = some key → Kept s.volume
  reported : s.volume.key = some key → ∃ e, s.node.entries[s.node.reported]? = some e ∧
    Known s.volume e.value.shown
  outstanding : s.volume.key = some key →
    s.node.Outstanding fun w => Known s.volume w.shown

section Runs
variable {root : ℚ → ℚ} {key : Key} {s s' : System} {e : Event} {o : Option Request}

theorem informed_initial (key : Key) (props : Props) : Informed key (.initial props) :=
  ⟨nofun, nofun, nofun⟩

/-- **A call keeps the object informed.** -/
theorem informed_reconcile (I : Informed key s) {k : Nat} {profile : Option Profile}
    {entry : Entry Props} (hk : s.node.reported ≤ k) (he : s.node.entries[k]? = some entry)
    (hsettled : (s.node.see k).Outstanding fun w => w.shown = entry.value.shown ∨
      Steady key s profile entry.value.shown ∧ s.volume.observed = some w.shown)
    {out : Outcome} (hres : Result key profile entry.value.shown s.volume out) :
    Informed key ⟨out.volume, (s.node.see k).setOwn out.writes⟩ := by
  have hentry : ∀ vs, ((s.node.see k).setOwn vs).entries[k]? = some entry := fun vs =>
    (List.getElem?_append_left (List.getElem?_eq_some_iff.mp he).1).trans he
  cases hres with
  | resets hnone =>
      have hne : out.volume.key ≠ some key := by
        rw [hnone]
        exact nofun
      exact ⟨fun h => absurd h hne, fun h => absurd h hne, fun h => absurd h hne⟩
  | waits hout hkey hknown =>
      subst hout
      refine ⟨I.kept, fun _ => ⟨entry, hentry _, hknown⟩, fun h => ?_⟩
      exact ((I.outstanding h).see hk).setOwn nofun
  | adopts host hkey hhost hobserved hsame hwrites =>
      have hkept : Kept out.volume := by
        refine ⟨⟨host, hhost, hobserved⟩, fun p hp => ?_⟩
        rcases hwrites with ⟨-, -, hnone⟩ | ⟨deadline, hpending, -⟩
        · cases hnone.symm.trans hp
        · obtain rfl := Option.some.inj (hpending.symm.trans hp)
          exact hobserved
      have hknown : Known out.volume entry.value.shown := by
        rcases hwrites with ⟨-, hactual, -⟩ | ⟨deadline, hpending, -⟩
        · rw [hactual]
          exact .inl hobserved
        · exact .inr ⟨_, hpending, rfl⟩
      refine ⟨fun _ => hkept, fun _ => ⟨entry, hentry _, hknown⟩, fun _ => ?_⟩
      refine (hsettled.mono fun w hw => ?_).setOwn fun w hw => ?_
      · rcases hw with hw | ⟨⟨hkey₀, hprofile, hknown₀⟩, hw⟩
        · rwa [hw]
        · exact .inl ((hsame hkey₀ hprofile hknown₀).trans hw)
      · rcases hwrites with ⟨hnil, -, -⟩ | ⟨deadline, -, hshown⟩
        · rw [hnil] at hw
          cases hw
        · rw [hshown w hw]
          exact .inl hobserved

theorem settled_step (I : Informed key s) (h : step root key s e = some (o, s'))
    (hs : Settled key s e) : Informed key s' := by
  cases e with
  | user props =>
      cases h
      refine ⟨I.kept, fun hkey => ?_, fun hkey => (I.outstanding hkey).other props⟩
      obtain ⟨entry, hentry, hknown⟩ := I.reported hkey
      exact ⟨entry, (List.getElem?_append_left (List.getElem?_eq_some_iff.mp hentry).1).trans hentry,
        hknown⟩
  | reconcile k profile now after answer =>
      rw [step] at h
      split at h
      · rename_i entry he
        obtain ⟨hk, h⟩ := Option.ite_none_right_eq_some.mp h
        cases h
        exact informed_reconcile I hk he (hs entry he) (reconcile_spec I.kept).1
      · cases h
  | failure k writes =>
      rw [step] at h
      split at h
      · rename_i entry he
        obtain ⟨hk, h⟩ := Option.ite_none_right_eq_some.mp h
        cases h
        have hne : (s.volume.fallback entry.value none).volume.key ≠ some key := by
          rw [(fallback_key ..).1]
          exact nofun
        exact ⟨fun h => absurd h hne, fun h => absurd h hne, fun h => absurd h hne⟩
      · cases h

theorem feed_step (S : s.node.Sound) (h : step root key s e = some (o, s')) : s'.node.Sound := by
  cases e with
  | user props =>
      cases h
      exact S.other props
  | reconcile k profile now after answer =>
      rw [step] at h
      split at h
      · rename_i entry he
        obtain ⟨hk, h⟩ := Option.ite_none_right_eq_some.mp h
        cases h
        exact (S.see ⟨hk, he⟩).setOwn _
      · cases h
  | failure k writes =>
      rw [step] at h
      split at h
      · rename_i entry he
        obtain ⟨hk, h⟩ := Option.ite_none_right_eq_some.mp h
        cases h
        exact (S.see ⟨hk, he⟩).setOwn _
      · cases h

/-- A request is made by a call, for a report that the object does not know. -/
theorem step_request (I : Informed key s) {r : Request} (h : step root key s e = some (some r, s')) :
    ∃ k profile now after answer entry, e = .reconcile k profile now after answer ∧
      s.node.reported ≤ k ∧ s.node.entries[k]? = some entry ∧ s.volume.key = some key ∧
      ¬ Known s.volume entry.value.shown := by
  cases e with
  | user props => cases h
  | reconcile k profile now after answer =>
      rw [step] at h
      split at h
      · rename_i entry he
        obtain ⟨hk, h⟩ := Option.ite_none_right_eq_some.mp h
        have hr : (s.volume.reconcile root key profile entry.value now after answer).request =
            some r := (Prod.ext_iff.mp (Option.some.inj h)).1
        obtain ⟨hkey, hunknown⟩ := (reconcile_spec I.kept).2 (by rw [hr]; exact nofun)
        exact ⟨k, profile, now, after, answer, entry, rfl, hk, he, hkey, hunknown⟩
      · cases h
  | failure k writes =>
      rw [step] at h
      split at h
      · obtain ⟨-, h⟩ := Option.ite_none_right_eq_some.mp h
        cases h
      · cases h

end Runs

/-- **Requests come from the user.**  In every run of settled steps, the host is asked only for a
state that the user has set, and never for one that was reported when the node was written. -/
theorem requests_from_user (root : ℚ → ℚ) (key : Key) (props : Props) {t : Trace} {s : System}
    (hrun : SettledRun root key (.initial props) t s) {e : Event} {r : Request} {s' : System}
    (h : step root key s e = some (some r, s')) :
    ∃ k profile now after answer, e = .reconcile k profile now after answer ∧ FromUser s k := by
  obtain ⟨I, S⟩ : Informed key s ∧ s.node.Sound :=
    hrun.invariant (I := fun s => Informed key s ∧ s.node.Sound)
      (fun IS h => ⟨settled_step IS.1 h.1 h.2, feed_step IS.2 h.1⟩)
      ⟨informed_initial key props, Feed.sound_initial props⟩
  obtain ⟨k, profile, now, after, answer, entry, rfl, hk, he, hkey, hunknown⟩ := step_request I h
  refine ⟨k, profile, now, after, answer, rfl, entry, he, ?_, ?_⟩
  -- The last report is known, so that this one is new; and so are the own writes behind it.
  all_goals
    have hlt : s.node.reported < k := by
      refine Nat.lt_of_le_of_ne hk fun heq => ?_
      subst heq
      obtain ⟨entry', he', hknown⟩ := I.reported hkey
      obtain rfl := Option.some.inj (he.symm.trans he')
      exact hunknown hknown
  · cases hsetter : entry.setter with
    | other => rfl
    | initial =>
        have := S.first k entry he hsetter
        omega
    | own m =>
        refine absurd (I.outstanding hkey k entry hlt he ?_) hunknown
        rw [hsetter]
        rfl
  · intro e' he' hown
    have := S.seen e' he' k hown
    omega

/-- A node of one channel whose gain is in software. -/
def sampleProps (level : ℚ) : Props := ⟨[level], false, [level], false⟩

def sampleKey : Key := ⟨"speaker", 10⟩

/-- The host's volume is written to the node; a call waits for it, the next one finds it reported, and
then the user turns the node down. -/
def sampleEvents : List Event :=
  [.reconcile 0 (some ⟨1, false⟩) 0 0 .gone, .reconcile 0 (some ⟨1, false⟩) 1 1 .gone,
    .reconcile 1 (some ⟨1, false⟩) (3 / 2) (3 / 2) .gone, .user (sampleProps 0)]

theorem requests_from_user_sample :
    ∃ t s r s', SettledRun id sampleKey (.initial (sampleProps (1 / 2))) t s ∧
      s.node.entries.map Entry.setter = [.initial, .own 0, .other] ∧
      step id sampleKey s (.reconcile 2 (some ⟨1, false⟩) 2 2 .gone) = some (some r, s') ∧
      FromUser s 2 := by
  have hplay : ((play (fun s e => if Settled sampleKey s e then step id sampleKey s e else none)
      (.initial (sampleProps (1 / 2))) sampleEvents).bind fun x =>
      (step id sampleKey x.2 (.reconcile 2 (some ⟨1, false⟩) 2 2 .gone)).map fun y =>
        (y.1, x.2.node.entries.map Entry.setter)) =
    some (some ⟨"speaker", ⟨0, false⟩, ⟨1, false⟩⟩, [.initial, .own 0, .other]) := by decide +kernel
  obtain ⟨⟨t, s⟩, hplayed, hplay⟩ := Option.bind_eq_some_iff.mp hplay
  obtain ⟨⟨r, s'⟩, hstep, hr⟩ := Option.map_eq_some_iff.mp hplay
  obtain ⟨hr, hsetters⟩ := Prod.ext_iff.mp hr
  obtain rfl : r = _ := hr
  have hrun : SettledRun id sampleKey (.initial (sampleProps (1 / 2))) t s :=
    Steps.of_play_guarded hplayed
  obtain ⟨k, profile, now, after, answer, he, huser⟩ :=
    requests_from_user id sampleKey (sampleProps (1 / 2)) hrun hstep
  cases he
  exact ⟨t, s, _, s', hrun, hsetters, hstep, huser⟩

/-- The host goes to full volume and to zero before the first write is reported; the report of that
write is taken for the user's. -/
theorem own_write_echoed :
    ¬ ∀ (root : ℚ → ℚ) (key : Key) (props : Props) (t : Trace) (s : System) (e : Event)
      (r : Request) (s' : System), Run root key (.initial props) t s →
      step root key s e = some (some r, s') →
      ∃ k profile now after answer, e = .reconcile k profile now after answer ∧ FromUser s k := by
  intro hall
  have hplay : ((play (step id sampleKey) (.initial (sampleProps (1 / 2)))
      [.reconcile 0 (some ⟨1, false⟩) 0 0 .gone, .reconcile 0 (some ⟨0, false⟩) 1 1 .gone]).bind
      fun x => (step id sampleKey x.2 (.reconcile 1 (some ⟨0, false⟩) 2 2 .gone)).map fun y =>
        (y.1, x.2.node.entries[1]?.map Entry.setter)) =
    some (some ⟨"speaker", ⟨1, false⟩, ⟨0, false⟩⟩, some (.own 0)) := by decide +kernel
  obtain ⟨⟨t, s⟩, hplayed, hplay⟩ := Option.bind_eq_some_iff.mp hplay
  obtain ⟨⟨r, s'⟩, hstep, hr⟩ := Option.map_eq_some_iff.mp hplay
  obtain ⟨hr, hsetter⟩ := Prod.ext_iff.mp hr
  obtain rfl : r = _ := hr
  obtain ⟨k, profile, now, after, answer, he, entry, hentry, hother, -⟩ :=
    hall id sampleKey _ t s _ _ s' (Steps.of_play hplayed) hstep
  cases he
  rw [hentry] at hsetter
  cases (Option.some.inj hsetter).symm.trans hother

end Ashacky.Audio
