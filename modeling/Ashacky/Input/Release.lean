import Ashacky.Input.Serve

/-!
# Input — Release

The service lets go of what it holds, and tells the host only of what it applied.

* `Act`: what a step does to the pad and puts out; `step_act`.
* `Good`: each `LH_INPUT_APPLIED` stands right after the frame it is for, and `last` is the time of the
  last frame that was accepted.
* `frames_taken`: no call of `frame` raises in a run.
* `service_releases`: what `serve` keeps to, over every run.
-/

namespace Ashacky.Input
open Ashacky.Support Multitouch

namespace Serve

/-- A line says this frame. -/
def Accepted (loads : Data → Except Raised Value) (f : Frame) : Prop :=
  ∃ line value, loads line = .ok value ∧ validate value = .ok f

/-- The time of the last frame that was accepted; before there is one, the time of the start. -/
def lastValid (start : ℚ) (o : List Output) : ℚ :=
  ((o.filterMap fun x => match x with
    | .submitted _ _ time => some time
    | _ => none).getLast?).getD start

/-- Each `LH_INPUT_APPLIED` stands right after a frame with points that was accepted. -/
def Answered (loads : Data → Except Raised Value) (o : List Output) : Prop :=
  ∀ u count v, o = u ++ .wrote .applied count :: v →
    ∃ u' f writes time, u = u' ++ [.submitted f writes time] ∧ f.points ≠ [] ∧ Accepted loads f

/-- Neither a frame that was accepted nor an answer to it, nor a wait. -/
def Output.quiet : Output → Bool
  | .submitted _ _ _ | .wrote .applied _ | .select _ _ => false
  | _ => true

/-- What a step does to the pad and puts out. -/
inductive Act (loads : Data → Except Raised Value) (s : State) (e : Event) (o : List Output) (s' : State) :
    Prop where
  | quiet (hquiet : ∀ x ∈ o, x.quiet = true) (hlast : s'.last = s.last)
      (hpad : s'.pad = s.pad ∨ s'.pad = .new) (happlying : s'.place ≠ .applying)
      (hended : ∀ error, s'.place = .ended error → s'.pad = .new)
  | submitted (f : Frame) (writes : Writes) (now : ℚ) (ho : o = [.submitted f writes now])
      (hframe : s.pad.frame f = some (writes, s'.pad)) (haccepted : Accepted loads f)
      (hlast : s'.last = now) (hplace : s'.place = if f.points = [] then .lines else .applying)
  | applied (count : Nat) (ho : o = [.wrote .applied count]) (happlying : s.place = .applying)
      (hlast : s'.last = s.last) (hpad : s'.pad = s.pad) (hplace : s'.place ≠ .applying)
      (hended : ∀ error, s'.place ≠ .ended error)
  /-- A wait; if something is held, it ends at once or in time. -/
  | waits (write : Bool) (timeout : Option ℚ) (ho : o = [.select write timeout]) (hlast : s'.last = s.last)
      (hpad : s'.pad = s.pad) (hplace : s'.place = .waiting)
      (htime : holds s.pad = true → ∃ now t, e = .clock now ∧ timeout = some t ∧ 0 ≤ t ∧
        (t = 0 ∨ now + t ≤ s.last + 1))

section Act
variable {loads : Data → Except Raised Value} {s s' : State} {e : Event} {o : List Output}

/-- The empty frame ends every contact and lets go of the buttons. -/
theorem frame_empty {pad pad' : Pad} {d : Device Key} {writes : Writes} (h : Held pad.slots d)
    (hframe : pad.frame ⟨[], 0⟩ = some (writes, pad')) : pad' = .new := by
  obtain ⟨writes', pad₁, hframe', -, hrefines⟩ := frame_spec h (f := ⟨[], 0⟩) ⟨by simp, by simp⟩
  cases hframe.symm.trans hframe'
  have hslots : pad'.slots = [] := by
    refine List.eq_nil_iff_forall_not_mem.mpr fun entry hentry => ?_
    obtain ⟨x, y, hcontact⟩ := (hrefines.assigned entry.1 entry.2).mp hentry
    obtain ⟨p, hp, -⟩ := (hrefines.contacts _ x y).mp ⟨_, hcontact⟩
    cases hp
  have hbuttons : pad'.buttons = 0 := by
    simp only [Pad.frame, Option.bind_eq_bind, Option.bind_eq_some_iff, Option.pure_def,
      Option.some.injEq, Prod.mk.injEq] at hframe
    obtain ⟨_, -, _, -, -, rfl⟩ := hframe
    rfl
  exact Pad.mk.injEq .. ▸ ⟨hslots, hbuttons⟩

theorem release_eq {d : Device Key} (h : Held s.pad.slots d) (hrelease : s.release = some (o, s')) :
    ∃ writes, o = [.released writes] ∧ s' = { s with pad := .new } := by
  obtain ⟨⟨writes, pad⟩, hframe, hrelease⟩ := Option.bind_eq_some_iff.mp hrelease
  cases hrelease
  exact ⟨writes, rfl, by rw [frame_empty h hframe]⟩

theorem parse_eq_ok {line : Data} {f : Frame} :
    parse loads line = .ok f ↔ ∃ value, loads line = .ok value ∧ validate value = .ok f := by
  rw [parse]
  cases loads line with
  | error error => simp [bind, Except.bind]
  | ok value =>
      cases hv : validate value <;> simp [bind, Except.bind, hv, Except.mapError]

/-- A wait while something is held. -/
theorem wait_act {now deadline : ℚ} (hdeadline : s.deadlines.min? = some deadline)
    (hheld : holds s.pad = true) : max 0 (deadline - now) = 0 ∨ now + max 0 (deadline - now) ≤ s.last + 1 := by
  have hmem : s.last + 1 ∈ s.deadlines := by simp [State.deadlines, hheld]
  have hle : deadline ≤ s.last + 1 := (List.min?_eq_some_iff.mp hdeadline).2 _ hmem
  rcases le_total (deadline - now) 0 with hover | hleft
  · exact .inl (max_eq_left hover)
  · right
    rw [max_eq_right hleft, add_sub_cancel]
    exact hle

theorem raised_act {s₁ : State} {error : Raised} (hlast : s₁.last = s.last) (hpad : s₁.pad = s.pad)
    (hquiet : ∀ x ∈ o, x.quiet = true) : Act loads s e o (s₁.raised error) :=
  .quiet hquiet hlast (.inl hpad) nofun nofun

theorem refuse_act {s₁ : State} {d : Device Key} (h : Held s.pad.slots d) {error : Raised}
    (hrefuse : s₁.refuse error = some (o, s')) (hlast : s₁.last = s.last) (hpad : s₁.pad = s.pad) :
    Act loads s e o s' := by
  rw [State.refuse] at hrefuse
  split at hrefuse
  · obtain ⟨writes, rfl, rfl⟩ := release_eq (hpad ▸ h) hrefuse
    exact .quiet (by simp [Output.quiet]) hlast (.inr rfl) nofun nofun
  · cases hrefuse
    exact raised_act hlast hpad nofun

/-- **What a step does to the pad and puts out.** -/
theorem step_act {d : Device Key} (h : Held s.pad.slots d) (hstep : step loads s e = some (o, s')) :
    Act loads s e o s' := by
  cases e with
  | clock now =>
      simp only [step, Option.ite_none_left_eq_some] at hstep
      obtain ⟨-, hstep⟩ := hstep
      split at hstep
      · have hplace : ∀ p, (if s.nextReady ≤ now ∧ !s.blocked then Place.greeting else .timing) = p →
            p = .greeting ∨ p = .timing := by
          rintro p rfl
          split
          · exact .inl rfl
          · exact .inr rfl
        rw [State.begin] at hstep
        dsimp only at hstep
        split at hstep
        · obtain ⟨writes, rfl, rfl⟩ := release_eq (s := { s with place := _, clock := now }) h hstep
          exact .quiet (by simp [Output.quiet]) rfl (.inr rfl) (fun hp => by simpa using hplace _ hp)
            fun _ _ => rfl
        · cases hstep
          exact .quiet nofun rfl (.inl rfl) (fun hp => by simpa using hplace _ hp)
            fun _ hp => by simpa using hplace _ hp
      · cases hstep
        exact .quiet nofun rfl (.inl rfl) nofun nofun
      · obtain ⟨deadline, hdeadline, hstep⟩ := Option.map_eq_some_iff.mp hstep
        cases hstep
        exact .waits _ _ rfl rfl rfl rfl fun hheld =>
          ⟨now, _, rfl, rfl, le_max_left _ _, wait_act hdeadline hheld⟩
      · split at hstep
        · split at hstep
          · next f hparse =>
              obtain ⟨value, hvalue, hvalidate⟩ := parse_eq_ok.mp hparse
              obtain ⟨⟨writes, pad⟩, hframe, hstep⟩ := Option.bind_eq_some_iff.mp hstep
              cases hstep
              exact .submitted f writes now rfl hframe ⟨_, value, hvalue, hvalidate⟩ rfl rfl
          · cases hstep
        · cases hstep
      · cases hstep
  | write sent =>
      simp only [step] at hstep
      split at hstep
      · cases hstep
        split
        · exact .quiet (by simp [Output.quiet]) rfl (.inl rfl) nofun nofun
        · exact raised_act rfl rfl (by simp [Output.quiet])
      · cases hstep
        exact .quiet nofun rfl (.inl rfl) nofun nofun
      · cases hstep
        exact raised_act rfl rfl nofun
      · next hplace =>
          cases hstep
          split
          · exact .applied _ rfl hplace rfl rfl nofun nofun
          · exact .applied _ rfl hplace rfl rfl nofun nofun
      · cases hstep
        exact .quiet nofun rfl (.inl rfl) nofun nofun
      · exact refuse_act h hstep rfl rfl
      · cases hstep
  | select result =>
      simp only [step] at hstep
      split at hstep
      · cases hstep
        refine .quiet nofun rfl (.inl rfl) ?_ ?_
        · dsimp only
          split <;> nofun
        · dsimp only
          split <;> nofun
      · cases hstep
        exact raised_act rfl rfl nofun
      · cases hstep
  | read received =>
      simp only [step] at hstep
      split at hstep
      · obtain ⟨-, hstep⟩ := Option.ite_none_right_eq_some.mp hstep
        cases hstep
        rw [State.take]
        split
        · exact .quiet nofun rfl (.inl rfl) nofun nofun
        · split
          · exact raised_act rfl rfl nofun
          · exact .quiet nofun rfl (.inl rfl) nofun nofun
      · cases hstep
        exact .quiet nofun rfl (.inl rfl) nofun nofun
      · cases hstep
        exact raised_act rfl rfl nofun
      · cases hstep
  | goes =>
      simp only [step] at hstep
      split at hstep
      · obtain ⟨hnone, hstep⟩ := Option.ite_none_right_eq_some.mp hstep
        cases hstep
        refine .waits _ _ rfl rfl rfl rfl fun hheld => ?_
        simp [State.deadlines, hheld] at hnone
      · split at hstep
        · cases hstep
          exact .quiet nofun rfl (.inl rfl) nofun nofun
        · split at hstep
          · cases hstep
          · exact refuse_act h hstep rfl rfl
      · obtain ⟨writes, rfl, rfl⟩ := release_eq (s := { s with place := .ended _ }) h hstep
        exact .quiet (by simp [Output.quiet]) rfl (.inr rfl) nofun fun _ _ => rfl
      · cases hstep

end Act

/-! ### Runs -/

/-- What holds after a run that has put out `o`. -/
structure Good (loads : Data → Except Raised Value) (start : ℚ) (s : State) (o : List Output) : Prop where
  held : ∃ d, Held s.pad.slots d
  last : s.last = lastValid start o
  applying : s.place = .applying → ∃ u f writes time, o = u ++ [Output.submitted f writes time] ∧
    f.points ≠ [] ∧ Accepted loads f
  applied : Answered loads o
  ended : ∀ error, s.place = .ended error → s.pad = .new

section Good
variable {loads : Data → Except Raised Value} {start : ℚ} {s s' : State} {e : Event} {o o' : List Output}

theorem Answered.extend (h : Answered loads o) (hno : ∀ count, Output.wrote .applied count ∉ o') :
    Answered loads (o ++ o') := by
  intro u count v hsplit
  obtain ⟨w, ho, -⟩ | ⟨w, rfl, -⟩ := append_eq_append_cons hsplit
  · exact h u count w ho
  · exact absurd (by simp) (hno count)

/-- No frame was accepted since. -/
theorem lastValid_append (hno : ∀ f writes time, Output.submitted f writes time ∉ o') :
    lastValid start (o ++ o') = lastValid start o := by
  have hnil : (o'.filterMap fun x => match x with
      | .submitted _ _ time => some time
      | _ => none) = [] := by
    rw [List.filterMap_eq_nil_iff]
    intro x hx
    cases x with
    | submitted f writes time => exact absurd hx (hno f writes time)
    | _ => rfl
  rw [lastValid, List.filterMap_append, hnil, List.append_nil, lastValid]

theorem lastValid_submitted (f : Frame) (writes : Writes) (time : ℚ) :
    lastValid start (o ++ [Output.submitted f writes time]) = time := by
  simp [lastValid, List.filterMap_append]

/-- **A step keeps what holds.** -/
theorem good_step (h : Good loads start s o) (hstep : step loads s e = some (o', s')) :
    Good loads start s' (o ++ o') := by
  obtain ⟨d, hd⟩ := h.held
  cases step_act hd hstep with
  | quiet hquiet hlast hpad happlying hended =>
      refine ⟨?_, ?_, fun hp => absurd hp happlying, ?_, hended⟩
      · rcases hpad with hpad | hpad
        · exact ⟨d, hpad ▸ hd⟩
        · exact ⟨.new, hpad ▸ held_new⟩
      · rw [lastValid_append fun f writes time hmem => nomatch hquiet _ hmem]
        exact hlast.trans h.last
      · exact h.applied.extend fun count hmem => nomatch hquiet _ hmem
  | submitted f writes now ho hframe haccepted hlast hplace =>
      subst ho
      obtain ⟨line, value, -, hvalidate⟩ := id haccepted
      obtain ⟨writes', pad', hframe', hheld, -⟩ := frame_spec hd (validate_valid hvalidate)
      cases hframe.symm.trans hframe'
      refine ⟨⟨_, hheld⟩, hlast.trans (lastValid_submitted f writes now).symm, fun hp => ?_, ?_, ?_⟩
      · refine ⟨o, f, writes, now, rfl, fun hnone => ?_, haccepted⟩
        rw [hplace, if_pos hnone] at hp
        cases hp
      · exact h.applied.extend fun count hmem => nomatch List.mem_singleton.mp hmem
      · intro error hp
        rw [hplace] at hp
        split at hp <;> cases hp
  | applied count ho happlying hlast hpad hplace hended =>
      subst ho
      refine ⟨⟨d, hpad ▸ hd⟩, ?_, fun hp => absurd hp hplace, ?_, fun error hp => absurd hp (hended error)⟩
      · rw [lastValid_append (by simp)]
        exact hlast.trans h.last
      · intro u count' v hsplit
        obtain ⟨w, ho, -⟩ | ⟨w, hw, rfl⟩ := append_eq_append_cons hsplit
        · exact h.applied u count' w ho
        · -- The answer that was just written: the frame before it is the last output.
          obtain rfl : w = [] := by
            cases w with
            | nil => rfl
            | cons x w => exact absurd (List.cons.inj hw).2 (by simp)
          rw [List.append_nil]
          exact h.applying happlying
  | waits write timeout ho hlast hpad hplace htime =>
      subst ho
      refine ⟨⟨d, hpad ▸ hd⟩, ?_, fun hp => ?_, ?_, fun error hp => ?_⟩
      · rw [lastValid_append (by simp)]
        exact hlast.trans h.last
      · rw [hplace] at hp
        cases hp
      · exact h.applied.extend fun count hmem => nomatch List.mem_singleton.mp hmem
      · rw [hplace] at hp
        cases hp

theorem good_start (loads : Data → Except Raised Value) (start : ℚ) : Good loads start (.start start) [] where
  held := ⟨.new, held_new⟩
  last := rfl
  applying := nofun
  applied u count v h := by cases u <;> cases h
  ended := nofun

theorem run_good {t : List (Event × List Output)} (h : Run loads (.start start) t s) :
    Good loads start s (outputs t) := by
  have hstep {s t e o s'} (hg : Good loads start s (outputs t)) (hs : step loads s e = some (o, s')) :
      Good loads start s' (outputs (t ++ [(e, o)])) := by
    have := good_step hg hs
    rwa [outputs, List.flatMap_append, List.flatMap_singleton]
  exact Steps.invariant_trace (I := fun s t => Good loads start s (outputs t)) hstep h (u := [])
    (good_start loads start)

/-- **No call of `frame` raises.** -/
theorem frames_taken {t : List (Event × List Output)} (h : Run loads (.start start) t s) {f : Frame}
    (hf : f.Valid) : ∃ writes pad, s.pad.frame f = some (writes, pad) := by
  obtain ⟨d, hd⟩ := (run_good h).held
  obtain ⟨writes, pad, hframe, -⟩ := frame_spec hd hf
  exact ⟨writes, pad, hframe⟩

theorem new_of_not_holds {pad : Pad} (h : ¬ holds pad = true) : pad = .new := by
  obtain ⟨slots, buttons⟩ := pad
  simpa [holds, Pad.new] using h

/-- At the top of the loop, what is held for a second is let go of. -/
theorem top_release {d : Device Key} {now : ℚ} (h : Held s.pad.slots d) (htop : s.place = .top)
    (hover : s.last + 1 ≤ now) (hstep : step loads s (.clock now) = some (o, s')) : s'.pad = .new := by
  simp only [step, htop, Option.ite_none_left_eq_some] at hstep
  obtain ⟨-, hstep⟩ := hstep
  rw [State.begin] at hstep
  dsimp only at hstep
  split at hstep
  · obtain ⟨writes, -, rfl⟩ := release_eq (s := { s with place := _, clock := now }) h hstep
    rfl
  · next hkept =>
      cases hstep
      refine new_of_not_holds fun hheld => hkept ⟨hheld, ?_⟩
      exact le_sub_iff_add_le'.mpr hover

/-- **The service lets go, and answers only what it applied.**  Each `LH_INPUT_APPLIED` stands right
after a frame of its own, with points, that was accepted and given to the pad.  A wait while something
is held has a timeout, which is over at once or a second after the last frame that was accepted; at the
top of the loop, what is held for that second is let go of; and nothing is held when `serve` ends. -/
theorem service_releases {t : List (Event × List Output)} (h : Run loads (.start start) t s) :
    Answered loads (outputs t) ∧
    (∀ e o s', step loads s e = some (o, s') →
      (∀ write timeout, .select write timeout ∈ o → holds s.pad = true →
        ∃ now left, e = .clock now ∧ timeout = some left ∧ 0 ≤ left ∧
          (left = 0 ∨ now + left ≤ lastValid start (outputs t) + 1)) ∧
      (∀ now, s.place = .top → e = .clock now → lastValid start (outputs t) + 1 ≤ now →
        holds s'.pad = false)) ∧
    ∀ error, s.place = .ended error → holds s.pad = false := by
  have hg := run_good h
  obtain ⟨d, hd⟩ := hg.held
  refine ⟨hg.applied, fun e o s' hstep => ⟨fun write timeout hmem hheld => ?_, ?_⟩, fun error hended => ?_⟩
  · rw [← hg.last]
    cases step_act hd hstep with
    | quiet hquiet => exact (nomatch hquiet _ hmem)
    | submitted f writes now ho =>
        subst ho
        exact (nomatch List.mem_singleton.mp hmem)
    | applied count ho =>
        subst ho
        exact (nomatch List.mem_singleton.mp hmem)
    | waits write' timeout' ho hlast hpad hplace htime =>
        subst ho
        obtain ⟨rfl, rfl⟩ := Output.select.inj (List.mem_singleton.mp hmem)
        exact htime hheld
  · rintro now htop rfl hover
    rw [← hg.last] at hover
    rw [top_release hd htop hover hstep]
    rfl
  · rw [hg.ended error hended]
    rfl

end Good

/-! ### Two runs -/

/-- `{"touches":[[1,0.25,0.5]],"buttons":1}`, with its newline. -/
def sampleLine : Data :=
  "\x7b\"touches\":[[1,0.25,0.5]],\"buttons\":1\x7d".toUTF8.toList

/-- A library that knows this line. -/
def sampleLoads (line : Data) : Except Raised Value :=
  if line = sampleLine then
    .ok (.dict [("touches", .list [.list [.int 1, .float (some (1 / 4)), .float (some (1 / 2))]]),
      ("buttons", .int 1)])
  else .error (.valueError "Expecting value: line 1 column 1 (char 0)")

/-- The host is greeted, a frame comes and is applied. -/
def sampleEvents : List Event :=
  [.clock 0, .write (.wrote 15), .clock 0, .clock 0, .select (.ok (true, false)),
    .read (.data (sampleLine ++ [10])), .clock 0, .write (.wrote 17), .goes]

theorem service_releases_sample : ∃ t s, Run sampleLoads (.start 0) t s ∧
    .wrote .applied 17 ∈ outputs t ∧ s.place = .ended none ∧ Answered sampleLoads (outputs t) ∧
    holds s.pad = false := by
  have hplay : (play (step sampleLoads) (.start 0) (sampleEvents ++
      [.clock (1 / 2), .clock (1 / 2), .select (.ok (true, false)), .read (.data []), .goes])).map
      (fun x => (decide (.wrote .applied 17 ∈ outputs x.1), x.2.place)) = some (true, .ended none) := by
    decide +kernel
  obtain ⟨⟨t, s⟩, hplayed, hs⟩ := Option.map_eq_some_iff.mp hplay
  simp only [Prod.mk.injEq, decide_eq_true_eq] at hs
  obtain ⟨hanswered, -, hended⟩ := service_releases (Steps.of_play hplayed)
  exact ⟨t, s, Steps.of_play hplayed, hs.1, hs.2, hanswered, hended none hs.2⟩

/-- **A wait can begin after the second.**  Between the top of the loop and the timeout the clock may
go on; the timeout is then nothing, and not over in time. -/
theorem late_wait : ∃ t s now o s', Run sampleLoads (.start 0) t s ∧ holds s.pad = true ∧
    step sampleLoads s (.clock now) = some (o, s') ∧
    ∃ write timeout, .select write timeout ∈ o ∧
      ¬ ∃ left, timeout = some left ∧ now + left ≤ lastValid 0 (outputs t) + 1 := by
  have hplay : ((play (step sampleLoads) (.start 0) (sampleEvents ++ [Event.clock (1 / 2)])).bind fun x =>
      (step sampleLoads x.2 (.clock 2)).map fun y => (holds x.2.pad, lastValid 0 (outputs x.1), y.1)) =
      some (true, 0, [.select false (some 0)]) := by
    decide +kernel
  obtain ⟨⟨t, s⟩, hplayed, hplay⟩ := Option.bind_eq_some_iff.mp hplay
  obtain ⟨⟨o, s'⟩, hstep, hs⟩ := Option.map_eq_some_iff.mp hplay
  simp only [Prod.mk.injEq] at hs
  obtain ⟨hheld, hlast, rfl⟩ := hs
  refine ⟨t, s, 2, _, s', Steps.of_play hplayed, hheld, hstep, false, some 0, by simp, ?_⟩
  rintro ⟨left, hleft, hle⟩
  obtain rfl := Option.some.inj hleft
  rw [hlast] at hle
  norm_num at hle

end Serve

end Ashacky.Input
