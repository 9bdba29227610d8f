import Ashacky.Camera.Demand

/-!
# Camera — Idle

What `serve` may rely on when it waits, and what it leaves behind.

* `Awake`: between `changed.clear()` and the wait, a flag that was tested is set only if `changed` is
  set or will be set next.
* `Act`: what a step does to the pictures and the streams; `step_act`.
* `Dark`: the streams that the host returned are stopped, but the one that is held, and outside of a
  stream black was written last.
* `demand_watched`: both, over every run.
-/

namespace Ashacky.Camera.Demand
open Ashacky.Support
open Ashacky.Control (Json Object)

/-! ### Flags that are told -/

/-- If the flag is set, so is `changed`, or it will be next. -/
def Told (flag changed : Bool) (next : Prop) : Prop := flag = true → changed = true ∨ next

/-- A flag that is clear need not be told. -/
theorem told_of_clear {changed : Bool} {next : Prop} : Told false changed next := nofun

/-- A set `changed` tells every flag. -/
theorem told_of_changed {flag : Bool} {next : Prop} : Told flag true next := fun _ => .inl rfl

theorem told_of_next {flag changed : Bool} {next : Prop} (h : next) : Told flag changed next :=
  fun _ => .inr h

theorem Told.mono {flag changed : Bool} {next next' : Prop} (h : Told flag changed next)
    (himp : next → next') : Told flag changed next' :=
  fun hflag => (h hflag).imp_right himp

/-- How many flags were tested since `changed.clear()`, and were clear. -/
def Main.passed : Main → Nat
  | .testWriter => 1
  | .testMonitor => 2
  | .testActive => 3
  | .waiting => 4
  | _ => 0

/-- The flags that were tested are told. -/
structure Awake (s : State) : Prop where
  stopping : 1 ≤ s.main.passed → Told s.stopping s.changed (0 < s.handlers)
  writer : 2 ≤ s.main.passed → Told s.writerDone s.changed (s.writer = .telling)
  monitor : 3 ≤ s.main.passed → Told s.monitorDone s.changed (s.monitor = .tellingEnd)
  active : 4 ≤ s.main.passed → Told s.active s.changed (s.monitor = .telling)

section Awake
variable {lib : Library} {s s' : State} {e : Event} {o : List Output}

/-- Before the first test, nothing is asked for. -/
theorem awake_of_passed (h : s.main.passed = 0) : Awake s := by
  refine ⟨?_, ?_, ?_, ?_⟩ <;> (rw [h]; nofun)

/-- With `changed` set every flag is told. -/
theorem awake_of_changed (h : s.changed = true) : Awake s := by
  refine ⟨?_, ?_, ?_, ?_⟩ <;> (rw [h]; exact fun _ => told_of_changed)

/-- After an error no flag counts as tested. -/
theorem caught_passed (s : State) (error : Option Raised) : (s.caught error).2.main.passed = 0 := by
  simp only [State.caught]
  split
  · rfl
  · split
    · rfl
    · split <;> rfl

/-- A test is passed when its flag is clear; any other step of the main loop leaves them behind. -/
theorem goes_awake (h : Awake s) (hg : s.goes = some (o, s')) : Awake s' := by
  cases hm : s.main with
  | testStopping =>
      simp only [State.goes, hm, Option.some.injEq, Prod.mk.injEq] at hg
      obtain ⟨-, rfl⟩ := hg
      cases hf : s.stopping with
      | true => exact awake_of_passed rfl
      | false => exact ⟨fun _ => told_of_clear, nofun, nofun, nofun⟩
  | testWriter =>
      have hstopping := h.stopping (by rw [hm]; decide)
      simp only [State.goes, hm, Option.some.injEq, Prod.mk.injEq] at hg
      obtain ⟨-, rfl⟩ := hg
      cases hf : s.writerDone with
      | true => exact awake_of_passed rfl
      | false => exact ⟨fun _ => hstopping, fun _ => told_of_clear, nofun, nofun⟩
  | testMonitor =>
      have hstopping := h.stopping (by rw [hm]; decide)
      have hwriter := h.writer (by rw [hm]; decide)
      simp only [State.goes, hm, Option.some.injEq, Prod.mk.injEq] at hg
      obtain ⟨-, rfl⟩ := hg
      cases hf : s.monitorDone with
      | true => exact awake_of_passed rfl
      | false => exact ⟨fun _ => hstopping, fun _ => hwriter, fun _ => told_of_clear, nofun⟩
  | testActive =>
      have hstopping := h.stopping (by rw [hm]; decide)
      have hwriter := h.writer (by rw [hm]; decide)
      have hmonitor := h.monitor (by rw [hm]; decide)
      simp only [State.goes, hm, Option.some.injEq, Prod.mk.injEq] at hg
      obtain ⟨-, rfl⟩ := hg
      cases hf : s.active with
      | true => exact awake_of_passed rfl
      | false =>
          exact ⟨fun _ => hstopping, fun _ => hwriter, fun _ => hmonitor, fun _ => told_of_clear⟩
  | leaving error =>
      simp only [State.goes, hm, Option.ite_none_right_eq_some, Option.some.injEq] at hg
      obtain rfl : _ = s' := congrArg Prod.snd hg.2
      exact awake_of_passed (caught_passed _ error)
  | _ =>
      refine awake_of_passed ?_
      simp only [State.goes, hm] at hg
      grind [Main.passed]

/-- Each step keeps the flags that were tested told. -/
theorem step_awake (h : Awake s) (hstep : step lib s e = some (o, s')) : Awake s' := by
  cases e with
  | main => exact goes_awake h hstep
  | opened error =>
      obtain ⟨-, hstep⟩ := Option.ite_none_right_eq_some.mp hstep
      obtain rfl : _ = s' := congrArg Prod.snd (Option.some.inj hstep)
      cases error with
      | none => exact awake_of_passed rfl
      | some e => exact awake_of_passed (caught_passed s (some e))
  | started x =>
      obtain ⟨-, hstep⟩ := Option.ite_none_right_eq_some.mp hstep
      obtain rfl : _ = s' := congrArg Prod.snd (Option.some.inj hstep)
      refine awake_of_passed ?_
      dsimp only [State.started]
      split <;> rfl
  | framed x copied =>
      obtain ⟨-, hstep⟩ := Option.ite_none_right_eq_some.mp hstep
      obtain rfl : _ = s' := congrArg Prod.snd (Option.some.inj hstep)
      refine awake_of_passed ?_
      dsimp only [State.framed]
      split <;> rfl
  | stopped x =>
      simp only [step] at hstep
      split at hstep
      · obtain rfl : _ = s' := congrArg Prod.snd (Option.some.inj hstep)
        exact awake_of_passed (caught_passed _ _)
      · cases hstep
  | line value =>
      obtain ⟨hreading, hstep⟩ := Option.ite_none_right_eq_some.mp hstep
      obtain rfl : _ = s' := congrArg Prod.snd (Option.some.inj hstep)
      -- While a line is read, the monitor has not ended.
      have hmonitor {m : Monitor} (h : Told s.monitorDone s.changed (s.monitor = .tellingEnd)) :
          Told s.monitorDone s.changed (m = .tellingEnd) := h.mono fun hm => nomatch hreading.symm.trans hm
      rw [State.watched]
      split
      · exact ⟨h.stopping, h.writer, fun hp => hmonitor (h.monitor hp), fun _ => told_of_next rfl⟩
      · exact ⟨h.stopping, h.writer, fun hp => hmonitor (h.monitor hp), fun hp =>
          (h.active hp).mono fun hm => nomatch hreading.symm.trans hm⟩
  | monitor =>
      simp only [step] at hstep
      split at hstep
      · cases hstep
        exact awake_of_changed rfl
      · next hm =>
          cases hstep
          exact ⟨h.stopping, h.writer,
            fun hp => (h.monitor hp).mono fun ht => (nomatch hm.symm.trans ht), fun _ => told_of_clear⟩
      · next hm =>
          cases hstep
          exact ⟨h.stopping, h.writer, fun _ => told_of_next rfl,
            fun hp => (h.active hp).mono fun ht => nomatch hm.symm.trans ht⟩
      · cases hstep
        exact awake_of_changed rfl
      all_goals cases hstep
  | writerExits =>
      obtain ⟨-, hstep⟩ := Option.ite_none_right_eq_some.mp hstep
      cases hstep
      exact ⟨h.stopping, fun _ => told_of_next rfl, h.monitor, h.active⟩
  | writer =>
      obtain ⟨-, hstep⟩ := Option.ite_none_right_eq_some.mp hstep
      cases hstep
      exact awake_of_changed rfl
  | signal =>
      cases hstep
      exact ⟨fun _ => told_of_next (Nat.succ_pos _), h.writer, h.monitor, h.active⟩
  | handler =>
      obtain ⟨-, hstep⟩ := Option.ite_none_left_eq_some.mp hstep
      cases hstep
      exact awake_of_changed rfl

end Awake

/-! ### What is left behind -/

/-- The last picture that was written. -/
def lastPicture (o : List Output) : Option Picture :=
  (o.filterMap fun x => match x with
    | .wrote picture => some picture
    | _ => none).getLast?

/-- Every stream that the host returned was asked to stop after that, but the one that is held. -/
def Released (held : Option String) (o : List Output) : Prop :=
  ∀ u id v, o = u ++ Output.returned id :: v → (∃ failed, .request (.stop id) failed ∈ v) ∨ held = some id

/-- Neither a picture nor a stream of the host. -/
def Output.quiet : Output → Bool
  | .wrote _ | .returned _ => false
  | _ => true

/-- Inside of `with CameraStream(path)`. -/
def Main.inside : Main → Bool
  | .loopActive | .loopStopping | .framing | .frameActive _ | .frameStopping _ | .writing _ | .leaving _ => true
  | _ => false

/-- No black frame was written after what the camera may have shown. -/
def Main.lit : Main → Bool
  | .priming left | .blacking left _ => 4 ≤ left
  | main => main.inside

/-- The streams are stopped, but the one that is held, and outside of a stream none is held and black
was written last. -/
structure Dark (s : State) (o : List Output) : Prop where
  free : s.main.inside = false → s.stream.stream = none
  released : Released s.stream.stream o
  black : s.main.lit = false → lastPicture o = some .black

/-- What a step does to the pictures and the streams. -/
inductive Act (s : State) (o : List Output) (s' : State) : Prop where
  | quiet (hquiet : ∀ x ∈ o, x.quiet = true) (hstream : s'.stream.stream = s.stream.stream)
      (hfree : s'.main.inside = false → s.main.inside = false ∨ s.stream.stream = none)
      (hblack : s'.main.lit = false → s.main.lit = false)
  | painted (ho : o = [.wrote .black]) (hstream : s'.stream.stream = s.stream.stream)
      (hfree : s.main.inside = false)
  | showed (picture : Picture) (ho : o = [.wrote picture]) (hstream : s'.stream.stream = s.stream.stream)
      (hinside : s'.main.inside = true) (hlit : s'.main.lit = true)
  /-- The host returns a stream. -/
  | held (id : String) (failed : Option Raised) (ho : o = [.request .start failed, .returned id])
      (hstream : s'.stream.stream = some id) (hfree : s.stream.stream = none)
      (hinside : s'.main.inside = true) (hlit : s'.main.lit = true)
  /-- It is asked to stop. -/
  | released (id : String) (failed : Option Raised) (rest : List Output)
      (ho : o = .request (.stop id) failed :: rest) (hquiet : ∀ x ∈ rest, x.quiet = true)
      (hstream : s.stream.stream = some id) (hfree : s'.stream.stream = none) (hlit : s'.main.lit = true)

section Dark
variable {lib : Library} {s s' : State} {e : Event} {o o' : List Output} {held : Option String}

/-- An error shows nothing, keeps the stream, and black is to be written. -/
theorem caught_spec (s : State) (error : Option Raised) : (∀ x ∈ (s.caught error).1, x.quiet = true) ∧
    (s.caught error).2.stream = s.stream ∧ (s.caught error).2.main.lit = true := by
  simp only [State.caught]
  split
  · exact ⟨nofun, rfl, rfl⟩
  · split
    · exact ⟨nofun, rfl, rfl⟩
    · split
      · exact ⟨nofun, rfl, rfl⟩
      · exact ⟨by simp [Output.quiet], rfl, rfl⟩

/-- A step of another thread. -/
theorem Act.of_same (ho : o = []) (hmain : s'.main = s.main) (hstream : s'.stream = s.stream) :
    Act s o s' := by
  subst ho
  refine .quiet nofun (by rw [hstream]) (fun h => .inl ?_) fun h => ?_
  · rwa [hmain] at h
  · rwa [hmain] at h

/-- A step of the main loop is an allowed act. -/
theorem goes_act (hg : s.goes = some (o, s')) : Act s o s' := by
  cases hm : s.main with
  | priming left =>
      cases left with
      | zero =>
          simp only [State.goes, hm, Option.some.injEq, Prod.mk.injEq] at hg
          obtain ⟨rfl, rfl⟩ := hg
          exact .quiet (by simp [Output.quiet]) rfl (fun _ => .inl (by rw [hm]; rfl)) fun _ => by rw [hm]; rfl
      | succ left =>
          simp only [State.goes, hm, Option.some.injEq, Prod.mk.injEq] at hg
          obtain ⟨rfl, rfl⟩ := hg
          exact .painted rfl rfl (by rw [hm]; rfl)
  | blacking left error =>
      cases left with
      | zero =>
          simp only [State.goes, hm, Option.some.injEq, Prod.mk.injEq] at hg
          obtain ⟨rfl, rfl⟩ := hg
          exact .quiet nofun rfl (fun _ => .inl (by rw [hm]; rfl)) fun _ => by rw [hm]; rfl
      | succ left =>
          simp only [State.goes, hm, Option.some.injEq, Prod.mk.injEq] at hg
          obtain ⟨rfl, rfl⟩ := hg
          exact .painted rfl rfl (by rw [hm]; rfl)
  | writing pixels =>
      simp only [State.goes, hm, Option.some.injEq, Prod.mk.injEq] at hg
      obtain ⟨rfl, rfl⟩ := hg
      exact .showed _ rfl rfl rfl rfl
  | leaving error =>
      rw [State.goes.eq_def, hm] at hg
      obtain ⟨hnone, hg⟩ := Option.ite_none_right_eq_some.mp hg
      obtain ⟨rfl, rfl⟩ := Prod.ext_iff.mp (Option.some.inj hg)
      obtain ⟨hquiet, hstream, hlit⟩ := caught_spec _ error
      exact .quiet hquiet (congrArg CameraStream.stream hstream :) (fun _ => .inr hnone) fun hdark =>
        nomatch hlit.symm.trans hdark
  | _ =>
      -- The stream is what it was; the places inside of it are left through `leaving` only.
      simp only [State.goes, hm] at hg
      refine .quiet ?_ ?_ (fun hout => .inl ?_) fun hdark => ?_
      all_goals grind [Main.inside, Main.lit, Output.quiet]

/-- A frame does not change the stream that is held. -/
theorem frame_stream (s : CameraStream) (x : Exchange) (copied : Option (List UInt8)) :
    (s.frame lib x copied).1.stream = s.stream := by
  rw [CameraStream.frame]
  split
  · rfl
  · split
    · split <;> rfl
    · rfl

/-- **What a step does to the pictures and the streams.** -/
theorem step_act (hfree : s.main.inside = false → s.stream.stream = none)
    (h : step lib s e = some (o, s')) : Act s o s' := by
  cases e with
  | main => exact goes_act h
  | opened error =>
      obtain ⟨hm, h⟩ := Option.ite_none_right_eq_some.mp h
      obtain ⟨rfl, rfl⟩ := Prod.ext_iff.mp (Option.some.inj h)
      have hout : s.main.inside = false := by rw [hm]; rfl
      cases error with
      | none =>
          refine .quiet nofun (hfree hout).symm (fun _ => .inl hout) fun _ => ?_
          rw [hm]
          rfl
      | some e =>
          -- Outside of the stream an error is caught before anything was shown.
          obtain ⟨hquiet, hstream, hlit⟩ := caught_spec s (some e)
          exact .quiet hquiet (congrArg CameraStream.stream hstream :) (fun _ => .inl hout) fun hdark =>
            nomatch hlit.symm.trans hdark
  | started x =>
      obtain ⟨hm, h⟩ := Option.ite_none_right_eq_some.mp h
      obtain ⟨rfl, rfl⟩ := Prod.ext_iff.mp (Option.some.inj h)
      have hnone : s.stream.stream = none := hfree (by rw [hm]; rfl)
      have hplace : (s.started lib x).2.main.inside = true ∧ (s.started lib x).2.main.lit = true := by
        dsimp only [State.started]
        split <;> exact ⟨rfl, rfl⟩
      cases hr : (s.stream.enter lib x).1.stream with
      | none =>
          refine .quiet ?_ (hr.trans hnone.symm) (fun hout => nomatch hplace.1.symm.trans hout)
            fun hdark => nomatch hplace.2.symm.trans hdark
          simp [State.started, hr, Output.quiet]
      | some id =>
          refine .held id x.failed ?_ hr hnone hplace.1 hplace.2
          simp [State.started, hr]
  | framed x copied =>
      obtain ⟨-, h⟩ := Option.ite_none_right_eq_some.mp h
      obtain ⟨rfl, rfl⟩ := Prod.ext_iff.mp (Option.some.inj h)
      have hplace : (s.framed lib x copied).2.main.inside = true ∧
          (s.framed lib x copied).2.main.lit = true := by
        dsimp only [State.framed]
        split <;> exact ⟨rfl, rfl⟩
      refine .quiet ?_ (frame_stream s.stream x copied) (fun hout => nomatch hplace.1.symm.trans hout)
        fun hdark => nomatch hplace.2.symm.trans hdark
      simp [State.framed, Output.quiet]
  | stopped x =>
      simp only [step] at h
      split at h
      · next error id _ hid =>
          obtain ⟨rfl, rfl⟩ := Prod.ext_iff.mp (Option.some.inj h)
          obtain ⟨hquiet, hstream, hlit⟩ :=
            caught_spec { s with stream := (s.stream.exit lib x).1 } ((s.stream.exit lib x).2.or error)
          exact .released id x.failed _ rfl hquiet hid (congrArg CameraStream.stream hstream :) hlit
      · cases h
  | line value =>
      obtain ⟨-, h⟩ := Option.ite_none_right_eq_some.mp h
      obtain ⟨rfl, rfl⟩ := Prod.mk.inj (Option.some.inj h)
      rw [State.watched]
      split <;> exact .of_same rfl rfl rfl
  | monitor =>
      simp only [step] at h
      split at h <;> cases h <;> exact .of_same rfl rfl rfl
  | writerExits | writer =>
      obtain ⟨-, h⟩ := Option.ite_none_right_eq_some.mp h
      cases h
      exact .of_same rfl rfl rfl
  | signal =>
      cases h
      exact .of_same rfl rfl rfl
  | handler =>
      obtain ⟨-, h⟩ := Option.ite_none_left_eq_some.mp h
      cases h
      exact .of_same rfl rfl rfl

theorem lastPicture_append (o o' : List Output) :
    lastPicture (o ++ o') = (lastPicture o').or (lastPicture o) := by
  rw [lastPicture, List.filterMap_append, List.getLast?_append]
  rfl

/-- Quiet effects have no picture. -/
theorem lastPicture_quiet (h : ∀ x ∈ o, x.quiet = true) : lastPicture o = none := by
  rw [lastPicture, List.getLast?_eq_none_iff, List.filterMap_eq_nil_iff]
  intro x hx
  cases x with
  | wrote picture => cases h _ hx
  | _ => rfl

/-- Effects that return no stream leave none to be stopped. -/
theorem Released.extend (h : Released held o) (hno : ∀ id, Output.returned id ∉ o') :
    Released held (o ++ o') := by
  intro u id v hsplit
  obtain ⟨w, ho, rfl⟩ | ⟨w, rfl, -⟩ := append_eq_append_cons hsplit
  · exact (h u id w ho).imp_left fun ⟨failed, hw⟩ => ⟨failed, List.mem_append_left _ hw⟩
  · exact absurd (by simp) (hno id)

/-- A stream that is returned is held. -/
theorem Released.hold (h : Released none o) (id : String) (failed : Option Raised) :
    Released (some id) (o ++ [Output.request .start failed, .returned id]) := by
  intro u id' v hsplit
  obtain ⟨w, ho, rfl⟩ | ⟨w, hw, -⟩ := append_eq_append_cons hsplit
  · obtain ⟨failed', hstop⟩ := (h u id' w ho).resolve_right nofun
    exact .inl ⟨failed', List.mem_append_left _ hstop⟩
  · right
    have hmem : Output.returned id' ∈ [.request .start failed, .returned id] := by simp [hw]
    exact congrArg some (Output.returned.inj ((List.mem_pair.mp hmem).resolve_left nofun)).symm

/-- A held stream that is asked to stop is held no longer. -/
theorem Released.release {id : String} (h : Released (some id) o) (failed : Option Raised)
    (hquiet : ∀ x ∈ o', x.quiet = true) : Released none (o ++ .request (.stop id) failed :: o') := by
  intro u id' v hsplit
  left
  obtain ⟨w, ho, rfl⟩ | ⟨w, hw, -⟩ := append_eq_append_cons hsplit
  · rcases h u id' w ho with ⟨failed', hstop⟩ | hid
    · exact ⟨failed', List.mem_append_left _ hstop⟩
    · exact ⟨failed, by simp [Option.some.inj hid]⟩
  · have hmem : Output.returned id' ∈ .request (.stop id) failed :: o' := by simp [hw]
    cases hquiet _ ((List.mem_cons.mp hmem).resolve_left nofun)

/-- **Every step leaves the streams and the pictures as they are to be.** -/
theorem dark_step (h : Dark s o) (hstep : step lib s e = some (o', s')) : Dark s' (o ++ o') := by
  cases step_act h.free hstep with
  | quiet hquiet hstream hfree hblack =>
      refine ⟨fun hout => ?_, ?_, fun hdark => ?_⟩
      · rw [hstream]
        exact (hfree hout).elim h.free id
      · rw [hstream]
        exact h.released.extend fun id hmem => nomatch hquiet _ hmem
      · rw [lastPicture_append, lastPicture_quiet hquiet]
        exact h.black (hblack hdark)
  | painted ho hstream hfree =>
      subst ho
      refine ⟨fun _ => hstream.trans (h.free hfree), ?_, fun _ => ?_⟩
      · rw [hstream]
        exact h.released.extend fun id hmem => nomatch List.mem_singleton.mp hmem
      · rw [lastPicture_append]
        rfl
  | showed picture ho hstream hinside hlit =>
      subst ho
      refine ⟨fun hout => (nomatch hinside.symm.trans hout), ?_,
        fun hdark => (nomatch hlit.symm.trans hdark)⟩
      rw [hstream]
      exact h.released.extend fun id hmem => nomatch List.mem_singleton.mp hmem
  | held id failed ho hstream hnone hinside hlit =>
      subst ho
      refine ⟨fun hout => (nomatch hinside.symm.trans hout), ?_,
        fun hdark => (nomatch hlit.symm.trans hdark)⟩
      rw [hstream]
      exact (hnone ▸ h.released).hold id failed
  | released id failed rest ho hquiet hstream hnone hlit =>
      subst ho
      refine ⟨fun _ => hnone, ?_, fun hdark => nomatch hlit.symm.trans hdark⟩
      rw [hnone]
      exact (hstream ▸ h.released).release failed hquiet

/-- At the start no stream was returned. -/
theorem dark_initial : Dark .initial [] where
  free _ := rfl
  released u id v h := by cases u <;> cases h
  black h := by cases h

end Dark

/-! ### Every run -/

/-- In every reachable state the flags that were tested are told. -/
theorem run_awake {lib : Library} {s : State} {t : List (Event × List Output)}
    (h : Run lib .initial t s) : Awake s :=
  h.invariant (I := Awake) step_awake (awake_of_passed rfl)

/-- In every run the streams are stopped but the one that is held. -/
theorem run_dark {lib : Library} {s : State} {t : List (Event × List Output)}
    (h : Run lib .initial t s) : Dark s (outputs t) := by
  have hstep {s t e o s'} (hd : Dark s (outputs t)) (hs : step lib s e = some (o, s')) :
      Dark s' (outputs (t ++ [(e, o)])) := by
    have := dark_step hd hs
    rwa [outputs, List.flatMap_append, List.flatMap_singleton]
  exact Steps.invariant_trace (I := fun s t => Dark s (outputs t)) hstep h (u := []) dark_initial

/-- The main loop is in one of its waits, or about to open the camera. -/
def Main.idle : Main → Bool
  | .waiting | .pausing | .opening => true
  | _ => false

/-- The next step of the thread is `changed.set()`. -/
def Tells (lib : Library) (s : State) (thread : Event) : Prop :=
  (step lib s thread).map (·.2.changed) = some true

/-- **Demand is not missed, and no image is left behind.**  A main loop that waits and is not to be
woken has missed no flag but one whose thread is about to wake it.  When it waits or opens the camera,
black was written last, and the host was asked to stop every stream that it had returned, if the
request could be sent. -/
theorem demand_watched {lib : Library} {s : State} {t : List (Event × List Output)}
    (h : Run lib .initial t s) :
    (s.main = .waiting → s.changed = false →
      (s.active = true → Tells lib s .monitor) ∧ (s.stopping = true → Tells lib s .handler) ∧
      (s.writerDone = true → Tells lib s .writer) ∧ (s.monitorDone = true → Tells lib s .monitor)) ∧
    (s.main.idle = true → lastPicture (outputs t) = some .black ∧
      ∀ u id v, outputs t = u ++ .returned id :: v → ∃ failed, .request (.stop id) failed ∈ v) := by
  have ha := run_awake h
  have hd := run_dark h
  constructor
  · intro hm hchanged
    have hp : s.main.passed = 4 := by rw [hm]; rfl
    have hnext {flag : Bool} {next : Prop} (ht : Told flag s.changed next) (hflag : flag = true) : next :=
      (ht hflag).resolve_left (Bool.eq_false_iff.mp hchanged)
    refine ⟨fun hf => ?_, fun hf => ?_, fun hf => ?_, fun hf => ?_⟩
    · have hmonitor := hnext (ha.active (by omega)) hf
      simp [Tells, step, hmonitor]
    · have hhandlers := hnext (ha.stopping (by omega)) hf
      simp [Tells, step, hhandlers.ne']
    · have hwriter := hnext (ha.writer (by omega)) hf
      simp [Tells, step, hwriter]
    · have hmonitor := hnext (ha.monitor (by omega)) hf
      simp [Tells, step, hmonitor]
  · intro hidle
    have hout : s.main.inside = false ∧ s.main.lit = false := by
      cases hm : s.main with
      | waiting | pausing | opening => exact ⟨rfl, rfl⟩
      | _ =>
          rw [hm] at hidle
          cases hidle
    have hreleased := hd.released
    rw [hd.free hout.1] at hreleased
    exact ⟨hd.black hout.2, fun u id v ho => (hreleased u id v ho).resolve_right nofun⟩

/-! ### Two runs -/

def sampleId : String := "6BA7B810-9DAD-11D1-80B4-00C04FD430C8"

/-- The answers of the host, and their lines. -/
def startReply : Object :=
  [("ok", .bool true), ("stream", .str sampleId), ("width", .int 1280), ("height", .int 720),
    ("format", .str "nv12"), ("memoryBytes", .int 8388608)]

def startLine : List UInt8 :=
  ("\x7b\"ok\":true,\"stream\":\"6BA7B810-9DAD-11D1-80B4-00C04FD430C8\",\"width\":1280,\"height\":720," ++
    "\"format\":\"nv12\",\"memoryBytes\":8388608\x7d\n").toUTF8.toList

def stopReply : Object := [("ok", .bool true)]

def stopLine : List UInt8 := "\x7b\"ok\":true\x7d\n".toUTF8.toList

/-- A library that knows these lines and this identifier. -/
def sampleLibrary : Library where
  loads line :=
    if line = startLine then .ok (.obj startReply)
    else if line = stopLine then .ok (.obj stopReply)
    else .error valueError
  uuid text := if text = sampleId then some sampleId else none

/-- What the monitor tells. -/
def readers (active : Bool) : Event := .line (some (.obj [("camera_reader_active", .bool active)]))

/-- A reader comes before the first wait, and the camera is opened. -/
def openingEvents : List Event :=
  List.replicate 5 Event.main ++ [readers true, .monitor] ++ List.replicate 6 Event.main ++
    [Event.opened none, .started (.line startLine)]

/-- It goes; the main loop waits, and is told to stop. -/
def closingEvents : List Event :=
  [readers false, .monitor, .main, .stopped (.line stopLine)] ++
    List.replicate 13 Event.main ++ [Event.signal]

/-- The sample run waits with black written, its stream stopped, and the next flag told. -/
theorem demand_watched_sample : ∃ t s, Run sampleLibrary .initial t s ∧ s.main = .waiting ∧
    s.changed = false ∧ s.stopping = true ∧ Tells sampleLibrary s .handler ∧
    lastPicture (outputs t) = some .black ∧
    ∀ u id v, outputs t = u ++ .returned id :: v → ∃ failed, .request (.stop id) failed ∈ v := by
  have hplay : (play (step sampleLibrary) .initial (openingEvents ++ closingEvents)).map
      (fun x => (x.2.main, x.2.changed, x.2.stopping)) = some (.waiting, false, true) := by decide +kernel
  obtain ⟨⟨t, s⟩, hplayed, hs⟩ := Option.map_eq_some_iff.mp hplay
  simp only [Prod.mk.injEq] at hs
  obtain ⟨hmain, hchanged, hstopping⟩ := hs
  obtain ⟨htold, hdark⟩ := demand_watched (Steps.of_play hplayed)
  obtain ⟨hblack, hreleased⟩ := hdark (by rw [hmain]; rfl)
  exact ⟨t, s, Steps.of_play hplayed, hmain, hchanged, hstopping, (htold hmain hchanged).2.1 hstopping,
    hblack, hreleased⟩

/-- Nobody listens at the socket. -/
def refused : Exchange := .unsent ⟨.osError, "ConnectionRefusedError"⟩

/-- The connection to the host is lost while a stream is open. -/
def lostEvents : List Event :=
  List.replicate 2 Event.main ++ [Event.framed refused none, .stopped refused] ++
    List.replicate 7 Event.main

/-- **A stream can be left without a request to stop it.**  `__exit__` gives up when there is no
connection; the lease of the host ends the stream. -/
theorem stream_left : ∃ t s, Run sampleLibrary .initial t s ∧ s.main = .pausing ∧
    ¬ ∀ u id v, outputs t = u ++ Output.returned id :: v → .request (.stop id) none ∈ v := by
  have hplay : (play (step sampleLibrary) .initial (openingEvents ++ lostEvents)).map
      (fun x => (x.2.main, decide (.returned sampleId ∈ outputs x.1),
        decide (.request (.stop sampleId) none ∈ outputs x.1))) = some (.pausing, true, false) := by
    decide +kernel
  obtain ⟨⟨t, s⟩, hplayed, hs⟩ := Option.map_eq_some_iff.mp hplay
  simp only [Prod.mk.injEq, decide_eq_true_eq, decide_eq_false_iff_not] at hs
  obtain ⟨hmain, hreturned, hunsent⟩ := hs
  refine ⟨t, s, Steps.of_play hplayed, hmain, fun hall => hunsent ?_⟩
  obtain ⟨u, v, huv⟩ := List.append_of_mem hreturned
  rw [huv]
  exact List.mem_append_right _ (List.mem_cons_of_mem _ (hall u sampleId v huv))

end Ashacky.Camera.Demand
